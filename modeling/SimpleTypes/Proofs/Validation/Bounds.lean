import SimpleTypes.Proofs.Schema.Origins
import SimpleTypes.Proofs.Validation.Derivation
import SimpleTypes.Proofs.Value.Coherence

/-!
# Bounds that cross

A lower bound may not lie above an upper bound, or no value lies between them. A bound is
read as a value of the base, so it keeps to the bounds that are inherited. But two bounds
that one restriction states are not compared with each other.

* `Bound.isLE_of_lower` and `Bound.isLE_of_upper`: what bounds say in terms of the order.
* `run_bounds_cross`: bounds cross only if one restriction stated both, and a type with
  such bounds accepts no text.
* `run_bounds_cross_tenToFive`: a run with such types.
-/

namespace SimpleTypes

/-! ## Two bounds -/

namespace RangeKind

/-- The kinds of bounds from below. -/
def lower : List RangeKind := [minInclusive, minExclusive]

/-- The kinds of bounds from above. -/
def upper : List RangeKind := [maxInclusive, maxExclusive]

theorem isLE_swap_of_lower {kind : RangeKind} (hkind : kind ∈ lower) {order : Ordering}
    (h : kind.accepts order = true) : order.swap.isLE = true := by
  have hlower : ∀ kind ∈ lower, kind.accepts .lt = false := by decide
  cases order with
  | lt => rw [hlower kind hkind] at h; cases h
  | _ => rfl

theorem isLE_of_upper {kind : RangeKind} (hkind : kind ∈ upper) {order : Ordering}
    (h : kind.accepts order = true) : order.isLE = true := by
  have hupper : ∀ kind ∈ upper, kind.accepts .gt = false := by decide
  cases order with
  | gt => rw [hupper kind hkind] at h; cases h
  | _ => rfl

end RangeKind

/-- Whether a value is at most another one. -/
def Atom.IsLE (a b : Atom) : Prop := (a.order? b).any Ordering.isLE = true

theorem Atom.IsLE.trans {a b c : Atom} (hab : a.IsLE b) (hbc : b.IsLE c) : a.IsLE c :=
  Atom.isTransitive.trans composes_isLE hab hbc

theorem Atom.IsLE.order?_ne_gt {a b : Atom} (h : a.IsLE b) : a.order? b ≠ some .gt := by
  intro horder
  rw [IsLE, horder] at h
  cases h

namespace Bound

variable {bound : Bound} {value : Atom}

theorem isLE_of_upper (hkind : bound.kind ∈ RangeKind.upper) (h : bound.admits value = true) :
    value.IsLE bound.value := by
  rw [admits_eq] at h
  rw [Atom.IsLE]
  cases horder : value.order? bound.value with
  | none =>
    rw [horder] at h
    cases h
  | some order =>
    rw [horder] at h
    exact RangeKind.isLE_of_upper hkind h

theorem isLE_of_lower (hkind : bound.kind ∈ RangeKind.lower) (h : bound.admits value = true) :
    bound.value.IsLE value := by
  rw [admits_eq] at h
  rw [Atom.IsLE, Atom.isOriented value bound.value]
  cases horder : value.order? bound.value with
  | none =>
    rw [horder] at h
    cases h
  | some order =>
    rw [horder] at h
    exact RangeKind.isLE_swap_of_lower hkind h

end Bound

/-! ## Facets -/

variable {limits : Limits} {bindings? : Option Bindings} {handle baseHandle : Handle}
  {type base : SimpleType} {lower upper : RangeKind} {low high : Bound} {text : String}

theorem SimpleType.exists_primitive_of_slot {kind : RangeKind} {bound : Bound}
    (hfacets : type.facets.IsConsistent type.primitive?) (h : type.facets.slot kind = some bound) :
    ∃ primitive, type.variety = .atomic primitive := by
  have hprimitive := (hfacets.bounds kind bound h).2
  cases hvariety : type.variety with
  | atomic primitive => exact ⟨primitive, rfl⟩
  | list item => simp [primitive?, hvariety] at hprimitive
  | union members => simp [primitive?, hvariety] at hprimitive

/-- No value lies between bounds that cross. -/
theorem Graph.WellFormed.isLE_of_readValue {graph : Graph} (wf : graph.WellFormed)
    (htype : graph.simpleType? handle = some type) (hlower : lower ∈ RangeKind.lower)
    (hupper : upper ∈ RangeKind.upper) (hlow : type.facets.slot lower = some low)
    (hhigh : type.facets.slot upper = some high) {value : TypedValue}
    (h : graph.readValue limits bindings? handle text = .ok value) :
    low.value.IsLE high.value := by
  have hfacets := (wf.admitsSimple htype).facets
  obtain ⟨primitive, hvariety⟩ := SimpleType.exists_primitive_of_slot hfacets hlow
  obtain ⟨atom, hatom, -⟩ := (wf.readValue_atomic htype hvariety).mp h
  obtain ⟨native, -, -, hchecked, -⟩ := readAtom_eq_ok.mp hatom
  obtain ⟨-, -, hadmitted⟩ := FacetSet.checkAtom_eq_ok.mp hchecked
  rw [← (hfacets.bounds lower low hlow).1] at hlower
  rw [← (hfacets.bounds upper high hhigh).1] at hupper
  exact (Bound.isLE_of_lower hlower (hadmitted lower low hlow)).trans
    (Bound.isLE_of_upper hupper (hadmitted upper high hhigh))

/-! ## Runs -/

theorem Builtin.bounds_isLE (source : Builtin) (hlower : lower ∈ RangeKind.lower)
    (hupper : upper ∈ RangeKind.upper) (hlow : source.facets.slot lower = some low)
    (hhigh : source.facets.slot upper = some high) : low.value.order? high.value ≠ some .gt := by
  have hbounds : ∀ source ∈ all, ∀ lower ∈ RangeKind.lower, ∀ upper ∈ RangeKind.upper,
      ∀ low ∈ source.facets.slot lower, ∀ high ∈ source.facets.slot upper,
        low.value.order? high.value ≠ some .gt := by decide +kernel
  exact hbounds source (mem_all source) lower hlower upper hupper low hlow high hhigh

namespace Builder

variable {steps : List Step}

/-- Whether one restriction of a run stated both of two bounds, in a type or in one from
which it is derived. -/
def StatedTogether (steps : List Step) (handle : Handle) (low high : Bound) : Prop :=
  ∃ builder baseHandle restriction made,
    Makes steps builder (.restriction baseHandle restriction) (.simpleType made) ∧
      (start.run steps).graph.derivesFrom handle builder.graph.next = true ∧
      builder.States baseHandle restriction low ∧ builder.States baseHandle restriction high

theorem StatedTogether.of_base (h : StatedTogether steps baseHandle low high)
    (htype : (start.run steps).graph.simpleType? handle = some type)
    (hbase : type.base = some baseHandle) : StatedTogether steps handle low high := by
  obtain ⟨builder, root, restriction, made, hmakes, hderives, hlow, hhigh⟩ := h
  refine ⟨builder, root, restriction, made, hmakes, ?_, hlow, hhigh⟩
  rw [(run_wellFormed steps).derivesFrom_eq htype, hbase, Bool.or_eq_true]
  exact .inr hderives

theorem IsRestrictionOf.statedTogether {builder : Builder} {restriction : Restriction}
    (h : IsRestrictionOf steps builder baseHandle base restriction type)
    (hlow : builder.States baseHandle restriction low)
    (hhigh : builder.States baseHandle restriction high) :
    StatedTogether steps builder.graph.next low high := by
  refine ⟨builder, baseHandle, restriction, type, h.makes, ?_, hlow, hhigh⟩
  rw [(run_wellFormed steps).derivesFrom_eq h.simpleType?_next, beq_self_eq_true, Bool.true_or]

/-- A bound of the base admits every bound that a restriction states. -/
theorem IsRestrictionOf.admits_of_states {builder : Builder} {restriction : Restriction}
    (h : IsRestrictionOf steps builder baseHandle base restriction type) {kind : RangeKind}
    {old stated : Bound} (hold : base.facets.slot kind = some old)
    (hstates : builder.States baseHandle restriction stated) :
    old.kind = kind ∧ old.admits stated.value = true := by
  obtain ⟨-, -, hadmitted⟩ := FacetSet.checkAtom_eq_ok.mp (h.checkAtom_of_states hstates)
  have hfacets := (h.wellFormed.admitsSimple h.simpleType?_base).facets
  exact ⟨(hfacets.bounds kind old hold).1, hadmitted kind old hold⟩

/-- Bounds that cross were stated by one restriction. If only one of them was new in a
step, the other would have admitted it. -/
theorem statedTogether_of_cross (hlower : lower ∈ RangeKind.lower) (hupper : upper ∈ RangeKind.upper)
    (h : (start.run steps).graph.simpleType? handle = some type)
    (hlow : type.facets.slot lower = some low) (hhigh : type.facets.slot upper = some high)
    (hcross : low.value.order? high.value = some .gt) : StatedTogether steps handle low high := by
  refine simpleType_induction (P := fun handle type => ∀ low high,
    type.facets.slot lower = some low → type.facets.slot upper = some high →
      low.value.order? high.value = some .gt → StatedTogether steps handle low high)
    ?_ ?_ ?_ ?_ h low high hlow hhigh hcross
  · intro source low high hlow hhigh hcross
    exact absurd hcross (source.bounds_isLE hlower hupper hlow hhigh)
  · intro builder baseHandle base restriction type hrestriction hbase low high hlow hhigh hcross
    rcases slot_restrictFacets hrestriction.facets lower with holdLow | ⟨newLow, hnewLow, -, hstatesLow⟩
    · rw [holdLow] at hlow
      rcases slot_restrictFacets hrestriction.facets upper with
        holdHigh | ⟨newHigh, hnewHigh, -, hstatesHigh⟩
      · rw [holdHigh] at hhigh
        exact (hbase low high hlow hhigh hcross).of_base hrestriction.simpleType?_next
          hrestriction.base_eq
      · obtain rfl : newHigh = high := Option.some.inj (hnewHigh.symm.trans hhigh)
        obtain ⟨hkind, hadmits⟩ := hrestriction.admits_of_states hlow hstatesHigh
        exact absurd hcross (Bound.isLE_of_lower (hkind ▸ hlower) hadmits).order?_ne_gt
    · obtain rfl : newLow = low := Option.some.inj (hnewLow.symm.trans hlow)
      rcases slot_restrictFacets hrestriction.facets upper with
        holdHigh | ⟨newHigh, hnewHigh, -, hstatesHigh⟩
      · rw [holdHigh] at hhigh
        obtain ⟨hkind, hadmits⟩ := hrestriction.admits_of_states hhigh hstatesLow
        exact absurd hcross (Bound.isLE_of_upper (hkind ▸ hupper) hadmits).order?_ne_gt
      · obtain rfl : newHigh = high := Option.some.inj (hnewHigh.symm.trans hhigh)
        exact hrestriction.statedTogether hstatesLow hstatesHigh
  · intro handle type hlist low high hlow
    rw [hlist.facets] at hlow
    cases lower <;> cases hlow
  · intro handle type hunion low high hlow
    rw [hunion.facets] at hlow
    cases lower <;> cases hlow

/-- If a lower bound of a simple type of a run lies above an upper one, one restriction
stated both, for the type or for one from which it is derived. The type accepts no text. -/
theorem run_bounds_cross (hlower : lower ∈ RangeKind.lower) (hupper : upper ∈ RangeKind.upper)
    (h : (start.run steps).graph.simpleType? handle = some type)
    (hlow : type.facets.slot lower = some low) (hhigh : type.facets.slot upper = some high)
    (hcross : low.value.order? high.value = some .gt) :
    StatedTogether steps handle low high ∧ ∀ limits bindings? text,
      (start.run steps).graph.isValid limits bindings? handle text = false := by
  refine ⟨statedTogether_of_cross hlower hupper h hlow hhigh hcross, ?_⟩
  intro limits bindings? text
  refine Bool.eq_false_iff.mpr fun hvalid => ?_
  obtain ⟨-, value, hvalue⟩ := Graph.isValid_iff.mp hvalid
  exact ((run_wellFormed steps).isLE_of_readValue h hlower hupper hlow hhigh hvalue).order?_ne_gt
    hcross

/-- Decimals from ten to five, and a restriction of them. -/
def tenToFive : List Step := [
  .define (.restriction (Builtin.primitive .decimal).handle
    { ranges := [(.minInclusive, "10"), (.maxInclusive, "5")] }),
  .define (.restriction ⟨45⟩ { totalDigits := some 3 })]

/-- The facets of the restriction of decimals from ten to five. -/
def tenToFiveFacets : FacetSet where
  whiteSpace := some .collapse
  totalDigits := some 3
  minInclusive := some ⟨.minInclusive, (Builtin.primitive .decimal).boundAtom 10⟩
  maxInclusive := some ⟨.maxInclusive, (Builtin.primitive .decimal).boundAtom 5⟩

theorem run_bounds_cross_tenToFive :
    (start.run tenToFive).graph.simpleType? ⟨46⟩
        = some ⟨none, some ⟨45⟩, .atomic .decimal, none, .plain, tenToFiveFacets⟩ ∧
      ((Builtin.primitive .decimal).boundAtom 10).order?
        ((Builtin.primitive .decimal).boundAtom 5) = some .gt := by
  decide +kernel

theorem run_bounds_cross_tenToFive_restricted :
    StatedTogether tenToFive ⟨46⟩ ⟨.minInclusive, (Builtin.primitive .decimal).boundAtom 10⟩
        ⟨.maxInclusive, (Builtin.primitive .decimal).boundAtom 5⟩ ∧
      ∀ limits bindings? text,
        (start.run tenToFive).graph.isValid limits bindings? ⟨46⟩ text = false := by
  have htype : (start.run tenToFive).graph.simpleType? ⟨46⟩
      = some ⟨none, some ⟨45⟩, .atomic .decimal, none, .plain, tenToFiveFacets⟩ := by
    decide +kernel
  have hlower : RangeKind.minInclusive ∈ RangeKind.lower := by decide
  have hupper : RangeKind.maxInclusive ∈ RangeKind.upper := by decide
  exact run_bounds_cross hlower hupper htype rfl rfl (by decide)

end Builder

end SimpleTypes
