import SimpleTypes.Proofs.Schema.Origins
import SimpleTypes.Proofs.Validation.Derivation

/-!
# Restrictions of lengths and digits

The lengths and digits that a restriction states stand in the place of the inherited ones.
They are compared with each other but not with what they replace. So a type that states
no more than such numbers may accept texts that its base rejects, but only where the base
finds a number exceeded: all else is inherited. If no stated number is wider than the one
it replaces, acceptance goes up to the base.

* `Restriction.StatesNumbersOnly`: no facets but lengths and digits are stated.
* `Restriction.Tightens`: no stated number is wider than what is in force.
* `SimpleType.DiffersInNumbers`: what such a restriction keeps.
* `run_restriction_numbers`: what the acceptance of a text by a restriction says about its
  base.
-/

namespace SimpleTypes

variable {limits : Limits} {bindings? : Option Bindings} {handle baseHandle item : Handle}
  {type base : SimpleType} {restriction : Restriction} {facets : FacetSet} {text : String}

/-! ## Stated numbers -/

/-- Whether a restriction states no facets but lengths and digits. -/
structure Restriction.StatesNumbersOnly (restriction : Restriction) : Prop where
  whiteSpace : restriction.whiteSpace = none
  ranges : restriction.ranges = []
  enumeration : restriction.enumeration = []
  patterns : restriction.patterns = []

/-- Whether no number that a restriction states is wider than the facets in force. An exact
length must be one of the lengths in force. Next to an exact length, stated or in force,
the least and the greatest length say nothing. -/
structure Restriction.Tightens (restriction : Restriction) (facets : FacetSet) : Prop where
  length : ∀ count ∈ restriction.length, facets.checkLength count = .ok ()
  minLength : restriction.length = none → facets.length = none →
    ∀ old ∈ facets.minLength, ∀ new ∈ restriction.minLength, old ≤ new
  maxLength : restriction.length = none → facets.length = none →
    ∀ old ∈ facets.maxLength, ∀ new ∈ restriction.maxLength, new ≤ old
  totalDigits : ∀ old ∈ facets.totalDigits, ∀ new ∈ restriction.totalDigits, new ≤ old
  fractionDigits : ∀ old ∈ facets.fractionDigits, ∀ new ∈ restriction.fractionDigits, new ≤ old

theorem le_of_or {stated inherited : Option Nat} {actual old : Nat}
    (htight : ∀ new ∈ stated, new ≤ old) (hold : inherited = some old)
    (hactual : ∀ most, stated.or inherited = some most → actual ≤ most) : actual ≤ old := by
  cases stated with
  | none => exact hactual old hold
  | some new => exact Nat.le_trans (hactual new rfl) (htight new rfl)

theorem ge_of_or {stated inherited : Option Nat} {actual old : Nat}
    (htight : ∀ new ∈ stated, old ≤ new) (hold : inherited = some old)
    (hactual : ∀ least, stated.or inherited = some least → least ≤ actual) : old ≤ actual := by
  cases stated with
  | none => exact hactual old hold
  | some new => exact Nat.le_trans (htight new rfl) (hactual new rfl)

namespace Restriction.Tightens

/-- A length that the new facets allow was allowed before. -/
theorem checkLength (h : restriction.Tightens facets) {count : Nat}
    (hcount : (Builder.restrictNumbers facets restriction).checkLength count = .ok ()) :
    facets.checkLength count = .ok () := by
  obtain ⟨hexact, hbetween⟩ := FacetSet.checkLength_eq_ok.mp hcount
  simp only [Builder.restrictNumbers] at hexact hbetween
  cases hstated : restriction.length with
  | some required =>
    rw [hexact required (by rw [hstated]; rfl)]
    exact h.length required hstated
  | none =>
    rw [hstated] at hexact hbetween
    refine FacetSet.checkLength_eq_ok.mpr ⟨hexact, fun hinherited => ?_⟩
    obtain ⟨hleast, hmost⟩ := hbetween hinherited
    exact ⟨fun old hold => ge_of_or (h.minLength hstated hinherited old hold) hold hleast,
      fun old hold => le_of_or (h.maxLength hstated hinherited old hold) hold hmost⟩

theorem admitsDigits (h : restriction.Tightens facets) {value : Decimal}
    (hvalue : (Builder.restrictNumbers facets restriction).AdmitsDigits value) :
    facets.AdmitsDigits value :=
  ⟨fun old hold => le_of_or (h.totalDigits old hold) hold hvalue.1,
    fun old hold => le_of_or (h.fractionDigits old hold) hold hvalue.2⟩

end Restriction.Tightens

/-! ## Types that differ in numbers -/

/-- Whether a type differs from a base in no more than its names and its lengths and
digits. -/
structure SimpleType.DiffersInNumbers (type base : SimpleType) : Prop where
  variety : type.variety = base.variety
  rule : type.rule = base.rule
  whiteSpace : type.facets.whiteSpace = base.facets.whiteSpace
  bounds : ∀ kind, type.facets.slot kind = base.facets.slot kind
  enumeration : type.facets.enumeration = base.facets.enumeration

/-- Whether an error is a violation of a facet that states a number. -/
def Error.IsAboutNumber : Error → Prop
  | .invalid cause => cause.IsAboutNumber
  | _ => False

theorem failsWith_ofInvalid_number {x : Except Invalid Unit}
    (h : FailsWith Invalid.IsAboutNumber x) : FailsWith Error.IsAboutNumber (Error.ofInvalid x) :=
  FailsWith.mapError h

namespace SimpleType.DiffersInNumbers

variable {primitive : Primitive} {members : List Handle}

theorem checkEnumeration (h : type.DiffersInNumbers base) (value : TypedValue) :
    base.facets.checkEnumeration value = type.facets.checkEnumeration value := by
  rw [FacetSet.checkEnumeration, FacetSet.checkEnumeration, h.enumeration]

/-- An atom of the type can only have a number that the base does not allow. -/
theorem failsWith_readAtom (h : type.DiffersInNumbers base) {atom : Atom}
    (hatom : readAtom limits bindings? handle type primitive text = .ok atom) :
    FailsWith Error.IsAboutNumber (readAtom limits bindings? baseHandle base primitive text) := by
  obtain ⟨native, hread, rfl, hchecks, henum⟩ := readAtom_eq_ok.mp hatom
  obtain ⟨hchecks', henum'⟩ := checks_of_type baseHandle hchecks henum
  have hrange : base.facets.checkRange ⟨native, baseHandle, primitive⟩ = .ok () := by
    refine FacetSet.checkRange_eq_ok.mpr ?_
    intro kind bound hbound
    exact (FacetSet.checkAtom_eq_ok.mp hchecks').2.2 kind bound ((h.bounds kind).trans hbound)
  rw [h.rule, h.whiteSpace] at hread
  rw [readAtom, hread]
  refine (failsWith_ofInvalid_number (FacetSet.failsWith_checkAtom_of_checkRange hrange)).bind ?_
  intro _ _
  rw [h.checkEnumeration, henum']
  exact failsWith_ok _

/-- A list of the type can only have a length that the base does not allow. -/
theorem failsWith_readList (h : type.DiffersInNumbers base)
    {readItem : String → Except Error TypedValue} {list : ListValue}
    (hlist : readList limits type item readItem text = .ok list) :
    FailsWith Error.IsAboutNumber (readList limits base item readItem text) := by
  obtain ⟨values, hcount, -, hvalues, rfl, henum⟩ := readList_eq_ok.mp hlist
  rw [h.whiteSpace] at hcount hvalues
  simp only [readList, hcount, mapM_eq_ok.mpr hvalues]
  refine (failsWith_ofInvalid_number (FacetSet.failsWith_checkLength _ _)).bind fun _ _ =>
    (failsWith_ok values).bind ?_
  rintro _ ⟨⟩
  rw [h.checkEnumeration, henum]
  exact failsWith_ok _

/-- A union has no numbers, so its base accepts what it accepts. -/
theorem readUnion (h : type.DiffersInNumbers base)
    {readMember : Handle → Except Error TypedValue} {value : TypedValue}
    (hvalue : readUnion type members readMember text = .ok value) :
    readUnion base members readMember text = .ok value := by
  obtain ⟨hfirst, henum⟩ := readUnion_eq_ok.mp hvalue
  rw [← h.checkEnumeration] at henum
  exact readUnion_eq_ok.mpr ⟨hfirst, henum⟩

/-- Narrower lengths and digits make a narrower type. -/
theorem narrows (h : type.DiffersInNumbers base)
    (hlengths : ∀ count, type.facets.checkLength count = .ok () →
      base.facets.checkLength count = .ok ())
    (hdigits : ∀ value, type.facets.AdmitsDigits value → base.facets.AdmitsDigits value) :
    type.Narrows base := by
  refine ⟨h.variety, h.whiteSpace, ?_, hlengths, hdigits, ?_, ?_⟩
  · rw [h.rule]
    exact LexicalRule.narrows_refl _
  · intro kind bound hbound
    exact ⟨bound, (h.bounds kind).trans hbound, fun _ => id⟩
  · intro value hvalue
    rw [h.checkEnumeration, hvalue]

end SimpleType.DiffersInNumbers

namespace Graph

variable {graph : Graph}

/-- A base can only find a number exceeded in a text that is accepted by a type that differs
in numbers. -/
theorem WellFormed.failsWith_readValue_base (wf : graph.WellFormed)
    (htype : graph.simpleType? handle = some type)
    (hbase : graph.simpleType? baseHandle = some base) (h : type.DiffersInNumbers base)
    {value : TypedValue} (hvalue : graph.readValue limits bindings? handle text = .ok value) :
    FailsWith Error.IsAboutNumber (graph.readValue limits bindings? baseHandle text) := by
  rw [wf.readValue_eq htype, h.variety] at hvalue
  rw [wf.readValue_eq hbase]
  cases hvariety : base.variety with
  | atomic primitive =>
    rw [hvariety] at hvalue
    obtain ⟨atom, hatom, rfl⟩ := map_eq_ok.mp hvalue
    exact (h.failsWith_readAtom hatom).map _
  | list item =>
    rw [hvariety] at hvalue
    obtain ⟨list, hlist, rfl⟩ := map_eq_ok.mp hvalue
    exact (h.failsWith_readList hlist).map _
  | union members =>
    rw [hvariety] at hvalue
    simp only [h.readUnion hvalue]
    exact failsWith_ok _

end Graph

/-! ## Runs -/

namespace Builder

variable {steps : List Step} {builder : Builder}

/-- A restriction that states no facets but lengths and digits changes no others. -/
theorem IsRestrictionOf.facets_eq (h : IsRestrictionOf steps builder baseHandle base restriction type)
    (hstates : restriction.StatesNumbersOnly) :
    type.facets = restrictNumbers base.facets restriction := by
  obtain ⟨-, -, -, bounded, enumerated, hbounded, henumerated, heq⟩ := restrictFacets_eq_ok h.facets
  obtain rfl : restrictNumbers base.facets restriction = bounded := by
    simpa [hstates.ranges, pure, Except.pure] using hbounded
  obtain rfl : restrictNumbers base.facets restriction = enumerated := by
    simpa [hstates.enumeration, addEnumeration, pure, Except.pure] using henumerated
  rw [heq, hstates.patterns, List.append_nil]

theorem IsRestrictionOf.differsInNumbers
    (h : IsRestrictionOf steps builder baseHandle base restriction type)
    (hstates : restriction.StatesNumbersOnly) : type.DiffersInNumbers base := by
  have hfacets := h.facets_eq hstates
  refine ⟨h.variety, h.rule, ?_, fun kind => ?_, ?_⟩
  · rw [h.whiteSpace, hstates.whiteSpace, Option.none_or]
  · rw [hfacets]
    cases kind <;> rfl
  · rw [hfacets]
    rfl

/-- Take a step of a run that restricts a base by lengths and digits alone, and a text that
the new type accepts. If the base rejects it, then for a length or for digits. If no stated
number is wider than those in force on the base, the base accepts it. -/
theorem run_restriction_numbers
    (hmakes : Makes steps builder (.restriction baseHandle restriction) (.simpleType type))
    (hstates : restriction.StatesNumbersOnly)
    (hbase : (start.run steps).graph.simpleType? baseHandle = some base)
    (h : (start.run steps).graph.isValid limits bindings? builder.graph.next text = true) :
    (∀ error, (start.run steps).graph.validate limits bindings? baseHandle text = .error error →
      error.IsAboutNumber) ∧
    (restriction.Tightens base.facets →
      (start.run steps).graph.isValid limits bindings? baseHandle text = true) := by
  have wf := run_wellFormed steps
  obtain ⟨base', hrestriction⟩ := hmakes.exists_isRestrictionOf
  obtain rfl : base' = base :=
    Option.some.inj (hrestriction.simpleType?_base_run.symm.trans hbase)
  have hdiffers := hrestriction.differsInNumbers hstates
  obtain ⟨hlength, value, hvalue⟩ := Graph.isValid_iff.mp h
  refine ⟨?_, fun htight => ?_⟩
  · change FailsWith Error.IsAboutNumber _
    rw [Graph.validate, hlength]
    exact wf.failsWith_readValue_base hrestriction.simpleType?_next hbase hdiffers hvalue
  · have hnarrows : type.Narrows base' := by
      refine hdiffers.narrows ?_ ?_
      · rw [hrestriction.facets_eq hstates]
        exact fun _ => htight.checkLength
      · rw [hrestriction.facets_eq hstates]
        exact fun _ => htight.admitsDigits
    exact Graph.isValid_iff.mpr ⟨hlength,
      wf.readValue_of_narrows hrestriction.simpleType?_next hbase hnarrows hvalue⟩

/-- Strings of at most three characters, and a restriction of them to five. -/
def widenedLength : List Step := [
  .define (.restriction (Builtin.primitive .string).handle { maxLength := some 3 }),
  .define (.restriction ⟨45⟩ { maxLength := some 5 })]

/-- The greatest length of a restriction may be above that of its base. -/
theorem run_restriction_numbers_fails_widenedLength :
    Makes widenedLength (start.run (widenedLength.take 1))
      (.restriction ⟨45⟩ { maxLength := some 5 })
      (.simpleType ⟨none, some ⟨45⟩, .atomic .string, none, .plain,
        { whiteSpace := some .preserve, maxLength := some 5 }⟩) ∧
      (start.run (widenedLength.take 1)).graph.next = ⟨46⟩ ∧
      (start.run widenedLength).graph.isValid .standard none ⟨46⟩ "abcd" = true ∧
      (start.run widenedLength).graph.isValid .standard none ⟨45⟩ "abcd" = false := by
  refine ⟨⟨widenedLength.take 1, [], rfl, rfl, ?_⟩, ?_, ?_, ?_⟩
  all_goals decide +kernel

/-- Two to four names, then three of them. -/
def threeNames : List Step := [
  .define (.restriction Builtin.nmtokens.handle { minLength := some 2, maxLength := some 4 }),
  .define (.restriction ⟨45⟩ { length := some 3, minLength := some 1 })]

theorem run_restriction_numbers_threeNames :
    (start.run threeNames).graph.isValid .standard none ⟨46⟩ " a b  c " = true ∧
      (start.run threeNames).graph.isValid .standard none ⟨45⟩ " a b  c " = true ∧
      ∀ error, (start.run threeNames).graph.validate .standard none ⟨45⟩ " a b  c "
        = .error error → error.IsAboutNumber := by
  have hmakes : Makes threeNames (start.run (threeNames.take 1))
      (.restriction ⟨45⟩ { length := some 3, minLength := some 1 })
      (.simpleType ⟨none, some ⟨45⟩, .list Builtin.nmtoken.handle, none, .plain,
        { whiteSpace := some .collapse, length := some 3, minLength := some 1,
          maxLength := some 4 }⟩) :=
    ⟨threeNames.take 1, [], rfl, rfl, by decide +kernel⟩
  have hbase : (start.run threeNames).graph.simpleType? ⟨45⟩ = some ⟨none,
      some Builtin.nmtokens.handle, .list Builtin.nmtoken.handle, none, .plain,
      { whiteSpace := some .collapse, minLength := some 2, maxLength := some 4 }⟩ := by
    decide +kernel
  have hvalid : (start.run threeNames).graph.isValid .standard none ⟨46⟩ " a b  c " = true := by
    decide +kernel
  have htight : Restriction.Tightens { length := some 3, minLength := some 1 }
      { whiteSpace := some .collapse, minLength := some 2, maxLength := some 4 } := by
    refine ⟨?_, ?_, ?_, ?_, ?_⟩
    · rintro _ ⟨⟩
      rfl
    · rintro ⟨⟩
    · rintro ⟨⟩
    · rintro _ ⟨⟩
    · rintro _ ⟨⟩
  obtain ⟨herror, haccepts⟩ := run_restriction_numbers hmakes ⟨rfl, rfl, rfl, rfl⟩ hbase hvalid
  exact ⟨hvalid, haccepts htight, herror⟩

end Builder

end SimpleTypes
