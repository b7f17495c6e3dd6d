import SimpleTypes.Proofs.Value.Canonical

/-!
# Coherence of equality and order

Each value space has an equality and most have an order, and the two are written
apart. This is what ties them together.

* `IsOriented`: a pair that is swapped has the swapped order, or none if it had
  none.
* `Duration.lengthValue?_congr`: equal durations have equal lengths, at whatever
  scale their seconds are held.
* `Atom.order?_congr`: equal atoms have the same order to every third one.
* `TypedValue.valueEq_symm` and `Native.valueEq_self_of_readAtomic`: equality is
  symmetric, and every native value that was read is equal to itself.
-/

namespace SimpleTypes

/-! ## Orders -/

section Orders

variable {α β : Type}

/-- Whether a pair that is swapped has the swapped order, and none if it had
none. -/
def IsOriented (order? : α → α → Option Ordering) : Prop :=
  ∀ a b, order? b a = (order? a b).map Ordering.swap

theorem isOriented_some (cmp : α → α → Ordering) [Std.OrientedCmp cmp] :
    IsOriented fun a b => some (cmp a b) :=
  fun _ _ => congrArg some Std.OrientedCmp.eq_swap

theorem isOriented_tagged {τ : Type} [DecidableEq τ] (tag : α → τ) (cmp : α → α → Ordering)
    [Std.OrientedCmp cmp] :
    IsOriented fun a b => if tag a = tag b then some (cmp a b) else none := by
  intro a b
  by_cases htag : tag a = tag b
  · simp only [htag, if_true, Option.map_some]
    exact congrArg some Std.OrientedCmp.eq_swap
  · simp only [htag, Ne.symm htag, if_false, Option.map_none]

theorem IsOriented.on {order? : β → β → Option Ordering} (h : IsOriented order?)
    (key? : α → Option β) :
    IsOriented fun a b => (key? a).bind fun x => (key? b).bind fun y => order? x y := by
  intro a b
  cases hx : key? a with
  | none => cases hy : key? b <;> simp [hx, hy]
  | some x =>
    cases hy : key? b with
    | none => simp [hx, hy]
    | some y => simpa [hx, hy] using h x y

theorem IsOriented.eq_symm {order? : α → α → Option Ordering} (h : IsOriented order?) {a b : α}
    (hab : order? a b = some .eq) : order? b a = some .eq := by
  rw [h a b, hab]
  rfl

/-- What is equal to the first of two values takes its place in their order. -/
theorem IsTransitive.order_of_eq {order? : α → α → Option Ordering} (h : IsTransitive order?)
    {a b c : α} {order : Ordering} (hba : order? b a = some .eq) (hab : order? a b = some .eq)
    (hac : order? a c = some order) : order? b c = some order := by
  -- The two inclusive relations hold of equal values, so one of them is passed on.
  have hcompose : ∀ kind : RangeKind, kind.accepts .eq = true → kind.accepts order = true →
      (order? b c).any kind.accepts = true := fun kind heq horder =>
    h.trans kind.composes (by rw [hba]; exact heq) (by rw [hac]; exact horder)
  have hstrict : order ≠ .eq → order? b c ≠ some .eq := by
    intro hne hbc
    have hac' := h.eq_trans hab hbc
    rw [hac, Option.some.injEq] at hac'
    exact hne hac'
  cases order with
  | eq => exact h.eq_trans hba hac
  | lt =>
    have hany := hcompose .maxInclusive rfl rfl
    have hne := hstrict (by decide)
    match hbc : order? b c with
    | none => simp [hbc] at hany
    | some .lt => rfl
    | some .eq => exact absurd hbc hne
    | some .gt => simp [hbc, RangeKind.accepts] at hany
  | gt =>
    have hany := hcompose .minInclusive rfl rfl
    have hne := hstrict (by decide)
    match hbc : order? b c with
    | none => simp [hbc] at hany
    | some .lt => simp [hbc, RangeKind.accepts] at hany
    | some .eq => exact absurd hbc hne
    | some .gt => rfl

/-- Values that are equal in an order have the same order to every third one. -/
theorem IsTransitive.congr {order? : α → α → Option Ordering} (htrans : IsTransitive order?)
    (horiented : IsOriented order?) {a b : α} (h : order? a b = some .eq) (c : α) :
    order? a c = order? b c := by
  have hback := horiented.eq_symm h
  refine Option.ext fun order => ?_
  exact ⟨htrans.order_of_eq hback h, htrans.order_of_eq h hback⟩

end Orders

/-! ## Decimals -/

namespace Decimal

theorem valueEq_iff {a b : Decimal} : a.valueEq b = true ↔ order a b = .eq := by
  rw [valueEq, beq_iff_eq]

theorem valueEq_symm {a b : Decimal} (h : a.valueEq b = true) : b.valueEq a = true :=
  valueEq_iff.mpr (Std.OrientedCmp.eq_symm (valueEq_iff.mp h))

end Decimal

/-! ## Binary floating point -/

namespace Floating

variable {a b : Floating}

theorem isOriented : IsOriented order? := by
  rw [order?_eq]
  exact (isOriented_some compare).on signedCode?

/-- Values that are equal are no numbers, or equal in the order. -/
theorem order?_of_valueEq (h : a.valueEq b = true) :
    (a = nan ∧ b = nan) ∨ order? a b = some .eq := by
  cases a with
  | nan =>
    cases b with
    | nan => exact .inl ⟨rfl, rfl⟩
    | number => cases h
  | number =>
    cases b with
    | nan => cases h
    | number => exact .inr (beq_iff_eq.mp h)

theorem valueEq_symm (h : a.valueEq b = true) : b.valueEq a = true := by
  rcases order?_of_valueEq h with ⟨rfl, rfl⟩ | horder
  · rfl
  · exact valueEq_of_order? (isOriented.eq_symm horder)

theorem order?_congr (h : a.valueEq b = true) (c : Floating) : order? a c = order? b c := by
  rcases order?_of_valueEq h with ⟨rfl, rfl⟩ | horder
  · rfl
  · exact isTransitive.congr isOriented horder c

end Floating

/-! ## Durations -/

namespace Duration

variable {a b : Duration}

theorem isOriented : IsOriented order? := (isOriented_some Scaled.order).on length?

theorem valueEq_iff : a.valueEq b = true ↔
    a.negative = b.negative ∧ a.months = b.months ∧ a.seconds.value = b.seconds.value := by
  simp only [valueEq, Bool.and_eq_true, beq_iff_eq, Scaled.order_eq_eq_iff, and_assoc]

theorem valueEq_symm (h : a.valueEq b = true) : b.valueEq a = true := by
  obtain ⟨hsign, hmonths, hseconds⟩ := valueEq_iff.mp h
  exact valueEq_iff.mpr ⟨hsign.symm, hmonths.symm, hseconds.symm⟩

theorem valueEq_self (a : Duration) : a.valueEq a = true := valueEq_iff.mpr ⟨rfl, rfl, rfl⟩

/-- The number of seconds of a length. -/
def lengthValue? (a : Duration) : Option ℚ := a.length?.map Scaled.value

theorem order?_eq : order? = fun a b =>
    (lengthValue? a).bind fun x => (lengthValue? b).bind fun y => some (compare x y) := by
  funext a b
  rw [order?, Scaled.order_eq, lengthValue?, lengthValue?]
  cases a.length? <;> cases b.length? <;> rfl

theorem lengthValue?_eq (a : Duration) : a.lengthValue? =
    if (yearBound : Int) ≤ a.months then none
    else ((⟨a.months, 0⟩ : Scaled).mulWhole? perMonth).bind fun months =>
      ((months.add? a.seconds).map Scaled.value).map fun total =>
        if a.negative then -total else total := by
  rw [lengthValue?, length?]
  split
  · rfl
  · cases (⟨a.months, 0⟩ : Scaled).mulWhole? perMonth with
    | none => rfl
    | some months =>
      simp only [Option.bind_eq_bind, Option.bind_some]
      cases months.add? a.seconds with
      | none => rfl
      | some total => cases a.negative <;> simp [Scaled.value_neg]

/-- Equal durations have equal lengths, or none of them has one. -/
theorem lengthValue?_congr (h : a.valueEq b = true) : a.lengthValue? = b.lengthValue? := by
  obtain ⟨hsign, hmonths, hseconds⟩ := valueEq_iff.mp h
  simp only [lengthValue?_eq, hsign, hmonths, Scaled.value_add?_congr _ hseconds]

theorem order?_congr (h : a.valueEq b = true) (c : Duration) : order? a c = order? b c := by
  rw [order?_eq]
  simp only [lengthValue?_congr h]

end Duration

/-! ## Moments -/

namespace Moment

variable {a b : Moment}

theorem isOriented : IsOriented order? := by
  have hfields : IsOriented fieldsOrder? := by
    rw [funext₂ fieldsOrder?_eq]
    exact isOriented_tagged Fields.kind Fields.order
  exact hfields.on utc?

theorem order?_of_valueEq (h : a.valueEq b = true) : order? a b = some .eq := by
  simp only [valueEq, Bool.and_eq_true, beq_iff_eq] at h
  exact h.2

theorem valueEq_symm (h : a.valueEq b = true) : b.valueEq a = true := by
  have hkind := kind_eq_of_order? (order?_of_valueEq h)
  simp only [valueEq, Bool.and_eq_true, Bool.or_eq_true, beq_iff_eq] at h ⊢
  obtain ⟨⟨hsome, hzone⟩, horder⟩ := h
  refine ⟨⟨hsome.symm, ?_⟩, isOriented.eq_symm horder⟩
  rw [← hkind]
  exact hzone.imp_right Eq.symm

theorem order?_congr (h : a.valueEq b = true) (c : Moment) : order? a c = order? b c :=
  isTransitive.congr isOriented (order?_of_valueEq h) c

end Moment

/-! ## Native values -/

theorem QNameValue.valueEq_symm {a b : QNameValue} (h : a.valueEq b = true) :
    b.valueEq a = true := by
  simp only [valueEq, Bool.and_eq_true, beq_iff_eq] at h ⊢
  exact ⟨h.1.symm, h.2.symm⟩

namespace Native

theorem isOriented : IsOriented order? := by
  intro a b
  cases a <;> cases b <;> try rfl
  case decimal.decimal x y => exact isOriented_some Decimal.order x y
  case float.float x y => exact Floating.isOriented x y
  case double.double x y => exact Floating.isOriented x y
  case duration.duration x y => exact Duration.isOriented x y
  case moment.moment x y => exact Moment.isOriented x y

theorem valueEq_symm {a b : Native} (h : a.valueEq b = true) : b.valueEq a = true := by
  cases a <;> cases b <;> simp only [valueEq, Bool.false_eq_true] at h ⊢
  case string.string | boolean.boolean | octets.octets =>
    rw [beq_iff_eq] at h ⊢
    exact h.symm
  case decimal.decimal x y => exact Decimal.valueEq_symm h
  case float.float x y => exact Floating.valueEq_symm h
  case double.double x y => exact Floating.valueEq_symm h
  case duration.duration x y => exact Duration.valueEq_symm h
  case moment.moment x y => exact Moment.valueEq_symm h
  case qName.qName x y => exact QNameValue.valueEq_symm h

/-- Equal values have the same order to every third one. Values of a sort without
an order have none. -/
theorem order?_congr {a b : Native} (h : a.valueEq b = true) (c : Native) :
    a.order? c = b.order? c := by
  cases a <;> cases b <;> simp only [valueEq, Bool.false_eq_true] at h
  case string.string | boolean.boolean | octets.octets | qName.qName => rfl
  all_goals cases c <;> try rfl
  case decimal.decimal.decimal x y z =>
    exact congrArg some (Std.TransCmp.congr_left (Decimal.valueEq_iff.mp h))
  case float.float.float x y z => exact Floating.order?_congr h z
  case double.double.double x y z => exact Floating.order?_congr h z
  case duration.duration.duration x y z => exact Duration.order?_congr h z
  case moment.moment.moment x y z => exact Moment.order?_congr h z

/-- A native value that was read is equal to itself, not a number included. -/
theorem valueEq_self_of_readAtomic {primitive : Primitive} {rule : LexicalRule} {text : String}
    {bindings? : Option Bindings} {limits : Limits} {native : Native}
    (h : readAtomic primitive rule text bindings? limits = .ok native) :
    native.valueEq native = true := by
  by_cases hprimitive : primitive = .duration
  · subst hprimitive
    obtain ⟨duration, -, rfl⟩ := map_eq_ok.mp h
    exact duration.valueEq_self
  · exact (readsBack_of_readAtomic hprimitive h).valueEq_self

end Native

/-! ## Atoms and lists -/

namespace Atom

theorem isOriented : IsOriented order? := by
  intro a b
  unfold order?
  by_cases hprimitive : a.primitive = b.primitive
  · rw [if_pos hprimitive, if_pos hprimitive.symm]
    exact Native.isOriented _ _
  · rw [if_neg hprimitive, if_neg (Ne.symm hprimitive)]
    rfl

theorem valueEq_symm {a b : Atom} (h : a.valueEq b = true) : b.valueEq a = true := by
  simp only [valueEq, Bool.and_eq_true, beq_iff_eq] at h ⊢
  exact ⟨h.1.symm, Native.valueEq_symm h.2⟩

/-- Equal atoms have the same order to every third one, or none. -/
theorem order?_congr {a b : Atom} (h : a.valueEq b = true) (c : Atom) :
    a.order? c = b.order? c := by
  simp only [valueEq, Bool.and_eq_true, beq_iff_eq] at h
  rw [order?, order?, h.1, Native.order?_congr h.2]

end Atom

theorem ListValue.valueEq_symm {a b : ListValue} (h : a.valueEq b = true) :
    b.valueEq a = true := by
  rw [valueEq_iff] at h ⊢
  exact (h.imp fun _ _ => Atom.valueEq_symm).flip

/-- Equality of values is symmetric. -/
theorem TypedValue.valueEq_symm {v w : TypedValue} (h : v.valueEq w = true) :
    w.valueEq v = true := by
  cases v with
  | atomic a =>
    cases w with
    | atomic b => exact Atom.valueEq_symm h
    | list => cases h
  | list a =>
    cases w with
    | atomic => cases h
    | list b => exact ListValue.valueEq_symm h

/-- A value is equal to itself if its atoms are. -/
theorem TypedValue.valueEq_self {v : TypedValue} (h : ∀ atom ∈ v.atoms, atom.valueEq atom = true) :
    v.valueEq v = true := by
  cases v with
  | atomic a => exact h a (List.mem_singleton_self a)
  | list a => exact ListValue.valueEq_self h

end SimpleTypes
