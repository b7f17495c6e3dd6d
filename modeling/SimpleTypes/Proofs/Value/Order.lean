import Mathlib.Data.List.Forall2
import SimpleTypes.Facet.Set
import SimpleTypes.Proofs.Number.Scaled
import SimpleTypes.Proofs.Time.DayNumber

/-!
# Orders and equalities of values

Whatever the primitive type, the relations of the four bounds are transitive,
and so is equality. Not all values of a type have an order: a sequence of
relations that hold also gives the order of its ends.

* `Native.isTransitive`: relations of native values, primitive type by primitive
  type.
* `Bound.admits_trans`: a bound that is admitted by another admits only what the
  other admits.
* `TypedValue.valueEq_trans`: equality of atoms and lists.
-/

namespace SimpleTypes

/-! ## Relations -/

/-- Whether a relation of two values, given by their order, is transitive in all
orders. -/
def Composes (holds : Ordering → Bool) : Prop :=
  ∀ {α : Type} (cmp : α → α → Ordering) [Std.TransCmp cmp] {a b c : α},
    holds (cmp a b) = true → holds (cmp b c) = true → holds (cmp a c) = true

theorem composes_eq : Composes (· == .eq) := by
  intro α cmp _ a b c hab hbc
  simp only [beq_iff_eq] at hab hbc ⊢
  exact Std.TransCmp.eq_trans hab hbc

/-- The relations of the bounds are transitive. -/
theorem RangeKind.composes (kind : RangeKind) : Composes kind.accepts := by
  intro α cmp _ a b c hab hbc
  cases kind with
  | minInclusive =>
    simp only [accepts, bne_iff_ne, ← Ordering.isGE_iff_ne_lt] at hab hbc ⊢
    exact Std.TransCmp.isGE_trans hab hbc
  | maxInclusive =>
    simp only [accepts, bne_iff_ne, ← Ordering.isLE_iff_ne_gt] at hab hbc ⊢
    exact Std.TransCmp.isLE_trans hab hbc
  | minExclusive =>
    simp only [accepts, beq_iff_eq] at hab hbc ⊢
    exact Std.TransCmp.gt_trans hab hbc
  | maxExclusive =>
    simp only [accepts, beq_iff_eq] at hab hbc ⊢
    exact Std.TransCmp.lt_trans hab hbc

theorem composes_beq (order : Ordering) : Composes (· == order) := by
  cases order with
  | lt => exact RangeKind.composes .maxExclusive
  | eq => exact composes_eq
  | gt => exact RangeKind.composes .minExclusive

theorem composes_isLE : Composes Ordering.isLE := fun _ _ => Std.TransCmp.isLE_trans

/-- Whether every such relation is transitive in an order that some pairs do not
have. -/
structure IsTransitive {α : Type} (order? : α → α → Option Ordering) : Prop where
  trans {holds : Ordering → Bool} (hcomposes : Composes holds) {a b c : α}
    (hab : (order? a b).any holds = true) (hbc : (order? b c).any holds = true) :
    (order? a c).any holds = true

section IsTransitive

variable {α β : Type}

/-- Each of the three orders of a pair is passed on. -/
theorem IsTransitive.order_trans {order? : α → α → Option Ordering} (h : IsTransitive order?)
    {order : Ordering} {a b c : α} (hab : order? a b = some order)
    (hbc : order? b c = some order) : order? a c = some order := by
  have hac : (order? a c).any (· == order) = true :=
    h.trans (composes_beq order) (b := b) (by simp [hab]) (by simp [hbc])
  cases horder : order? a c with
  | none => simp [horder] at hac
  | some order => simpa [horder] using hac

theorem IsTransitive.eq_trans {order? : α → α → Option Ordering} (h : IsTransitive order?)
    {a b c : α} (hab : order? a b = some .eq) (hbc : order? b c = some .eq) :
    order? a c = some .eq :=
  h.order_trans hab hbc

theorem isTransitive_some (cmp : α → α → Ordering) [Std.TransCmp cmp] :
    IsTransitive fun a b => some (cmp a b) :=
  ⟨fun hcomposes _ _ _ => hcomposes cmp⟩

/-- An order of the elements with equal tags. -/
theorem isTransitive_tagged {τ : Type} [DecidableEq τ] (tag : α → τ) (cmp : α → α → Ordering)
    [Std.TransCmp cmp] :
    IsTransitive fun a b => if tag a = tag b then some (cmp a b) else none := by
  refine ⟨?_⟩
  intro holds hcomposes a b c hab hbc
  split at hab
  case isFalse => cases hab
  case isTrue htag =>
    split at hbc
    case isFalse => cases hbc
    case isTrue htag' =>
      rw [if_pos (htag.trans htag')]
      exact hcomposes cmp hab hbc

/-- An order by keys that some elements do not have. -/
theorem IsTransitive.on {order? : β → β → Option Ordering} (h : IsTransitive order?)
    (key? : α → Option β) :
    IsTransitive fun a b => (key? a).bind fun x => (key? b).bind fun y => order? x y := by
  refine ⟨?_⟩
  intro holds hcomposes a b c hab hbc
  cases hx : key? a with
  | none => simp [hx] at hab
  | some x =>
    cases hy : key? b with
    | none => simp [hy] at hbc
    | some y =>
      cases hz : key? c with
      | none => simp [hz] at hbc
      | some z =>
        simp only [hx, hy, hz, Option.bind_some] at hab hbc ⊢
        exact h.trans hcomposes hab hbc

end IsTransitive

/-! ## Decimals -/

namespace Decimal

instance : Std.TransCmp orderMagnitude :=
  inferInstanceAs (Std.TransCmp (compareLex (compareOn fun a : Decimal => a.whole.length)
    (compareLex (compareOn whole) (compareOn fraction))))

/-- Below zero the magnitudes count the other way round. -/
instance : Std.TransCmp order where
  eq_swap {a b} := by
    cases ha : a.negative <;> cases hb : b.negative <;> simp only [order, ha, hb]
    · exact Std.OrientedCmp.eq_swap
    · rfl
    · rfl
    · exact Std.OrientedCmp.eq_swap
  isLE_trans {a b c} hab hbc := by
    cases ha : a.negative <;> cases hb : b.negative <;> cases hc : c.negative <;>
      simp only [order, ha, hb, hc] at hab hbc ⊢
    case false.false.false => exact Std.TransCmp.isLE_trans hab hbc
    case true.true.true => exact Std.TransCmp.isLE_trans hbc hab
    case false.false.true | true.false.true => cases hbc
    case false.true.false | false.true.true => cases hab
    case true.false.false | true.true.false => rfl

end Decimal

/-! ## Binary floating point -/

namespace Floating

/-- The code of a number with its sign. -/
def signedCode? : Floating → Option Int
  | nan => none
  | number negative code => some (if negative then -(code : Int) else code)

/-- Numbers are compared by their codes, and nothing else is compared. -/
theorem order?_eq : order? = fun a b =>
    (signedCode? a).bind fun x => (signedCode? b).bind fun y => some (compare x y) := by
  funext a b
  cases a <;> cases b <;> rfl

theorem isTransitive : IsTransitive order? := by
  rw [order?_eq]
  exact (isTransitive_some compare).on signedCode?

theorem valueEq_trans {a b c : Floating} (hab : a.valueEq b = true) (hbc : b.valueEq c = true) :
    a.valueEq c = true := by
  cases a with
  | nan =>
    cases b with
    | nan => exact hbc
    | number => cases hab
  | number n x =>
    cases b with
    | nan => cases hab
    | number m y =>
      cases c with
      | nan => cases hbc
      | number k z => exact composes_eq compare hab hbc

end Floating

/-! ## Durations -/

namespace Duration

theorem isTransitive : IsTransitive order? :=  (isTransitive_some Scaled.order).on length?

theorem valueEq_trans {a b c : Duration} (hab : a.valueEq b = true) (hbc : b.valueEq c = true) :
    a.valueEq c = true := by
  simp only [valueEq, Bool.and_eq_true, beq_iff_eq] at hab hbc ⊢
  obtain ⟨⟨hsign, hmonths⟩, hseconds⟩ := hab
  obtain ⟨⟨hsign', hmonths'⟩, hseconds'⟩ := hbc
  exact ⟨⟨hsign.trans hsign', hmonths.trans hmonths'⟩, Std.TransCmp.eq_trans hseconds hseconds'⟩

end Duration

/-! ## Moments -/

/-- The order of fields by what they have, from the largest to the smallest. -/
def Fields.order : Fields → Fields → Ordering :=
  compareLex (compareOn year?) (compareLex (compareOn month?) (compareLex (compareOn day?)
    (compareLex (compareOn fun fields => fields.clock?.map Clock.hour)
      (compareLex (compareOn fun fields => fields.clock?.map Clock.minute)
        (compareLex (compareOn fun fields => fields.clock?.map Clock.second)
          (compareOn fun fields => fields.clock?.map Clock.fraction))))))

instance : Std.TransCmp Fields.order :=
  inferInstanceAs (Std.TransCmp (compareLex _ _))

namespace Moment

/-- Fields of one kind have an order, and no others. -/
theorem fieldsOrder?_eq (a b : Fields) :
    fieldsOrder? a b = if a.kind = b.kind then some (a.order b) else none := by
  have hsome : ∀ {α : Type} [Ord α] (x y : α), compare (some x) (some y) = compare x y :=
    fun _ _ => rfl
  cases a <;> cases b <;> simp [fieldsOrder?, Fields.kind, Fields.order, compareLex, compareOn,
    Fields.year?, Fields.month?, Fields.day?, Fields.clock?, Date.order, clockOrder, hsome,
    Ordering.then_assoc]

theorem isTransitive : IsTransitive order? := by
  have hfields : IsTransitive fieldsOrder? := by
    rw [funext₂ fieldsOrder?_eq]
    exact isTransitive_tagged Fields.kind Fields.order
  exact hfields.on utc?

theorem kind_of_utc? {moment : Moment} {fields : Fields} (h : moment.utc? = some fields) :
    fields.kind = moment.kind := by
  obtain ⟨old, zone⟩ := moment
  cases zone with
  | none =>
    obtain rfl : old = fields := by simpa [utc?] using h
    rfl
  | some offset =>
    cases old with
    | dateTime date clock =>
      obtain ⟨shown, hshown, rfl⟩ := Option.map_eq_some_iff.mp h
      obtain ⟨moved, -, rfl⟩ := Option.map_eq_some_iff.mp hshown
      rfl
    | _ =>
      obtain rfl := by simpa [utc?] using h
      rfl

/-- Moments that have an order are of one kind. -/
theorem kind_eq_of_order? {a b : Moment} {order : Ordering} (h : a.order? b = some order) :
    a.kind = b.kind := by
  obtain ⟨x, hx, h⟩ := Option.bind_eq_some_iff.mp h
  obtain ⟨y, hy, h⟩ := Option.bind_eq_some_iff.mp h
  rw [fieldsOrder?_eq] at h
  split at h
  case isTrue hkind => rw [← kind_of_utc? hx, ← kind_of_utc? hy, hkind]
  case isFalse => cases h

theorem valueEq_trans {a b c : Moment} (hab : a.valueEq b = true) (hbc : b.valueEq c = true) :
    a.valueEq c = true := by
  simp only [valueEq, Bool.and_eq_true, Bool.or_eq_true, beq_iff_eq] at hab hbc ⊢
  obtain ⟨⟨hsome, hzone⟩, horder⟩ := hab
  obtain ⟨⟨hsome', hzone'⟩, horder'⟩ := hbc
  refine ⟨⟨hsome.trans hsome', ?_⟩, isTransitive.eq_trans horder horder'⟩
  -- Whether zones count depends on the kind, and the order keeps to one kind.
  rcases hzone with hclock | hzone
  · exact .inl hclock
  · rcases hzone' with hclock | hzone'
    · exact .inl (by rw [kind_eq_of_order? horder, hclock])
    · exact .inr (hzone.trans hzone')

end Moment

/-! ## Native values -/

theorem QNameValue.valueEq_trans {a b c : QNameValue} (hab : a.valueEq b = true)
    (hbc : b.valueEq c = true) : a.valueEq c = true := by
  simp only [valueEq, Bool.and_eq_true, beq_iff_eq] at hab hbc ⊢
  exact ⟨hab.1.trans hbc.1, hab.2.trans hbc.2⟩

namespace Native

/-- The relations of the bounds are transitive on the values of each primitive
type. Values of different types have no order. -/
theorem isTransitive : IsTransitive order? := by
  refine ⟨?_⟩
  intro holds hcomposes a b c hab hbc
  -- Only values of one sort have an order, so five triples are left.
  cases a <;> cases b <;> simp only [order?, Option.any_none, Bool.false_eq_true] at hab
  all_goals cases c <;> simp only [order?, Option.any_none, Bool.false_eq_true] at hbc ⊢
  case decimal.decimal.decimal x y z => exact hcomposes Decimal.order hab hbc
  case float.float.float x y z => exact Floating.isTransitive.trans hcomposes hab hbc
  case double.double.double x y z => exact Floating.isTransitive.trans hcomposes hab hbc
  case duration.duration.duration x y z => exact Duration.isTransitive.trans hcomposes hab hbc
  case moment.moment.moment x y z => exact Moment.isTransitive.trans hcomposes hab hbc

theorem valueEq_trans {a b c : Native} (hab : a.valueEq b = true) (hbc : b.valueEq c = true) :
    a.valueEq c = true := by
  cases a <;> cases b <;> simp only [valueEq, Bool.false_eq_true] at hab
  all_goals cases c <;> simp only [valueEq, Bool.false_eq_true] at hbc ⊢
  case string.string.string | boolean.boolean.boolean | octets.octets.octets =>
    rw [beq_iff_eq] at hab hbc ⊢
    exact hab.trans hbc
  case decimal.decimal.decimal x y z => exact composes_eq Decimal.order hab hbc
  case float.float.float x y z => exact Floating.valueEq_trans hab hbc
  case double.double.double x y z => exact Floating.valueEq_trans hab hbc
  case duration.duration.duration x y z => exact Duration.valueEq_trans hab hbc
  case moment.moment.moment x y z => exact Moment.valueEq_trans hab hbc
  case qName.qName.qName x y z => exact QNameValue.valueEq_trans hab hbc

end Native

/-! ## Atoms and lists -/

/-- Atoms have an order if they are of one primitive type and their values have
one. -/
theorem Atom.isTransitive : IsTransitive Atom.order? := by
  refine ⟨?_⟩
  intro holds hcomposes a b c hab hbc
  unfold order? at hab hbc ⊢
  split at hab
  case isFalse => cases hab
  case isTrue hprimitive =>
    split at hbc
    case isFalse => cases hbc
    case isTrue hprimitive' =>
      rw [if_pos (hprimitive.trans hprimitive')]
      exact Native.isTransitive.trans hcomposes hab hbc

theorem Atom.valueEq_trans {a b c : Atom} (hab : a.valueEq b = true) (hbc : b.valueEq c = true) :
    a.valueEq c = true := by
  simp only [valueEq, Bool.and_eq_true, beq_iff_eq] at hab hbc ⊢
  exact ⟨hab.1.trans hbc.1, Native.valueEq_trans hab.2 hbc.2⟩

theorem ListValue.valueEq_iff {a b : ListValue} :
    a.valueEq b = true ↔ List.Forall₂ (fun x y => x.valueEq y = true) a.items b.items := by
  rw [valueEq, Bool.and_eq_true, beq_iff_eq, List.all_eq_true, List.forall₂_iff_zip]
  exact and_congr_right fun _ => Prod.forall

theorem ListValue.valueEq_trans {a b c : ListValue} (hab : a.valueEq b = true)
    (hbc : b.valueEq c = true) : a.valueEq c = true := by
  rw [valueEq_iff] at hab hbc ⊢
  rw [List.forall₂_iff_get] at hab hbc ⊢
  obtain ⟨hlength, hab⟩ := hab
  obtain ⟨hlength', hbc⟩ := hbc
  refine ⟨hlength.trans hlength', ?_⟩
  intro i hi hi'
  exact Atom.valueEq_trans (hab i hi (by omega)) (hbc i (by omega) hi')

/-- Equality of values is transitive. -/
theorem TypedValue.valueEq_trans {v w u : TypedValue} (hvw : v.valueEq w = true)
    (hwu : w.valueEq u = true) : v.valueEq u = true := by
  cases v with
  | atomic a =>
    cases w with
    | atomic b =>
      cases u with
      | atomic c => exact Atom.valueEq_trans hvw hwu
      | list => cases hwu
    | list => cases hvw
  | list a =>
    cases w with
    | atomic => cases hvw
    | list b =>
      cases u with
      | atomic => cases hwu
      | list c => exact ListValue.valueEq_trans hvw hwu

/-! ## Bounds -/

namespace Bound

theorem admits_eq (bound : Bound) (value : Atom) :
    bound.admits value = (value.order? bound.value).any bound.kind.accepts := by
  unfold admits
  cases value.order? bound.value <;> rfl

/-- A bound that another bound of its kind admits admits only what the other
admits. -/
theorem admits_trans {bound base : Bound} {value : Atom} (hkind : bound.kind = base.kind)
    (hbase : base.admits bound.value = true) (hvalue : bound.admits value = true) :
    base.admits value = true := by
  rw [admits_eq] at hbase hvalue ⊢
  rw [hkind] at hvalue
  exact Atom.isTransitive.trans (RangeKind.composes _) hvalue hbase

end Bound

end SimpleTypes
