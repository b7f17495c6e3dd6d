import SimpleTypes.Lexical
import SimpleTypes.Proofs.Facet.Checks
import SimpleTypes.Proofs.Time.Components
import SimpleTypes.Proofs.Value.Coherence

/-!
# Durations that can be compared

The order of two durations is that of their lengths, and a duration of `2 ^ 63`
months or more has no length. The limits let a text name that many months: eighteen
digits of years reach beyond them. Seconds never stand in the way.

* `IsRead.length?_isSome_iff`: the months alone decide whether there is a length.
* `Bound.decides_iff`: a pair of complementary bounds tells on which side of it a
  value lies if and only if the two have an order.
* `order?_isSome_iff_months`: what this means for durations that were read.
-/

namespace SimpleTypes

/-! ## Bounds that decide -/

/-- The bound that admits just what a bound of this kind leaves out. -/
def RangeKind.complement : RangeKind → RangeKind
  | minInclusive => maxExclusive
  | maxInclusive => minExclusive
  | minExclusive => maxInclusive
  | maxExclusive => minInclusive

/-- Whether each kind of bound at a value has the given value on one side: it is
admitted, or else the complementary bound admits it. -/
def Bound.Decides (bound value : Atom) : Prop :=
  ∀ kind, Bound.admits ⟨RangeKind.complement kind, bound⟩ value = !Bound.admits ⟨kind, bound⟩ value

theorem RangeKind.accepts_complement (kind : RangeKind) (order : Ordering) :
    kind.complement.accepts order = !kind.accepts order := by
  cases kind <;> cases order <;> rfl

/-- Bounds decide what has an order to them. -/
theorem Bound.decides_iff {bound value : Atom} :
    Bound.Decides bound value ↔ (value.order? bound).isSome = true := by
  cases horder : value.order? bound with
  | none =>
    simp only [Decides, admits, horder, Option.isSome_none, Bool.false_eq_true, iff_false]
    exact fun h => Bool.false_ne_true (h .minInclusive)
  | some order =>
    simp only [Decides, admits, horder, Option.isSome_some, iff_true]
    exact fun kind => RangeKind.accepts_complement kind order

/-- What has an order to itself is equal to itself in it. -/
theorem Atom.order?_self {value : Atom} (h : (value.order? value).isSome = true) :
    value.order? value = some .eq := by
  obtain ⟨order, horder⟩ := Option.isSome_iff_exists.mp h
  have hswap := isOriented value value
  rw [horder, Option.map_some, Option.some.injEq] at hswap
  rw [horder]
  cases order with
  | eq => rfl
  | lt => cases hswap
  | gt => cases hswap

/-- An inclusive bound admits its own value if and only if that has an order. -/
theorem Bound.admits_self_iff {kind : RangeKind} (hinclusive : kind.accepts .eq = true)
    {value : Atom} :
    Bound.admits ⟨kind, value⟩ value = true ↔ (value.order? value).isSome = true := by
  constructor
  · intro hadmits
    cases horder : value.order? value with
    | none => simp [admits, horder] at hadmits
    | some => rfl
  · intro h
    rw [admits, Atom.order?_self h]
    exact hinclusive

/-! ## Lengths -/

namespace Duration

variable {duration a b : Duration} {limits limits' : Limits} {width : Nat}

/-- Whether a duration is read from some text under some limits. -/
def IsAccepted (limits : Limits) (duration : Duration) : Prop :=
  ∃ (rule : LexicalRule) (text : String) (bindings? : Option Bindings),
    readAtomic .duration rule text bindings? limits = .ok (.duration duration)

/-- What holds of a duration that was read under some limits: no component of it
had more digits than the width. -/
structure IsRead (width : Nat) (duration : Duration) : Prop extends IsProper duration where
  months_lt : duration.months < 13 * 10 ^ width
  seconds_le : duration.seconds.value ≤ 90061 * 10 ^ width + 8

theorem IsRead.mono {width width' : Nat} (h : duration.IsRead width) (hle : width ≤ width') :
    duration.IsRead width' := by
  have hpow : 10 ^ width ≤ 10 ^ width' := Nat.pow_le_pow_right (by decide) hle
  have hpow' : (10 : ℚ) ^ width ≤ 10 ^ width' := mod_cast hpow
  have hmonths := h.months_lt
  have hseconds := h.seconds_le
  exact ⟨h.toIsProper, by omega, by linarith⟩

theorem IsAccepted.isRead (h : duration.IsAccepted limits) :
    duration.IsRead (min limits.temporalDigits Limits.temporalCeiling) := by
  obtain ⟨rule, text, bindings?, h⟩ := h
  simp only [readAtomic, map_eq_ok, readTemporal_eq_ok, Native.duration.injEq] at h
  obtain ⟨_, ⟨hwidest, hparse⟩, rfl⟩ := h
  obtain ⟨-, -, components, hfill, hmonths, hseconds⟩ := parse?_eq_some hparse
  have hread : IsRead (widestField text.toList) _ :=
    ⟨parse?_isProper hparse, totalMonths?_lt hfill hmonths,
      (totalSeconds?_eq_some hfill hseconds).2⟩
  exact hread.mono hwidest

/-- Fewer than `2 ^ 63` months are a number of seconds that fits. -/
theorem mulWhole?_perMonth {months : Nat} (h : months < 2 ^ 63) :
    (⟨months, 0⟩ : Scaled).mulWhole? perMonth = some ⟨(months * perMonth : Nat), 0⟩ := by
  have hfits : ((months * perMonth : Nat) : Int).natAbs < Scaled.bound := by
    simp only [perMonth, Scaled.bound]
    omega
  rw [Scaled.mulWhole?]
  exact if_pos hfits

/-- The months alone decide whether there is a length: the seconds that they stand
for fit, and leave enough room for the others. -/
theorem IsRead.length?_isSome_iff (h : duration.IsRead Limits.temporalCeiling) :
    duration.length?.isSome = true ↔ duration.months < 2 ^ 63 := by
  have hbound : yearBound = 9223372036854775808 := rfl
  have hvalue : duration.length?.isSome = duration.lengthValue?.isSome := by
    rw [lengthValue?, Option.isSome_map]
  rw [hvalue, lengthValue?_eq]
  split
  case isTrue hge =>
    refine iff_of_false Bool.false_ne_true ?_
    omega
  case isFalse hlt =>
    have hmonths : duration.months < 2 ^ 63 := by omega
    have hsum : ((⟨(duration.months * perMonth : Nat), 0⟩ : Scaled).add?
        duration.seconds).isSome := by
      have hmonthsLe : (duration.months : ℚ) ≤ 2 ^ 63 := mod_cast hmonths.le
      have hnonneg := h.seconds.value_nonneg
      have hle := h.seconds_le
      apply Scaled.add?_isSome
      rw [Scaled.value_natCast, abs_of_nonneg (by positivity)]
      norm_num [Limits.temporalCeiling, Scaled.bound, perMonth] at hle ⊢
      linarith
    rw [mulWhole?_perMonth hmonths, Option.bind_some, Option.isSome_map, Option.isSome_map]
    exact iff_of_true hsum hmonths

theorem order?_isSome_iff : (a.order? b).isSome = true ↔
    a.length?.isSome = true ∧ b.length?.isSome = true := by
  simp only [order?, Option.bind_eq_bind]
  cases a.length? <;> cases b.length? <;> simp

/-- A duration as an atom of a type. -/
def atom (duration : Duration) (type : Handle) : Atom := ⟨.duration duration, type, .duration⟩

/-- Two durations that were read, under whatever limits, have an order if and only
if neither has `2 ^ 63` months or more. Then and only then bounds at the one decide
the other, and an inclusive bound admits its own value. Fields of less than eighteen
digits are too narrow for so many months. -/
theorem order?_isSome_iff_months (ha : a.IsAccepted limits) (hb : b.IsAccepted limits')
    (type type' : Handle) :
    ((a.order? b).isSome = true ↔ a.months < 2 ^ 63 ∧ b.months < 2 ^ 63) ∧
      (Bound.Decides (b.atom type') (a.atom type) ↔ a.months < 2 ^ 63 ∧ b.months < 2 ^ 63) ∧
      (∀ kind : RangeKind, kind.accepts .eq = true →
        (Bound.admits ⟨kind, a.atom type⟩ (a.atom type) = true ↔ a.months < 2 ^ 63)) ∧
      (limits.temporalDigits < Limits.temporalCeiling → a.months < 2 ^ 63) := by
  have hreadA := ha.isRead.mono (min_le_right _ _)
  have hreadB := hb.isRead.mono (min_le_right _ _)
  have horder : ∀ {c : Duration}, c.IsRead Limits.temporalCeiling → ((a.order? c).isSome = true ↔
      a.months < 2 ^ 63 ∧ c.months < 2 ^ 63) := fun hc => by
    rw [order?_isSome_iff, hreadA.length?_isSome_iff, hc.length?_isSome_iff]
  refine ⟨horder hreadB, ?_, fun kind hinclusive => ?_, fun hnarrow => ?_⟩
  · rw [Bound.decides_iff]
    exact horder hreadB
  · rw [Bound.admits_self_iff hinclusive]
    exact (horder hreadA).trans and_self_iff
  · have hmonths := (ha.isRead.mono ((min_le_left _ _).trans (Nat.le_of_lt_succ hnarrow))).months_lt
    omega

/-- A day. -/
def oneDay : Duration := ⟨false, 0, ⟨86400, 0⟩⟩

/-- A month, backwards. -/
def monthAgo : Duration := ⟨true, 1, ⟨0, 0⟩⟩

theorem order?_isSome_iff_months_dayAndMonth :
    oneDay.IsAccepted .standard ∧ monthAgo.IsAccepted .strict ∧
      (oneDay.order? monthAgo).isSome = true ∧
      Bound.Decides (monthAgo.atom .absent) (oneDay.atom .absent) ∧
      Bound.admits ⟨.maxInclusive, oneDay.atom .absent⟩ (oneDay.atom .absent) = true := by
  have ha : oneDay.IsAccepted .standard := ⟨.plain, "P1D", none, by decide +kernel⟩
  have hb : monthAgo.IsAccepted .strict := ⟨.plain, "-P1M", none, by decide +kernel⟩
  obtain ⟨horder, hdecides, hself, -⟩ := order?_isSome_iff_months ha hb .absent .absent
  exact ⟨ha, hb, horder.mpr (by decide), hdecides.mpr (by decide),
    (hself .maxInclusive rfl).mpr (by decide)⟩

/-- As many years as eighteen digits can name. -/
def widestYears : Duration := ⟨false, 11999999999999999988, ⟨0, 0⟩⟩

/-- The widest years are read, but they have no order to themselves, and no
inclusive bound admits them. -/
theorem order?_widestYears :
    widestYears.IsAccepted .standard ∧ widestYears.order? widestYears = none ∧
      Bound.admits ⟨.minInclusive, widestYears.atom .absent⟩ (widestYears.atom .absent) = false ∧
      Bound.admits ⟨.maxInclusive, widestYears.atom .absent⟩ (widestYears.atom .absent)
        = false := by
  have haccepted : widestYears.IsAccepted .standard :=
    ⟨.plain, "P999999999999999999Y", none, by decide +kernel⟩
  exact ⟨haccepted, by decide +kernel, by decide +kernel, by decide +kernel⟩

end Duration

end SimpleTypes
