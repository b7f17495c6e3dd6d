import SimpleTypes.Proofs.Number.Quotient
import SimpleTypes.Time.Duration

/-!
# Days, hours, minutes and the seconds left

What the canonical text of a duration is made of. Its parts are found by rounded
quotients, and one that is lifted leaves a rest below zero. The parts are right
unless this happens.

* `isSplit_of_nonneg`: parts that are not negative are those of the seconds.
* `isSplit_of_fewDigits`: with few enough digits they always are.
* `split_congr`: equal numbers of seconds have equal parts.
-/

namespace SimpleTypes.Duration

open Scaled

variable {seconds rest : Scaled} {units days hours minutes : Int} {perUnit : Nat}

/-! ## One unit -/

theorem perDay_isCoarse : IsCoarse perDay := ⟨4, by decide, by decide, by decide⟩

theorem perHour_isCoarse : IsCoarse perHour := ⟨3, by decide, by decide, by decide⟩

theorem perMinute_isCoarse : IsCoarse perMinute := ⟨1, by decide, by decide, by decide⟩

/-- Units that are close enough to the seconds can be taken away exactly. -/
theorem sub?_of_fits (h : |seconds.value - units * perUnit| * 10 ^ seconds.scale < bound) :
    ∃ rest, seconds.sub? ⟨units * perUnit, 0⟩ = some rest ∧
      rest.value = seconds.value - units * perUnit ∧ rest.scale ≤ seconds.scale := by
  have hvalue : (neg ⟨units * perUnit, 0⟩).value = -(units * perUnit : ℚ) := by
    rw [value_neg]
    simp [value]
  have hscale : max seconds.scale (neg ⟨units * perUnit, 0⟩).scale = seconds.scale :=
    max_eq_left (Nat.zero_le _)
  obtain ⟨rest, hrest, hsum, hle⟩ := add?_of_fits (a := seconds) (b := neg ⟨units * perUnit, 0⟩)
    (by rwa [hvalue, hscale, ← sub_eq_add_neg])
  rw [hvalue, ← sub_eq_add_neg] at hsum
  exact ⟨rest, hrest, hsum, hle.trans hscale.le⟩

/-- What is left then. -/
theorem remainder_eq (h : |seconds.value - units * perUnit| * 10 ^ seconds.scale < bound) :
    (remainder seconds units perUnit).value = seconds.value - units * perUnit ∧
      (remainder seconds units perUnit).scale ≤ seconds.scale := by
  obtain ⟨rest, hrest, hleft⟩ := sub?_of_fits h
  rwa [remainder, hrest, Option.getD_some]

/-- What the whole units of some seconds leave. -/
theorem remainder_spec (h : seconds.IsMagnitude) (hperUnit : IsCoarse perUnit)
    (hunits : seconds.wholeQuotient perUnit = units)
    (hrest : remainder seconds units perUnit = rest) :
    0 ≤ units ∧ rest.value = seconds.value - units * perUnit ∧ rest.value < perUnit ∧
      rest.scale ≤ seconds.scale := by
  obtain ⟨hnonneg, hlt, hexact⟩ := h.wholeQuotient_spec hperUnit
  rw [hunits] at hnonneg hlt hexact
  obtain ⟨hvalue, hscale⟩ := remainder_eq hexact
  rw [hrest] at hvalue hscale
  exact ⟨hnonneg, hvalue, by linarith, hscale⟩

/-- A rest that is not negative is no larger than what it is left of. -/
theorem remainder_isMagnitude (h : seconds.IsMagnitude) (hperUnit : IsCoarse perUnit)
    (hunits : seconds.wholeQuotient perUnit = units)
    (hrest : remainder seconds units perUnit = rest) (hnonneg : 0 ≤ rest.coefficient) :
    rest.IsMagnitude ∧ rest.value ≤ seconds.value := by
  obtain ⟨hunitsNonneg, hvalue, -, hscale⟩ := remainder_spec h hperUnit hunits hrest
  have hproduct : (0 : ℚ) ≤ units * perUnit :=
    mul_nonneg (mod_cast hunitsNonneg) (Nat.cast_nonneg perUnit)
  have hle : rest.value ≤ seconds.value := by linarith
  exact ⟨⟨hnonneg, (coefficient_le h.value_nonneg hle hscale).trans_lt h.lt,
    hscale.trans h.scale⟩, hle⟩

/-- Seconds below zero stay as they are: there is no unit in them that could be taken
away. -/
theorem remainder_of_neg (h : seconds.coefficient < 0)
    (hunits : seconds.wholeQuotient perUnit = units) (hnonneg : 0 ≤ units) :
    remainder seconds units perUnit = seconds := by
  obtain rfl : units = 0 := le_antisymm (hunits ▸ wholeQuotient_nonpos h perUnit) hnonneg
  simp [remainder, sub?, add?, isZero, neg, h.ne]

/-- A negative rest is never made up for. -/
theorem coefficient_nonneg_of_remainder (hunits : seconds.wholeQuotient perUnit = units)
    (hunitsNonneg : 0 ≤ units) (hrest : remainder seconds units perUnit = rest)
    (hnonneg : 0 ≤ rest.coefficient) : 0 ≤ seconds.coefficient := by
  by_contra hneg
  rw [remainder_of_neg (not_le.mp hneg) hunits hunitsNonneg] at hrest
  rw [hrest] at hneg
  exact hneg hnonneg

/-! ## All parts -/

/-- Whether days, hours, minutes and a rest are those of some seconds. -/
structure IsSplit (seconds : Scaled) (days hours minutes : Int) (rest : Scaled) : Prop where
  total : days * 86400 + hours * 3600 + minutes * 60 + rest.value = seconds.value
  days : 0 ≤ days
  hours : 0 ≤ hours ∧ hours < 24
  minutes : 0 ≤ minutes ∧ minutes < 60
  rest : 0 ≤ rest.value ∧ rest.value < 60

theorem exists_split (seconds : Scaled) :
    ∃ days hours minutes rest, split seconds = (days, hours, minutes, rest) := ⟨_, _, _, _, rfl⟩

/-- The steps of a split, one after the other. -/
theorem split_eq (h : split seconds = (days, hours, minutes, rest)) :
    ∃ afterDays afterHours, seconds.wholeQuotient perDay = days ∧
      remainder seconds days perDay = afterDays ∧
      afterDays.wholeQuotient perHour = hours ∧
      remainder afterDays hours perHour = afterHours ∧
      afterHours.wholeQuotient perMinute = minutes ∧
      remainder afterHours minutes perMinute = rest := by
  simp only [split, Prod.mk.injEq] at h
  obtain ⟨rfl, rfl, rfl, rfl⟩ := h
  exact ⟨_, _, rfl, rfl, rfl, rfl, rfl, rfl⟩

/-- Parts that are not negative are those of the seconds. -/
theorem isSplit_of_nonneg (h : seconds.IsMagnitude)
    (hsplit : split seconds = (days, hours, minutes, rest)) (hhours : 0 ≤ hours)
    (hminutes : 0 ≤ minutes) (hrest : 0 ≤ rest.coefficient) :
    IsSplit seconds days hours minutes rest ∧ rest.IsMagnitude ∧ rest.scale ≤ seconds.scale := by
  obtain ⟨afterDays, afterHours, hunits₁, hleft₁, hunits₂, hleft₂, hunits₃, hleft₃⟩ :=
    split_eq hsplit
  -- Signs are handed back from the rest to the days, and sizes on from the days to the rest.
  have hafterHours := coefficient_nonneg_of_remainder hunits₃ hminutes hleft₃ hrest
  have hafterDays := coefficient_nonneg_of_remainder hunits₂ hhours hleft₂ hafterHours
  obtain ⟨h₁, -⟩ := remainder_isMagnitude h perDay_isCoarse hunits₁ hleft₁ hafterDays
  obtain ⟨h₂, -⟩ := remainder_isMagnitude h₁ perHour_isCoarse hunits₂ hleft₂ hafterHours
  obtain ⟨h₃, -⟩ := remainder_isMagnitude h₂ perMinute_isCoarse hunits₃ hleft₃ hrest
  obtain ⟨hdays, hvalue₁, hlt₁, hscale₁⟩ := remainder_spec h perDay_isCoarse hunits₁ hleft₁
  obtain ⟨-, hvalue₂, hlt₂, hscale₂⟩ := remainder_spec h₁ perHour_isCoarse hunits₂ hleft₂
  obtain ⟨-, hvalue₃, hlt₃, hscale₃⟩ := remainder_spec h₂ perMinute_isCoarse hunits₃ hleft₃
  simp only [perDay, perHour, perMinute, Nat.cast_ofNat] at hvalue₁ hlt₁ hvalue₂ hlt₂ hvalue₃ hlt₃
  have hhoursLt : (hours : ℚ) < 24 := by linarith [h₂.value_nonneg]
  have hminutesLt : (minutes : ℚ) < 60 := by linarith [h₃.value_nonneg]
  exact ⟨⟨by linarith, hdays, ⟨hhours, mod_cast hhoursLt⟩, ⟨hminutes, mod_cast hminutesLt⟩,
    h₃.value_nonneg, hlt₃⟩, h₃, hscale₃.trans (hscale₂.trans hscale₁)⟩

/-! ## Few digits -/

/-- Seconds of few enough digits for the quotients by all units. -/
structure IsShort (seconds : Scaled) : Prop extends IsMagnitude seconds where
  scale_le : seconds.scale ≤ 23
  coefficient_lt : seconds.coefficient < 10 ^ 28

theorem IsShort.remainder (h : IsShort seconds) (hperUnit : IsCoarse perUnit)
    (hunits : seconds.wholeQuotient perUnit = units)
    (hrest : remainder seconds units perUnit = rest) {digits : Nat} (hdigits : digits ≤ 5)
    (hfew : perUnit < 2 * 10 ^ digits) (hmany : 10 ^ digits ≤ 3 * perUnit) :
    0 ≤ units ∧ IsShort rest := by
  obtain ⟨hnonneg, hvalue, -, hscale⟩ := remainder_spec h.toIsMagnitude hperUnit hunits hrest
  have hsmall := h.coefficient_lt
  have hbound : 3 * seconds.coefficient < bound := by
    simp only [bound]
    omega
  have hle := h.toIsMagnitude.wholeQuotient_mul_le hfew hmany
    ((Nat.add_le_add h.scale_le hdigits).trans (by decide)) hbound
  rw [hunits] at hle
  have hrestNonneg : 0 ≤ rest.coefficient := value_nonneg_iff.mp (by linarith)
  obtain ⟨hmagnitude, hrestLe⟩ :=
    remainder_isMagnitude h.toIsMagnitude hperUnit hunits hrest hrestNonneg
  exact ⟨hnonneg, hmagnitude, hscale.trans h.scale_le,
    (coefficient_le h.value_nonneg hrestLe hscale).trans_lt hsmall⟩

/-- Seconds with at most 23 fractional digits, and 28 digits in all, have no
quotient that is lifted. -/
theorem isSplit_of_fewDigits (h : IsShort seconds)
    (hsplit : split seconds = (days, hours, minutes, rest)) :
    IsSplit seconds days hours minutes rest := by
  obtain ⟨afterDays, afterHours, hunits₁, hleft₁, hunits₂, hleft₂, hunits₃, hleft₃⟩ :=
    split_eq hsplit
  obtain ⟨-, h₁⟩ := h.remainder perDay_isCoarse hunits₁ hleft₁ (le_refl 5) (by decide) (by decide)
  obtain ⟨hhours, h₂⟩ := h₁.remainder perHour_isCoarse hunits₂ hleft₂
    (by decide : 4 ≤ 5) (by decide) (by decide)
  obtain ⟨hminutes, h₃⟩ := h₂.remainder perMinute_isCoarse hunits₃ hleft₃
    (by decide : 2 ≤ 5) (by decide) (by decide)
  exact (isSplit_of_nonneg h.toIsMagnitude hsplit hhours hminutes h₃.nonneg).1

/-! ## Equal numbers -/

theorem remainder_congr {a b : Scaled} (h : a.value = b.value) (units : Int) (perUnit : Nat) :
    (remainder a units perUnit).value = (remainder b units perUnit).value := by
  have hsum : (a.sub? ⟨units * perUnit, 0⟩).map value
      = (b.sub? ⟨units * perUnit, 0⟩).map value := by
    rw [sub?, sub?, value_add?_comm, value_add?_congr _ h, value_add?_comm]
  rw [remainder, remainder]
  cases ha : a.sub? ⟨units * perUnit, 0⟩ <;> cases hb : b.sub? ⟨units * perUnit, 0⟩ <;>
    simp_all

/-- Equal numbers of seconds have the same days, hours and minutes, and what is left of
them is equal. -/
theorem split_congr {a b : Scaled} (h : a.value = b.value)
    (hsplit : split a = (days, hours, minutes, rest)) :
    ∃ rest', split b = (days, hours, minutes, rest') ∧ rest'.value = rest.value := by
  obtain ⟨afterDays, afterHours, hunits₁, rfl, hunits₂, rfl, hunits₃, rfl⟩ := split_eq hsplit
  have h₁ := remainder_congr h.symm days perDay
  have h₂ := remainder_congr h₁ hours perHour
  have h₃ := remainder_congr h₂ minutes perMinute
  rw [wholeQuotient_congr h] at hunits₁
  rw [← wholeQuotient_congr h₁] at hunits₂
  rw [← wholeQuotient_congr h₂] at hunits₃
  refine ⟨_, ?_, h₃⟩
  simp only [split, hunits₁, hunits₂, hunits₃]

end SimpleTypes.Duration
