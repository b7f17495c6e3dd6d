import SimpleTypes.Proofs.Number.Fraction
import SimpleTypes.Proofs.Number.Magnitude

/-!
# Exact numbers

Rounding loses nothing of a number that can be held at some scale, however many zeros are
written after its digits, and however fine the numbers are that it is the sum of.

* `IsRepresentable`: whether a number can be held.
* `add?_of_isRepresentable`: a sum that can be held is exact.
* `ofDigits?_of_isRepresentable`: so is the number of digits.
* `ofDigits?_isSome`: a numeral of a small whole part is never refused.
-/

namespace SimpleTypes.Scaled

/-- Whether some coefficient and some scale make up a number. -/
def IsRepresentable (x : ℚ) : Prop :=
  ∃ coefficient < bound, ∃ scale ≤ maxScale, x = (coefficient : ℚ) / 10 ^ scale

theorem isRepresentable_natCast {n : Nat} (h : n < bound) : IsRepresentable n :=
  ⟨n, h, 0, Nat.zero_le _, by rw [pow_zero, div_one]⟩

theorem IsRepresentable.lt {x : ℚ} (h : IsRepresentable x) : x < bound := by
  obtain ⟨coefficient, hlt, scale, -, rfl⟩ := h
  have hlt : (coefficient : ℚ) < bound := mod_cast hlt
  refine (div_le_self (Nat.cast_nonneg _) ?_).trans_lt hlt
  exact one_le_pow₀ (by norm_num)

/-- What is left of a number without some of its whole units can be held as well. -/
theorem IsRepresentable.of_natCast_add {n : Nat} {x : ℚ} (hx : 0 ≤ x)
    (h : IsRepresentable (n + x)) : IsRepresentable x := by
  obtain ⟨coefficient, hlt, scale, hscale, heq⟩ := h
  have hpow : (0 : ℚ) < 10 ^ scale := by positivity
  have hsplit : (coefficient : ℚ) = (n * 10 ^ scale : Nat) + x * 10 ^ scale := by
    rw [← div_mul_cancel₀ (coefficient : ℚ) hpow.ne', ← heq]
    push_cast
    ring
  have hle : n * 10 ^ scale ≤ coefficient := by
    have : ((n * 10 ^ scale : Nat) : ℚ) ≤ coefficient := by
      rw [hsplit]
      exact le_add_of_nonneg_right (by positivity)
    exact_mod_cast this
  refine ⟨coefficient - n * 10 ^ scale, (Nat.sub_le _ _).trans_lt hlt, scale, hscale, ?_⟩
  rw [Nat.cast_sub hle, hsplit, add_sub_cancel_left, mul_div_cancel_right₀ _ hpow.ne']

/-! ## Sums -/

/-- A sum that can be held is exact. -/
theorem add?_of_isRepresentable {a b : Scaled} (h : IsRepresentable (a.value + b.value)) :
    ∃ c, a.add? b = some c ∧ c.value = a.value + b.value := by
  obtain ⟨coefficient, hlt, scale, -, heq⟩ := h
  have hlt' : (coefficient : ℚ) < bound := mod_cast hlt
  rcases Nat.lt_or_ge (max a.scale b.scale) scale with hcoarse | hfine
  · have hpow : (10 : ℚ) ^ max a.scale b.scale ≤ 10 ^ scale :=
      pow_le_pow_right₀ (by norm_num) hcoarse.le
    have hfits : |a.value + b.value| * 10 ^ max a.scale b.scale < bound := by
      rw [heq, abs_of_nonneg (by positivity)]
      calc (coefficient : ℚ) / 10 ^ scale * 10 ^ max a.scale b.scale
          ≤ coefficient / 10 ^ scale * 10 ^ scale := by gcongr
        _ = coefficient := div_mul_cancel₀ _ (by positivity)
        _ < bound := hlt'
    obtain ⟨c, hc, hvalue, -⟩ := add?_of_fits hfits
    exact ⟨c, hc, hvalue⟩
  · rw [add?]
    split
    case isTrue hzero => exact ⟨b, rfl, by rw [isZero_iff.mp hzero, zero_add]⟩
    case isFalse =>
      split
      case isTrue hzero => exact ⟨a, rfl, by rw [isZero_iff.mp hzero, add_zero]⟩
      case isFalse =>
        -- At the larger scale the coefficient only has more zeros at its end.
        have hsum := sum_at (le_max_left a.scale b.scale) (le_max_right a.scale b.scale)
        have hcut := value_fit?_congr (n := coefficient) hfine
          (by rw [hsum, heq, Int.cast_natCast])
        rw [Int.natAbs_natCast, fit?_of_lt hlt, Option.map_some, eq_comm,
          Option.map_eq_some_iff] at hcut
        obtain ⟨c, hc, hvalue⟩ := hcut
        refine ⟨c, hc, ?_⟩
        rw [hvalue, value_ofMagnitude, heq]
        simp

/-! ## Digits -/

variable {fraction : List Char} {n scale : Nat}

/-- Digits that add nothing but a whole number are zeros. -/
theorem fractionValue_eq_zero (hdigits : ∀ c ∈ fraction, c.isDigit = true) {m : Nat}
    (h : n + fractionValue fraction = m) : fractionValue fraction = 0 := by
  have hlow := fractionValue_nonneg fraction
  have hhigh := fractionValue_lt_one hdigits
  have hge : (n : ℚ) ≤ m := by linarith
  have hle : (m : ℚ) < (n + 1 : Nat) := by
    push_cast
    linarith
  have heq : m = n := by
    have := Nat.cast_le.mp hge
    have := Nat.cast_lt.mp hle
    omega
  rw [heq] at h
  linarith

/-- Digits of which only zeros do not fit are exact. -/
theorem appendFraction_of_eq (hdigits : ∀ c ∈ fraction, c.isDigit = true) (hn : n < bound)
    (hscale : scale ≤ maxScale) {m fine : Nat} (hm : m < bound) (hfine : fine ≤ maxScale)
    (h : (n + fractionValue fraction) / 10 ^ scale = (m : ℚ) / 10 ^ fine) :
    ∃ a, appendFraction n scale fraction = some a ∧ a.value = m / 10 ^ fine := by
  induction fraction generalizing n scale with
  | nil =>
    rw [fractionValue_nil, add_zero] at h
    exact ⟨⟨n, scale⟩, rfl, by rw [← h, value, Int.cast_natCast]⟩
  | cons d rest ih =>
    obtain ⟨-, hrest⟩ := List.forall_mem_cons.mp hdigits
    have hcons := fractionValue_cons d rest
    rw [← natOfDigits_singleton] at hcons
    rw [appendFraction]
    split
    case isTrue hfits =>
      refine ih hrest hfits.2 hfits.1 ?_
      rw [← h, hcons, pow_succ', ← div_div]
      push_cast
      ring
    case isFalse hfull =>
      have hnonneg := fractionValue_nonneg rest
      have hpow : (0 : ℚ) < 10 ^ scale := by positivity
      have hcoarse : fine ≤ scale := by
        by_contra hgt
        refine hfull ⟨by omega, ?_⟩
        have hstep : (10 : ℚ) ^ (scale + 1) ≤ 10 ^ fine :=
          pow_le_pow_right₀ (by norm_num) (by omega)
        have hle : ((n * 10 + natOfDigits [d] : Nat) : ℚ) ≤ m := by
          calc ((n * 10 + natOfDigits [d] : Nat) : ℚ)
              ≤ (n + fractionValue (d :: rest)) / 10 ^ scale * 10 ^ (scale + 1) := by
                rw [hcons, pow_succ, ← mul_assoc, div_mul_cancel₀ _ hpow.ne']
                push_cast
                linarith
            _ = m / 10 ^ fine * 10 ^ (scale + 1) := by rw [h]
            _ ≤ m / 10 ^ fine * 10 ^ fine := by gcongr
            _ = m := div_mul_cancel₀ _ (by positivity)
        exact (Nat.cast_le.mp hle).trans_lt hm
      -- At this scale the number is whole, so the digits that are left are zeros.
      have hwhole : n + fractionValue (d :: rest) = (m * 10 ^ (scale - fine) : Nat) := by
        have hsplit : (10 : ℚ) ^ scale = 10 ^ (scale - fine) * 10 ^ fine := by
          rw [← pow_add, Nat.sub_add_cancel hcoarse]
        rw [div_eq_iff hpow.ne'] at h
        rw [h, hsplit]
        push_cast
        field_simp
      have hzero := fractionValue_eq_zero hdigits hwhole
      have hdigit : natOfDigits [d] = 0 := by
        rw [hcons, div_eq_zero_iff] at hzero
        have : ((natOfDigits [d] : Nat) : ℚ) ≤ 0 := by
          rcases hzero with hsum | hten
          · linarith
          · norm_num at hten
        exact_mod_cast le_antisymm this (Nat.cast_nonneg _)
      rw [hzero, add_zero] at h
      refine ⟨⟨n, scale⟩, ?_, by rw [← h, value, Int.cast_natCast]⟩
      simp [hdigit, hn]

/-- The number of digits that can be held is exact. -/
theorem ofDigits?_of_isRepresentable {whole : List Char}
    (hdigits : ∀ c ∈ fraction, c.isDigit = true) (hwhole : natOfDigits whole < bound)
    (h : IsRepresentable (natOfDigits whole + fractionValue fraction)) :
    ∃ a, ofDigits? whole fraction = some a ∧
      a.value = natOfDigits whole + fractionValue fraction := by
  obtain ⟨m, hm, fine, hfine, heq⟩ := h
  rw [ofDigits?, if_pos hwhole, heq]
  exact appendFraction_of_eq hdigits hwhole (Nat.zero_le _) hm hfine
    (by rw [pow_zero, div_one, heq])

/-- Digits after a number are only refused if it is the last whole number that fits. -/
theorem appendFraction_isSome (hn : n < bound) (hlast : scale = 0 → n + 1 < bound) :
    (appendFraction n scale fraction).isSome = true := by
  induction fraction generalizing n scale with
  | nil => rfl
  | cons d rest ih =>
    rw [appendFraction]
    split
    case isTrue hfits => exact ih hfits.2 fun h => absurd h (Nat.succ_ne_zero _)
    case isFalse =>
      generalize hrounded : (if 5 ≤ natOfDigits [d] then n + 1 else n) = rounded
      have hle : rounded ≤ n + 1 := by
        rw [← hrounded]
        split <;> omega
      dsimp only
      split
      case isTrue => rfl
      case isFalse hfull =>
        rw [if_neg fun hzero => hfull (hle.trans_lt (hlast hzero))]
        rfl

theorem ofDigits?_isSome {whole : List Char} (h : natOfDigits whole + 1 < bound) :
    (ofDigits? whole fraction).isSome = true := by
  rw [ofDigits?, if_pos (by omega)]
  exact appendFraction_isSome (by omega) fun _ => h

end SimpleTypes.Scaled
