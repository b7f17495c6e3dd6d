import Mathlib.Tactic.FieldSimp
import Mathlib.Tactic.Linarith
import Mathlib.Tactic.Ring
import SimpleTypes.Number.Scaled

/-!
# Scaled decimals as numbers

A scaled decimal stands for a rational number, and every number has many scaled
decimals. Orders and sums depend on the numbers alone.

* `order_eq`: the order is that of the numbers.
* `value_fit?_congr`: a magnitude with more zeros at its end is cut to the same
  number.
* `value_add?_congr`: sums of equal numbers are equal, or fail alike.
-/

namespace SimpleTypes.Scaled

/-! ## Order -/

/-- The number that a scaled decimal stands for. -/
def value (a : Scaled) : ℚ := a.coefficient / 10 ^ a.scale

theorem order_eq : order = compareOn value := by
  have hlt : ∀ a b : Scaled, a.coefficient * Nat.pow 10 b.scale < b.coefficient * Nat.pow 10 a.scale
      ↔ a.value < b.value := by
    intro a b
    rw [value, value, div_lt_div_iff₀ (by positivity) (by positivity)]
    exact_mod_cast Iff.rfl
  funext a b
  rcases lt_trichotomy a.value b.value with h | h | h
  · rw [order, compareOn, compare_lt_iff_lt.mpr h, compare_lt_iff_lt.mpr ((hlt a b).mpr h)]
  · have hle : ¬ a.value < b.value := h.not_lt
    have hge : ¬ b.value < a.value := h.not_gt
    rw [order, compareOn, compare_eq_iff_eq.mpr h, compare_eq_iff_eq]
    exact le_antisymm (not_lt.mp (mt (hlt b a).mp hge)) (not_lt.mp (mt (hlt a b).mp hle))
  · rw [order, compareOn, compare_gt_iff_gt.mpr h, compare_gt_iff_gt.mpr ((hlt b a).mpr h)]

instance : Std.TransCmp order := by
  rw [order_eq]
  infer_instance

theorem order_eq_eq_iff {a b : Scaled} : a.order b = .eq ↔ a.value = b.value := by
  rw [order_eq]
  exact compare_eq_iff_eq

/-! ## Rounding -/

theorem roundHalfEven_one (num : Nat) : roundHalfEven num 1 = num := by
  simp [roundHalfEven, Nat.mod_one]

/-- The quotient decides. -/
theorem roundHalfEven_mul (num den : Nat) {factor : Nat} (h : 0 < factor) :
    roundHalfEven (num * factor) (den * factor) = roundHalfEven num den := by
  have hbelow : 2 * (num % den) * factor < den * factor ↔ 2 * (num % den) < den :=
    Nat.mul_lt_mul_right h
  have habove : den * factor < 2 * (num % den) * factor ↔ den < 2 * (num % den) :=
    Nat.mul_lt_mul_right h
  simp only [roundHalfEven, Nat.mul_div_mul_right _ _ h, Nat.mul_mod_mul_right, ← Nat.mul_assoc,
    hbelow, habove]

theorem value_ofMagnitude (negative : Bool) (magnitude scale : Nat) :
    (ofMagnitude negative magnitude scale).value
      = (if negative then -(magnitude : ℚ) else magnitude) / 10 ^ scale := by
  cases negative <;> simp [ofMagnitude, value]

theorem fit?_of_lt {magnitude : Nat} (h : magnitude < bound) (negative : Bool) (scale : Nat) :
    fit? negative magnitude scale = some (ofMagnitude negative magnitude scale) := by
  have hkeep : roundHalfEven magnitude (Nat.pow 10 0) = magnitude := roundHalfEven_one magnitude
  rw [fit?, List.range_succ_eq_map, List.findSome?_cons]
  simp only [hkeep, h, if_true, Nat.sub_zero]

/-- A zero at the end of what does not fit is the first digit to be dropped. -/
theorem fit?_mul_ten_of_not_lt {magnitude : Nat} (h : ¬ magnitude * 10 < bound) (negative : Bool)
    (scale : Nat) : fit? negative (magnitude * 10) (scale + 1) = fit? negative magnitude scale := by
  have hkeep : roundHalfEven (magnitude * 10) (Nat.pow 10 0) = magnitude * 10 :=
    roundHalfEven_one _
  have hdrop : ∀ dropped, roundHalfEven (magnitude * 10) (Nat.pow 10 (dropped + 1))
      = roundHalfEven magnitude (Nat.pow 10 dropped) :=
    fun dropped => roundHalfEven_mul magnitude (Nat.pow 10 dropped) (by decide)
  rw [fit?, List.range_succ_eq_map, List.findSome?_cons, List.findSome?_map]
  simp only [hkeep, h, if_false, Function.comp_def, Nat.succ_eq_add_one, hdrop,
    Nat.add_sub_add_right]
  rfl

theorem value_fit?_mul_ten (negative : Bool) (magnitude scale : Nat) :
    (fit? negative (magnitude * 10) (scale + 1)).map value
      = (fit? negative magnitude scale).map value := by
  by_cases hfits : magnitude * 10 < bound
  · have hvalue : (magnitude * 10 : ℚ) / 10 ^ (scale + 1) = magnitude / 10 ^ scale := by
      rw [pow_succ, mul_div_mul_right _ _ (by norm_num)]
    rw [fit?_of_lt hfits, fit?_of_lt (by omega)]
    simp only [Option.map_some, value_ofMagnitude, Nat.cast_mul, Nat.cast_ofNat]
    cases negative
    · simp only [Bool.false_eq_true, if_false, hvalue]
    · simp only [if_true, neg_div, hvalue]
  · rw [fit?_mul_ten_of_not_lt hfits]

/-- Zeros at the end of a magnitude change nothing. -/
theorem value_fit?_mul_pow (negative : Bool) (magnitude scale zeros : Nat) :
    (fit? negative (magnitude * 10 ^ zeros) (scale + zeros)).map value
      = (fit? negative magnitude scale).map value := by
  induction zeros with
  | zero => rw [Nat.pow_zero, Nat.mul_one, Nat.add_zero]
  | succ zeros ih => rw [Nat.pow_succ, ← Nat.mul_assoc, ← Nat.add_assoc, value_fit?_mul_ten, ih]

/-! ## Sums -/

theorem isZero_iff {a : Scaled} : a.isZero = true ↔ a.value = 0 := by
  simp [isZero, value]

theorem isZero_congr {a b : Scaled} (h : a.value = b.value) : a.isZero = b.isZero := by
  rw [Bool.eq_iff_iff, isZero_iff, isZero_iff, h]

/-- The coefficient of a number at a scale at least as large as its own. -/
theorem coefficient_at {a : Scaled} {scale : Nat} (h : a.scale ≤ scale) :
    ((a.coefficient * Nat.pow 10 (scale - a.scale) : Int) : ℚ) = a.value * 10 ^ scale := by
  have hpow : (10 : ℚ) ^ scale = 10 ^ (scale - a.scale) * 10 ^ a.scale := by
    rw [← pow_add, Nat.sub_add_cancel h]
  have hcast : ((Nat.pow 10 (scale - a.scale) : Nat) : ℚ) = 10 ^ (scale - a.scale) :=
    Nat.cast_pow 10 _
  rw [value, hpow, Int.cast_mul, Int.cast_natCast, hcast]
  field_simp

theorem sum_at {a b : Scaled} {scale : Nat} (ha : a.scale ≤ scale) (hb : b.scale ≤ scale) :
    ((a.coefficient * Nat.pow 10 (scale - a.scale) + b.coefficient * Nat.pow 10 (scale - b.scale)
      : Int) : ℚ) / 10 ^ scale = a.value + b.value := by
  rw [Int.cast_add, coefficient_at ha, coefficient_at hb, ← add_mul,
    mul_div_cancel_right₀ _ (by positivity)]

/-- The coefficient of a number at a larger scale. -/
theorem eq_mul_pow_of_value {n m : Int} {scale zeros : Nat}
    (h : (n : ℚ) / 10 ^ scale = m / 10 ^ (scale + zeros)) : m = n * 10 ^ zeros := by
  rw [pow_add, div_eq_div_iff (by positivity) (by positivity), mul_comm (10 ^ scale : ℚ),
    ← mul_assoc] at h
  exact_mod_cast (mul_right_cancel₀ (by positivity) h).symm

/-- What does not notice a zero at the end depends on the number alone. -/
theorem congr_of_value {β : Type} {f : Scaled → β}
    (hf : ∀ n scale, f ⟨n * 10, scale + 1⟩ = f ⟨n, scale⟩) {a b : Scaled}
    (h : a.value = b.value) : f a = f b := by
  have hzeros : ∀ n scale zeros, f ⟨n * 10 ^ zeros, scale + zeros⟩ = f ⟨n, scale⟩ := by
    intro n scale zeros
    induction zeros with
    | zero => rw [pow_zero, mul_one, Nat.add_zero]
    | succ zeros ih => rw [pow_succ, ← mul_assoc, ← Nat.add_assoc, hf, ih]
  obtain ⟨n, scale⟩ := a
  obtain ⟨m, scale'⟩ := b
  rcases le_total scale scale' with hle | hle
  · obtain ⟨zeros, rfl⟩ := Nat.exists_eq_add_of_le hle
    obtain rfl : m = _ := eq_mul_pow_of_value h
    exact (hzeros n scale zeros).symm
  · obtain ⟨zeros, rfl⟩ := Nat.exists_eq_add_of_le hle
    obtain rfl : n = _ := eq_mul_pow_of_value h.symm
    exact hzeros m scale' zeros

/-- Two coefficients of one number, at scales of which the second is larger, are
cut to the same number. -/
theorem value_fit?_congr {n m : Int} {scale scale' : Nat} (h : scale ≤ scale')
    (hvalue : (n : ℚ) / 10 ^ scale = m / 10 ^ scale') :
    (fit? (n < 0) n.natAbs scale).map value = (fit? (m < 0) m.natAbs scale').map value := by
  obtain ⟨zeros, rfl⟩ := Nat.exists_eq_add_of_le h
  have hzeros : (0 : Int) < 10 ^ zeros := by positivity
  obtain rfl := eq_mul_pow_of_value hvalue
  have hsign : n * 10 ^ zeros < 0 ↔ n < 0 := by
    rw [← not_le, ← not_le, mul_nonneg_iff_of_pos_right hzeros]
  have habs : (n * 10 ^ zeros).natAbs = n.natAbs * 10 ^ zeros := by
    rw [Int.natAbs_mul, Int.natAbs_pow]
    rfl
  simp only [hsign, habs, value_fit?_mul_pow]

/-- Sums of equal numbers are equal, or none of them fits. -/
theorem value_add?_congr (a : Scaled) {b b' : Scaled} (h : b.value = b'.value) :
    (a.add? b).map value = (a.add? b').map value := by
  have hzero : b.isZero = b'.isZero := isZero_congr h
  simp only [add?, hzero]
  split
  case isTrue => exact congrArg some h
  case isFalse =>
    split
    case isTrue => rfl
    case isFalse =>
      have hsum := sum_at (le_max_left a.scale b.scale) (le_max_right a.scale b.scale)
      have hsum' := sum_at (le_max_left a.scale b'.scale) (le_max_right a.scale b'.scale)
      have hsame := hsum.trans ((congrArg (a.value + ·) h).trans hsum'.symm)
      rcases le_total (max a.scale b.scale) (max a.scale b'.scale) with hle | hle
      · exact value_fit?_congr hle hsame
      · exact (value_fit?_congr hle hsame.symm).symm

/-- A sum does not depend on the order of the numbers. -/
theorem value_add?_comm (a b : Scaled) : (a.add? b).map value = (b.add? a).map value := by
  rw [add?, add?]
  split
  case isTrue ha =>
    split
    case isTrue hb => exact congrArg some ((isZero_iff.mp hb).trans (isZero_iff.mp ha).symm)
    case isFalse => rfl
  case isFalse =>
    split
    case isTrue => rfl
    case isFalse =>
      dsimp only
      rw [max_comm, add_comm]

theorem value_neg (a : Scaled) : a.neg.value = -a.value := by
  simp [neg, value, neg_div]

end SimpleTypes.Scaled
