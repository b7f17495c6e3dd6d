import Mathlib.Algebra.Order.Field.Basic
import Mathlib.Data.Nat.Cast.Order.Field
import SimpleTypes.Proofs.Number.Digits
import SimpleTypes.Proofs.Number.Scaled

/-!
# Sums that fit

Which sums of scaled decimals are exact, which succeed, and how far rounding can
move the others.

* `add?_of_fits`: a sum that fits at the larger scale is exact.
* `add?_isSome`: a sum below the bound is never refused.
* `IsMagnitude`: the numbers that digits stand for. Products and sums of them are
  such numbers again, and a sum is rounded by less than one.
* `ofDigits?_eq_some`: the numeral of such a number, up to its rounding.
-/

namespace SimpleTypes.Scaled

/-! ## Rounding -/

section Rounding

variable {num den m : Nat}

/-- The rounded quotient is one of the two next to the exact one, and not
farther from it than one half. -/
theorem roundHalfEven_cases (num den : Nat) :
    roundHalfEven num den = num / den ∧ 2 * (num % den) ≤ den ∨
      roundHalfEven num den = num / den + 1 ∧ den ≤ 2 * (num % den) := by
  simp only [roundHalfEven]
  split
  case isTrue hbelow => exact .inl ⟨rfl, hbelow.le⟩
  case isFalse hbelow =>
    split
    case isTrue habove => exact .inr ⟨rfl, habove.le⟩
    case isFalse habove =>
      rcases Nat.mod_two_eq_zero_or_one (num / den) with heven | hodd
      · exact .inl ⟨by rw [heven, Nat.add_zero], not_lt.mp habove⟩
      · exact .inr ⟨by rw [hodd], not_lt.mp hbelow⟩

/-- Halfway between two quotients the even one is taken. -/
theorem even_roundHalfEven (num den : Nat) (h : 2 * (num % den) = den) :
    Even (roundHalfEven num den) := by
  have hhalf : roundHalfEven num den = num / den + num / den % 2 := by
    simp only [roundHalfEven, h, lt_irrefl, if_false]
  rw [hhalf, Nat.even_iff]
  omega

theorem two_mul_roundHalfEven_le (num den : Nat) :
    2 * (roundHalfEven num den * den) ≤ 2 * num + den := by
  have hdivision := Nat.div_add_mod' num den
  rcases roundHalfEven_cases num den with ⟨h, -⟩ | ⟨h, hhalf⟩
  · rw [h]
    omega
  · rw [h, Nat.add_mul]
    omega

theorem div_le_roundHalfEven (num den : Nat) : num / den ≤ roundHalfEven num den := by
  rcases roundHalfEven_cases num den with ⟨h, -⟩ | ⟨h, -⟩ <;> omega

/-- Rounding does not pass a whole number. -/
theorem roundHalfEven_le (hden : 0 < den) (h : num ≤ m * den) : roundHalfEven num den ≤ m := by
  by_contra hgt
  have hround := two_mul_roundHalfEven_le num den
  have hmul : (m + 1) * den ≤ roundHalfEven num den * den := Nat.mul_le_mul_right den (by omega)
  rw [Nat.add_mul] at hmul
  omega

end Rounding

/-! ## Cutting -/

section Cutting

variable {negative : Bool} {magnitude scale : Nat} {a : Scaled}

theorem fit?_eq_some (h : fit? negative magnitude scale = some a) :
    ∃ dropped ≤ scale, roundHalfEven magnitude (10 ^ dropped) < bound ∧
      a = ofMagnitude negative (roundHalfEven magnitude (10 ^ dropped)) (scale - dropped) := by
  obtain ⟨dropped, hmem, hfits⟩ := List.exists_of_findSome?_eq_some h
  simp only [Option.ite_none_right_eq_some, Option.some.injEq] at hfits
  exact ⟨dropped, Nat.le_of_lt_succ (List.mem_range.mp hmem), hfits.1, hfits.2.symm⟩

/-- What stays below the bound without its fractional digits can be cut to fit. -/
theorem fit?_isSome (h : magnitude ≤ (bound - 1) * 10 ^ scale) (negative : Bool) :
    (fit? negative magnitude scale).isSome := by
  refine List.findSome?_isSome_iff.mpr ⟨scale, List.mem_range.mpr (Nat.lt_succ_self scale), ?_⟩
  have hround : roundHalfEven magnitude (Nat.pow 10 scale) ≤ bound - 1 :=
    roundHalfEven_le (Nat.pow_pos (by decide)) h
  rw [if_pos (Nat.lt_of_le_sub_one (by decide) hround)]
  rfl

end Cutting

/-! ## Sums -/

section Sums

variable {a b c : Scaled}

theorem ofMagnitude_natAbs (n : Int) (scale : Nat) :
    ofMagnitude (n < 0) n.natAbs scale = ⟨n, scale⟩ := by
  rcases lt_or_ge n 0 with h | h
  · simp [ofMagnitude, h, Int.ofNat_natAbs_of_nonpos h.le]
  · simp [ofMagnitude, not_lt.mpr h, Int.natAbs_of_nonneg h]

/-- The magnitude of the exact sum at the larger scale. -/
theorem natAbs_sum (a b : Scaled) :
    ((a.coefficient * Nat.pow 10 (max a.scale b.scale - a.scale)
        + b.coefficient * Nat.pow 10 (max a.scale b.scale - b.scale)).natAbs : ℚ)
      = |a.value + b.value| * 10 ^ max a.scale b.scale := by
  have hpow : (0 : ℚ) < 10 ^ max a.scale b.scale := by positivity
  rw [Nat.cast_natAbs, Int.cast_abs, ← sum_at (le_max_left a.scale b.scale)
    (le_max_right a.scale b.scale), abs_div, abs_of_pos hpow, div_mul_cancel₀ _ hpow.ne']

/-- A sum that fits at the larger scale is exact. -/
theorem add?_of_fits (h : |a.value + b.value| * 10 ^ max a.scale b.scale < bound) :
    ∃ c, a.add? b = some c ∧ c.value = a.value + b.value ∧ c.scale ≤ max a.scale b.scale := by
  rw [add?]
  split
  case isTrue hzero => exact ⟨b, rfl, by rw [isZero_iff.mp hzero, zero_add], le_max_right _ _⟩
  case isFalse =>
    split
    case isTrue hzero => exact ⟨a, rfl, by rw [isZero_iff.mp hzero, add_zero], le_max_left _ _⟩
    case isFalse =>
      rw [← natAbs_sum, Nat.cast_lt] at h
      refine ⟨_, fit?_of_lt h _ _, ?_, le_rfl⟩
      rw [ofMagnitude_natAbs]
      exact sum_at (le_max_left a.scale b.scale) (le_max_right a.scale b.scale)

/-- A sum below the bound is never refused. -/
theorem add?_isSome (h : |a.value + b.value| ≤ (bound - 1 : Nat)) : (a.add? b).isSome := by
  rw [add?]
  split
  case isTrue => rfl
  case isFalse =>
    split
    case isTrue => rfl
    case isFalse =>
      refine fit?_isSome ?_ _
      rw [← Nat.cast_le (α := ℚ), natAbs_sum, Nat.cast_mul, Nat.cast_pow, Nat.cast_ofNat]
      exact mul_le_mul_of_nonneg_right h (by positivity)

end Sums

/-! ## Magnitudes -/

section Magnitudes

variable {a b c : Scaled}

/-- The numbers that digits can stand for: they have no sign, and they fit. -/
structure IsMagnitude (a : Scaled) : Prop where
  nonneg : 0 ≤ a.coefficient
  lt : a.coefficient < bound
  scale : a.scale ≤ maxScale

theorem value_mul_pow (a : Scaled) : a.value * 10 ^ a.scale = a.coefficient :=
  div_mul_cancel₀ _ (by positivity)

theorem natAbs_coefficient (a : Scaled) :
    (a.coefficient.natAbs : ℚ) = |a.value| * 10 ^ a.scale := by
  have hpow : (0 : ℚ) < 10 ^ a.scale := by positivity
  rw [Nat.cast_natAbs, Int.cast_abs, ← value_mul_pow, abs_mul, abs_of_pos hpow]

theorem value_nonneg_iff : 0 ≤ a.value ↔ 0 ≤ a.coefficient := by
  rw [← Int.cast_nonneg_iff (R := ℚ), ← value_mul_pow]
  exact (mul_nonneg_iff_of_pos_right (by positivity)).symm

theorem IsMagnitude.value_nonneg (h : a.IsMagnitude) : 0 ≤ a.value := value_nonneg_iff.mpr h.nonneg

/-- A smaller number at no larger scale has a smaller coefficient. -/
theorem coefficient_le (hb : 0 ≤ b.value) (hvalue : a.value ≤ b.value)
    (hscale : a.scale ≤ b.scale) : a.coefficient ≤ b.coefficient := by
  rw [← Int.cast_le (R := ℚ), ← value_mul_pow, ← value_mul_pow]
  exact mul_le_mul hvalue (pow_le_pow_right₀ (by norm_num) hscale) (by positivity) hb

theorem IsMagnitude.value_mul_pow_lt (h : a.IsMagnitude) {scale : Nat} (hscale : scale ≤ a.scale) :
    a.value * 10 ^ scale < bound := by
  have hlt : (a.coefficient : ℚ) < bound := mod_cast h.lt
  refine lt_of_le_of_lt ?_ hlt
  rw [← value_mul_pow]
  exact mul_le_mul_of_nonneg_left (pow_le_pow_right₀ (by norm_num) hscale) h.value_nonneg

/-- Parts of a magnitude that are no finer than it are added exactly. -/
theorem IsMagnitude.exists_add? (h : c.IsMagnitude) (ha : 0 ≤ a.value) (hb : 0 ≤ b.value)
    (hle : a.value + b.value ≤ c.value) (hscale : a.scale ≤ c.scale) (hscale' : b.scale ≤ c.scale) :
    ∃ sum, a.add? b = some sum ∧ sum.value = a.value + b.value ∧ sum.scale ≤ c.scale := by
  have hmax : max a.scale b.scale ≤ c.scale := max_le hscale hscale'
  have hfits : |a.value + b.value| * 10 ^ max a.scale b.scale < bound := by
    rw [abs_of_nonneg (add_nonneg ha hb)]
    exact (mul_le_mul_of_nonneg_right hle (by positivity)).trans_lt (h.value_mul_pow_lt hmax)
  obtain ⟨sum, hsum, hvalue, hfine⟩ := add?_of_fits hfits
  exact ⟨sum, hsum, hvalue, hfine.trans hmax⟩

theorem value_natCast (n : Nat) : (⟨n, 0⟩ : Scaled).value = n := by
  rw [value, Int.cast_natCast, pow_zero, div_one]

theorem isMagnitude_ofNat {n scale : Nat} (hn : n < bound) (hscale : scale ≤ maxScale) :
    IsMagnitude ⟨n, scale⟩ :=
  ⟨Int.natCast_nonneg n, Int.ofNat_lt.mpr hn, hscale⟩

theorem ofNat?_eq_some {n : Nat} (h : ofNat? n = some a) : a.IsMagnitude ∧ a.value = n := by
  simp only [ofNat?, Option.ite_none_right_eq_some, Option.some.injEq] at h
  obtain ⟨hlt, rfl⟩ := h
  exact ⟨isMagnitude_ofNat hlt (Nat.zero_le _), value_natCast n⟩

theorem IsMagnitude.mulWhole? {factor : Nat} (ha : a.IsMagnitude)
    (h : a.mulWhole? factor = some c) : c.IsMagnitude ∧ c.value = a.value * factor := by
  simp only [Scaled.mulWhole?, Option.ite_none_right_eq_some, Option.some.injEq] at h
  obtain ⟨hlt, rfl⟩ := h
  have hnonneg : 0 ≤ a.coefficient * factor := mul_nonneg ha.nonneg (Int.natCast_nonneg factor)
  have habs := (Int.natAbs_of_nonneg hnonneg).symm
  refine ⟨⟨hnonneg, habs.trans_lt (Int.ofNat_lt.mpr hlt), ha.scale⟩, ?_⟩
  rw [value, value, Int.cast_mul, Int.cast_natCast, div_mul_eq_mul_div]

/-- What is cut to fit grows by less than one. -/
theorem fit?_isMagnitude {magnitude scale : Nat} (hscale : scale ≤ maxScale)
    (h : fit? false magnitude scale = some a) :
    a.IsMagnitude ∧ a.value ≤ magnitude / 10 ^ scale + 1 := by
  obtain ⟨dropped, hdropped, hlt, rfl⟩ := fit?_eq_some h
  refine ⟨isMagnitude_ofNat hlt (by omega), ?_⟩
  have hround := two_mul_roundHalfEven_le magnitude (10 ^ dropped)
  generalize roundHalfEven magnitude (10 ^ dropped) = rounded at hlt hround
  have hpow : 10 ^ dropped ≤ 10 ^ scale := Nat.pow_le_pow_right (by decide) hdropped
  have hpos : 0 < 10 ^ scale := by positivity
  have hle : rounded * 10 ^ dropped ≤ magnitude + 10 ^ scale := by omega
  rw [value_ofMagnitude, if_neg Bool.false_ne_true]
  calc (rounded : ℚ) / 10 ^ (scale - dropped)
      = (rounded * 10 ^ dropped : Nat) / 10 ^ scale := by
        rw [← Nat.sub_add_cancel hdropped, pow_add, Nat.add_sub_cancel, Nat.cast_mul, Nat.cast_pow,
          Nat.cast_ofNat, mul_div_mul_right _ _ (by positivity)]
    _ ≤ (magnitude + 10 ^ scale : Nat) / 10 ^ scale := by gcongr
    _ = magnitude / 10 ^ scale + 1 := by
        rw [Nat.cast_add, Nat.cast_pow, Nat.cast_ofNat, add_div, div_self (by positivity)]

/-- A sum of magnitudes is one, and it is rounded by less than one. -/
theorem IsMagnitude.add? (ha : a.IsMagnitude) (hb : b.IsMagnitude) (h : a.add? b = some c) :
    c.IsMagnitude ∧ c.value ≤ a.value + b.value + 1 := by
  have ha' := ha.value_nonneg
  have hb' := hb.value_nonneg
  rw [Scaled.add?] at h
  split at h
  case isTrue =>
    obtain rfl := Option.some.inj h
    exact ⟨hb, by linarith⟩
  case isFalse =>
    split at h
    case isTrue =>
      obtain rfl := Option.some.inj h
      exact ⟨ha, by linarith⟩
    case isFalse =>
      have hsum : (0 : ℚ) ≤ a.value + b.value := add_nonneg ha' hb'
      have hnonneg : ¬ a.coefficient * Nat.pow 10 (max a.scale b.scale - a.scale)
          + b.coefficient * Nat.pow 10 (max a.scale b.scale - b.scale) < 0 :=
        not_lt.mpr (add_nonneg (mul_nonneg ha.nonneg (Int.natCast_nonneg _))
          (mul_nonneg hb.nonneg (Int.natCast_nonneg _)))
      simp only [hnonneg, decide_false] at h
      obtain ⟨hc, hle⟩ := fit?_isMagnitude (max_le ha.scale hb.scale) h
      refine ⟨hc, ?_⟩
      rwa [natAbs_sum, abs_of_nonneg hsum, mul_div_cancel_right₀ _ (by positivity)] at hle

/-! ## Digits -/

/-- Further digits are worth less than five units of the last digit before them,
however they are rounded. -/
theorem appendFraction_eq_some {fraction : List Char} (hdigits : ∀ d ∈ fraction, d.isDigit = true)
    {n scale : Nat} (hn : n < bound) (hscale : scale ≤ maxScale)
    (h : appendFraction n scale fraction = some a) :
    a.IsMagnitude ∧ a.value ≤ (n + 5) / 10 ^ scale := by
  induction fraction generalizing n scale with
  | nil =>
    obtain rfl := Option.some.inj h
    refine ⟨isMagnitude_ofNat hn hscale, ?_⟩
    rw [value, Int.cast_natCast]
    gcongr
    linarith
  | cons d rest ih =>
    obtain ⟨hd, hrest⟩ := List.forall_mem_cons.mp hdigits
    have hvalue : natOfDigits [d] < 10 := natOfDigits_lt (List.forall_mem_singleton.mpr hd)
    rw [appendFraction] at h
    split at h
    case isTrue hfits =>
      obtain ⟨ha, hle⟩ := ih hrest hfits.2 hfits.1 h
      refine ⟨ha, hle.trans ?_⟩
      have hunits : n * 10 + natOfDigits [d] + 5 ≤ (n + 5) * 10 := by omega
      calc ((n * 10 + natOfDigits [d] : Nat) + 5 : ℚ) / 10 ^ (scale + 1)
          ≤ (n + 5) * 10 / 10 ^ (scale + 1) := by
            gcongr
            exact_mod_cast hunits
        _ = (n + 5) / 10 ^ scale := by rw [pow_succ, mul_div_mul_right _ _ (by norm_num)]
    case isFalse =>
      generalize hrounded : (if 5 ≤ natOfDigits [d] then n + 1 else n) = rounded at h
      have hle : rounded ≤ n + 1 := by
        rw [← hrounded]
        split <;> omega
      dsimp only at h
      split at h
      case isTrue hlt =>
        obtain rfl := Option.some.inj h
        refine ⟨isMagnitude_ofNat hlt hscale, ?_⟩
        rw [value, Int.cast_natCast]
        gcongr
        exact_mod_cast (by omega : rounded ≤ n + 5)
      case isFalse =>
        cases scale with
        | zero => cases h
        | succ scale =>
          -- The coefficient has reached the bound and gives up its last digit.
          obtain rfl := Option.some.inj h
          refine ⟨isMagnitude_ofNat (by omega) (by omega), ?_⟩
          rw [value, Int.cast_natCast]
          calc (((rounded + 4) / 10 : Nat) : ℚ) / 10 ^ scale
              ≤ (rounded + 4 : Nat) / 10 / 10 ^ scale := by
                gcongr
                exact Nat.cast_div_le
            _ = (rounded + 4 : Nat) / 10 ^ (scale + 1) := by rw [div_div, pow_succ']
            _ ≤ (n + 5) / 10 ^ (scale + 1) := by
                gcongr
                exact_mod_cast (by omega : rounded + 4 ≤ n + 5)

theorem ofDigits?_eq_some {whole fraction : List Char}
    (hdigits : ∀ d ∈ fraction, d.isDigit = true) (h : ofDigits? whole fraction = some a) :
    a.IsMagnitude ∧ a.value ≤ natOfDigits whole + 5 := by
  simp only [ofDigits?, Option.ite_none_right_eq_some] at h
  obtain ⟨ha, hle⟩ := appendFraction_eq_some hdigits h.1 (Nat.zero_le _) h.2
  rw [pow_zero, div_one] at hle
  exact ⟨ha, hle⟩

end Magnitudes

end SimpleTypes.Scaled
