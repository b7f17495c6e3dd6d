import Mathlib.Algebra.Order.Field.Basic
import Mathlib.Tactic.FieldSimp
import Mathlib.Tactic.Linarith
import Mathlib.Tactic.Positivity
import SimpleTypes.Proofs.Number.Digits

/-!
# Fractions

The digits after a point as a rational number below one, and the order of numbers
with a whole part and a rest.

* `compare_mixed`: the order of numbers with a whole part and a rest goes by the
  whole part first.
* `compare_fractionValue`: without zeros at the end, fractions have the order of
  their digits.
-/

namespace SimpleTypes

/-! ## Orders of parts -/

/-- A whole part decides before a rest below the unit. -/
theorem compare_mixed {unit r s : ℚ} {n m : ℤ} (hr : 0 ≤ r) (hr' : r < unit) (hs : 0 ≤ s)
    (hs' : s < unit) :
    compare (unit * n + r) (unit * m + s) = (compare n m).then (compare r s) := by
  -- One unit more outweighs any rest.
  have hbelow : ∀ {i j : ℤ} {x y : ℚ}, x < unit → 0 ≤ y → i < j →
      unit * i + x < unit * j + y := by
    intro i j x y hx hy hij
    have hunit : 0 < unit := hr.trans_lt hr'
    have hstep : (i : ℚ) + 1 ≤ j := by exact_mod_cast hij
    nlinarith [mul_le_mul_of_nonneg_left hstep hunit.le]
  rcases lt_trichotomy n m with hlt | rfl | hgt
  · rw [compare_lt_iff_lt.mpr (hbelow hr' hs hlt), compare_lt_iff_lt.mpr hlt]
    rfl
  · rw [compare_eq_iff_eq.mpr rfl, Ordering.eq_then, ← cmp_eq_compare, ← cmp_eq_compare,
      cmp_add_left]
  · rw [compare_gt_iff_gt.mpr (hbelow hs' hr hgt), compare_gt_iff_gt.mpr hgt]
    rfl

theorem compare_natCast (a b : Nat) : compare (a : Int) (b : Int) = compare a b := by
  rcases lt_trichotomy a b with hlt | rfl | hgt
  · rw [compare_lt_iff_lt.mpr hlt, compare_lt_iff_lt.mpr (by exact_mod_cast hlt)]
  · rw [compare_eq_iff_eq.mpr rfl, compare_eq_iff_eq.mpr rfl]
  · rw [compare_gt_iff_gt.mpr hgt, compare_gt_iff_gt.mpr (by exact_mod_cast hgt)]

theorem compare_mixed_nat {unit r s : ℚ} {n m : Nat} (hr : 0 ≤ r ∧ r < unit)
    (hs : 0 ≤ s ∧ s < unit) :
    compare (unit * n + r) (unit * m + s) = (compare n m).then (compare r s) := by
  have := compare_mixed (n := n) (m := m) hr.1 hr.2 hs.1 hs.2
  rwa [compare_natCast, Int.cast_natCast, Int.cast_natCast] at this

/-! ## Fractions -/

/-- The value of the digits after a point. -/
def fractionValue (digits : List Char) : ℚ := natOfDigits digits / 10 ^ digits.length

theorem fractionValue_nil : fractionValue [] = 0 := by
  simp [fractionValue, natOfDigits_nil]

theorem fractionValue_cons (c : Char) (digits : List Char) :
    fractionValue (c :: digits) = ((c.toNat - 48 : Nat) + fractionValue digits) / 10 := by
  simp only [fractionValue, natOfDigits_cons, List.length_cons]
  push_cast
  field_simp
  ring

theorem fractionValue_nonneg (digits : List Char) : 0 ≤ fractionValue digits := by
  unfold fractionValue
  positivity

theorem fractionValue_lt_one {digits : List Char} (h : ∀ c ∈ digits, c.isDigit = true) :
    fractionValue digits < 1 := by
  have hlt : (natOfDigits digits : ℚ) < 10 ^ digits.length := by exact_mod_cast natOfDigits_lt h
  rw [fractionValue, div_lt_one (by positivity)]
  exact hlt

/-- Digits without a zero at the end are worth something. -/
theorem fractionValue_pos {digits : List Char} (h : ∀ c ∈ digits, c.isDigit = true)
    (hzero : NoTrailingZero digits) (hne : digits ≠ []) : 0 < fractionValue digits := by
  induction digits with
  | nil => exact absurd rfl hne
  | cons c rest ih =>
    rw [fractionValue_cons]
    obtain ⟨hc, hrest⟩ := List.forall_mem_cons.mp h
    cases rest with
    | nil =>
      have hne : c.toNat ≠ 48 := by
        intro heq
        exact hzero (by rw [show c = '0' from Char.toNat_inj.mp heq]; rfl)
      have hpos : 0 < c.toNat - 48 := by
        have := isDigit_bounds hc
        omega
      have : (0 : ℚ) < (c.toNat - 48 : Nat) := by exact_mod_cast hpos
      rw [fractionValue_nil]
      linarith
    | cons d rest =>
      have := ih hrest hzero.of_cons (by simp)
      positivity

theorem compare_char (c d : Char) : compare c d = compare c.toNat d.toNat := by
  change compareOfLessAndEq c d = compareOfLessAndEq c.toNat d.toNat
  simp only [compareOfLessAndEq, ← Char.toNat_inj]
  rfl

/-- The order of digits is that of their values. -/
theorem compare_digit {c d : Char} (hc : c.isDigit = true) (hd : d.isDigit = true) :
    compare c d = compare (c.toNat - 48) (d.toNat - 48) := by
  have hc' := isDigit_bounds hc
  have hd' := isDigit_bounds hd
  rw [compare_char]
  rcases lt_trichotomy c.toNat d.toNat with hlt | heq | hgt
  · rw [compare_lt_iff_lt.mpr hlt, compare_lt_iff_lt.mpr (by omega)]
  · rw [heq, compare_eq_iff_eq.mpr rfl, compare_eq_iff_eq.mpr rfl]
  · rw [compare_gt_iff_gt.mpr hgt, compare_gt_iff_gt.mpr (by omega)]

/-- Without zeros at the end, fractions have the order of their digits. -/
theorem compare_fractionValue {f g : List Char} (hf : ∀ c ∈ f, c.isDigit = true)
    (hg : ∀ c ∈ g, c.isDigit = true) (hf' : NoTrailingZero f) (hg' : NoTrailingZero g) :
    compare (fractionValue f) (fractionValue g) = compare f g := by
  induction f generalizing g with
  | nil =>
    cases g with
    | nil => exact compare_eq_iff_eq.mpr rfl
    | cons d g =>
      rw [fractionValue_nil, compare_lt_iff_lt.mpr (fractionValue_pos hg hg' (by simp))]
      rfl
  | cons c f ih =>
    cases g with
    | nil =>
      rw [fractionValue_nil, compare_gt_iff_gt.mpr (fractionValue_pos hf hf' (by simp))]
      rfl
    | cons d g =>
      obtain ⟨hc, hf⟩ := List.forall_mem_cons.mp hf
      obtain ⟨hd, hg⟩ := List.forall_mem_cons.mp hg
      have hrest := ih hf hg hf'.of_cons hg'.of_cons
      -- The first digits are whole parts, and the other digits are their rests.
      have hscale : ∀ x y : ℚ, compare (x / 10) (y / 10) = compare x y := by
        intro x y
        rw [div_eq_inv_mul, div_eq_inv_mul, ← cmp_eq_compare, cmp_mul_pos_left (by norm_num),
          cmp_eq_compare]
      have hparts := compare_mixed_nat (n := c.toNat - 48) (m := d.toNat - 48)
        ⟨fractionValue_nonneg f, fractionValue_lt_one hf⟩
        ⟨fractionValue_nonneg g, fractionValue_lt_one hg⟩
      rw [one_mul, one_mul] at hparts
      rw [fractionValue_cons, fractionValue_cons, hscale, hparts, hrest, ← compare_digit hc hd]
      exact List.compareLex_cons_cons.symm

end SimpleTypes
