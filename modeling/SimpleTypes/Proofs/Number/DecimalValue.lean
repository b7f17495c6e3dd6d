import SimpleTypes.Proofs.Number.Decimal
import SimpleTypes.Proofs.Number.Fraction

/-!
# Decimals as rational numbers

The number that the digits of a decimal stand for.

* `compare_natOfDigits`: without zeros in front, numbers have the order of the lengths
  of their numerals, and then of the digits.
* `value_ofDigits`: to drop idle zeros does not change the number.
* `order_eq_compare_value`: the order of decimals is that of their values.
* `value_eq_iff`: decimals with one value have the same sign and digits.
-/

namespace SimpleTypes

/-! ## Whole numbers -/

theorem compare_cast (a b : Nat) : compare (a : ℚ) b = compare a b := by
  rw [← cmp_eq_compare, ← cmp_eq_compare]
  exact Nat.strictMono_cast.cmp_map_eq a b

/-- As many digits have the order of their values. -/
theorem compare_natOfDigits_of_length_eq {a b : List Char} (ha : ∀ c ∈ a, c.isDigit = true)
    (hb : ∀ c ∈ b, c.isDigit = true) (hlength : a.length = b.length) :
    compare (natOfDigits a) (natOfDigits b) = compare a b := by
  induction a generalizing b with
  | nil =>
    obtain rfl : b = [] := List.length_eq_zero_iff.mp hlength.symm
    rfl
  | cons c a ih =>
    cases b with
    | nil => cases hlength
    | cons d b =>
      obtain ⟨hc, ha⟩ := List.forall_mem_cons.mp ha
      obtain ⟨hd, hb⟩ := List.forall_mem_cons.mp hb
      have hlength : a.length = b.length := by simpa using hlength
      have hrest := ih ha hb hlength
      have hbelow {digits : List Char} (h : ∀ c ∈ digits, c.isDigit = true) :
          (natOfDigits digits : ℚ) < 10 ^ digits.length := by
        exact_mod_cast natOfDigits_lt h
      -- The first digits count the power of ten that bounds the others.
      have hparts := compare_mixed_nat (n := c.toNat - 48) (m := d.toNat - 48)
        ⟨Nat.cast_nonneg _, hbelow ha⟩
        ⟨Nat.cast_nonneg _, hlength ▸ hbelow hb⟩
      rw [compare_cast, hrest, ← compare_digit hc hd] at hparts
      rw [← compare_cast, natOfDigits_cons, natOfDigits_cons, ← hlength]
      push_cast
      rw [mul_comm _ ((10 : ℚ) ^ a.length), mul_comm _ ((10 : ℚ) ^ a.length), hparts]
      exact List.compareLex_cons_cons.symm

/-- Without zeros in front, more digits are worth more. -/
theorem natOfDigits_lt_of_length_lt {a b : List Char} (ha : ∀ c ∈ a, c.isDigit = true)
    (hb : ∀ c ∈ b, c.isDigit = true) (hzero : NoLeadingZero b) (hlength : a.length < b.length) :
    natOfDigits a < natOfDigits b := by
  have hne : b ≠ [] := List.ne_nil_of_length_pos (by omega)
  calc
    natOfDigits a < 10 ^ a.length := natOfDigits_lt ha
    _ ≤ 10 ^ (b.length - 1) := Nat.pow_le_pow_right (by decide) (by omega)
    _ ≤ natOfDigits b := pow_le_natOfDigits hb hne hzero

/-- Without zeros in front, numbers have the order of the lengths of their numerals,
and then of the digits. -/
theorem compare_natOfDigits {a b : List Char} (ha : ∀ c ∈ a, c.isDigit = true)
    (hb : ∀ c ∈ b, c.isDigit = true) (ha' : NoLeadingZero a) (hb' : NoLeadingZero b) :
    compare (natOfDigits a) (natOfDigits b) = (compare a.length b.length).then (compare a b) := by
  rcases lt_trichotomy a.length b.length with hlt | heq | hgt
  · rw [compare_lt_iff_lt.mpr hlt, compare_lt_iff_lt.mpr (natOfDigits_lt_of_length_lt ha hb hb' hlt)]
    rfl
  · rw [compare_eq_iff_eq.mpr heq, compare_natOfDigits_of_length_eq ha hb heq]
    rfl
  · rw [compare_gt_iff_gt.mpr hgt, compare_gt_iff_gt.mpr (natOfDigits_lt_of_length_lt hb ha ha' hgt)]
    rfl

/-- Digits without a zero in front are the numeral of their value. -/
theorem numeral_natOfDigits {digits : List Char} (hdigits : ∀ c ∈ digits, c.isDigit = true)
    (hne : digits ≠ []) (hzero : NoLeadingZero digits) : numeral (natOfDigits digits) = digits := by
  have hpos : 0 < natOfDigits digits :=
    (Nat.pow_pos (by decide)).trans_le (pow_le_natOfDigits hdigits hne hzero)
  have horder := compare_natOfDigits (a := numeral (natOfDigits digits))
    (fun _ => isDigit_of_mem_numeral) hdigits (numeral_head_ne_zero hpos) hzero
  rw [natOfDigits_numeral, Std.compare_self, eq_comm, Ordering.then_eq_eq] at horder
  exact Std.compare_eq_iff_eq.mp horder.2

/-! ## Zeros at the ends of fractions -/

theorem fractionValue_dropTrailingZeros (digits : List Char) :
    fractionValue (dropTrailingZeros digits) = fractionValue digits := by
  obtain ⟨zeros, hzeros⟩ := exists_dropTrailingZeros_append digits
  generalize dropTrailingZeros digits = shown at hzeros
  rw [hzeros, fractionValue, fractionValue, natOfDigits_append_zeros, List.length_append,
    List.length_replicate, pow_add, Nat.cast_mul, Nat.cast_pow, Nat.cast_ofNat,
    mul_div_mul_right _ _ (by positivity)]

namespace Decimal

variable {a b : Decimal}

/-! ## Values -/

/-- The number without its sign. -/
def magnitude (a : Decimal) : ℚ := natOfDigits a.whole + fractionValue a.fraction

/-- The number that a decimal stands for. -/
def value (a : Decimal) : ℚ := if a.negative then -a.magnitude else a.magnitude

theorem magnitude_nonneg (a : Decimal) : 0 ≤ a.magnitude :=
  add_nonneg (Nat.cast_nonneg _) (fractionValue_nonneg _)

/-- Digits that are left when the idle zeros are gone are worth something. -/
theorem IsProper.magnitude_pos (h : a.IsProper) (hne : a.whole ≠ [] ∨ a.fraction ≠ []) :
    0 < a.magnitude := by
  rcases hne with hwhole | hfraction
  · have hpos : 0 < natOfDigits a.whole :=
      lt_of_lt_of_le (by positivity) (pow_le_natOfDigits h.wholeDigits hwhole h.noLeadingZero)
    exact add_pos_of_pos_of_nonneg (by exact_mod_cast hpos) (fractionValue_nonneg _)
  · exact add_pos_of_nonneg_of_pos (Nat.cast_nonneg _)
      (fractionValue_pos h.fractionDigits h.noTrailingZero hfraction)

theorem IsProper.value_neg (h : a.IsProper) (hnegative : a.negative = true) : a.value < 0 := by
  rw [value, if_pos hnegative, neg_lt_zero]
  exact h.magnitude_pos (h.sign hnegative)

theorem value_nonneg (hnegative : a.negative = false) : 0 ≤ a.value := by
  rw [value, hnegative]
  exact a.magnitude_nonneg

/-- To drop idle zeros does not change the number, and zero needs no sign. -/
theorem value_ofDigits (negative : Bool) (whole fraction : List Char) :
    (ofDigits negative whole fraction).value =
      if negative then -(natOfDigits whole + fractionValue fraction)
      else natOfDigits whole + fractionValue fraction := by
  have hmagnitude : (ofDigits negative whole fraction).magnitude
      = natOfDigits whole + fractionValue fraction := by
    rw [magnitude, ofDigits, natOfDigits_dropLeadingZeros, fractionValue_dropTrailingZeros]
  rw [value, hmagnitude]
  cases negative with
  | false => rfl
  | true =>
    cases hempty : (dropLeadingZeros whole).isEmpty && (dropTrailingZeros fraction).isEmpty with
    | false => simp [ofDigits, hempty]
    | true =>
      have hzero : (natOfDigits whole : ℚ) + fractionValue fraction = 0 := by
        rw [Bool.and_eq_true, List.isEmpty_iff, List.isEmpty_iff] at hempty
        rw [← natOfDigits_dropLeadingZeros, ← fractionValue_dropTrailingZeros, hempty.1, hempty.2,
          natOfDigits_nil, fractionValue_nil, Nat.cast_zero, add_zero]
      simp [hzero]

/-! ## Order -/

/-- The whole digits count units, and the fraction is a rest below one. -/
theorem IsProper.orderMagnitude_eq_compare (ha : a.IsProper) (hb : b.IsProper) :
    orderMagnitude a b = compare a.magnitude b.magnitude := by
  have hparts := compare_mixed_nat (n := natOfDigits a.whole) (m := natOfDigits b.whole)
    ⟨fractionValue_nonneg _, fractionValue_lt_one ha.fractionDigits⟩
    ⟨fractionValue_nonneg _, fractionValue_lt_one hb.fractionDigits⟩
  rw [one_mul, one_mul, compare_natOfDigits ha.wholeDigits hb.wholeDigits ha.noLeadingZero
    hb.noLeadingZero, compare_fractionValue ha.fractionDigits hb.fractionDigits ha.noTrailingZero
    hb.noTrailingZero, Ordering.then_assoc] at hparts
  exact hparts.symm

/-- The order of decimals is that of their values. -/
theorem IsProper.order_eq_compare_value (ha : a.IsProper) (hb : b.IsProper) :
    a.order b = compare a.value b.value := by
  unfold order
  split
  case h_1 hna hnb =>
    exact (compare_gt_iff_gt.mpr ((hb.value_neg hnb).trans_le (value_nonneg hna))).symm
  case h_2 hna hnb =>
    exact (compare_lt_iff_lt.mpr ((ha.value_neg hna).trans_le (value_nonneg hnb))).symm
  case h_3 hna hnb =>
    rw [ha.orderMagnitude_eq_compare hb, value, value, hna, hnb]
    rfl
  case h_4 hna hnb =>
    -- Below zero the larger magnitude is the smaller number.
    rw [hb.orderMagnitude_eq_compare ha, value, value, if_pos hna, if_pos hnb, ← cmp_eq_compare,
      ← cmp_eq_compare]
    exact (strictMono_id.neg.cmp_map_eq _ _).symm

theorem eq_of_orderMagnitude (h : orderMagnitude a b = .eq) :
    a.whole = b.whole ∧ a.fraction = b.fraction := by
  simp only [orderMagnitude, Ordering.then_eq_eq, Std.compare_eq_iff_eq] at h
  exact h.2

/-- Decimals that are equal in the order have the same sign and digits. -/
theorem trimmed_eq_of_order (h : a.order b = .eq) : a.trimmed = b.trimmed := by
  unfold order at h
  split at h
  case h_1 => cases h
  case h_2 => cases h
  case h_3 hna hnb =>
    obtain ⟨hwhole, hfraction⟩ := eq_of_orderMagnitude h
    simp only [trimmed, hna, hnb, hwhole, hfraction]
  case h_4 hna hnb =>
    obtain ⟨hwhole, hfraction⟩ := eq_of_orderMagnitude h
    simp only [trimmed, hna, hnb, hwhole, hfraction]

/-- Decimals with one value have the same sign and digits. -/
theorem IsProper.value_eq_iff (ha : a.IsProper) (hb : b.IsProper) :
    a.value = b.value ↔ a.trimmed = b.trimmed := by
  constructor
  · intro hvalue
    exact trimmed_eq_of_order ((ha.order_eq_compare_value hb).trans (compare_eq_iff_eq.mpr hvalue))
  · exact congrArg value

end Decimal

end SimpleTypes
