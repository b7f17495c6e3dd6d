import SimpleTypes.Proofs.Facet.Checks
import SimpleTypes.Proofs.Number.DecimalText

/-!
# Digit facets

How many digits a number needs, and what the digit facets have to do with it.

* `fraction_length_le_iff`: a decimal has as many digits after the point as it takes to
  make the number whole.
* `digits_length_le_iff`: all its digits are as many as an integer needs that is the
  number but for the point.
* `checkDigits_iff`: a digit facet admits the texts of the numbers that can be written
  with so many digits.
-/

namespace SimpleTypes

namespace Decimal

variable {a b : Decimal} {n most : Nat}

/-! ## Coefficients -/

/-- All digits as one number. -/
def coefficient (a : Decimal) : Nat := natOfDigits (a.whole ++ a.fraction)

theorem magnitude_mul_pow_of_le (h : a.fraction.length ≤ n) :
    a.magnitude * 10 ^ n = (a.coefficient * 10 ^ (n - a.fraction.length) : Nat) := by
  have hexact : a.magnitude * 10 ^ a.fraction.length = a.coefficient := by
    rw [magnitude, coefficient, natOfDigits_append, fractionValue, add_mul,
      div_mul_cancel₀ _ (by positivity)]
    push_cast
    rfl
  calc
    a.magnitude * 10 ^ n
        = a.magnitude * 10 ^ a.fraction.length * 10 ^ (n - a.fraction.length) := by
      rw [mul_assoc, ← pow_add, Nat.add_sub_cancel' h]
    _ = _ := by
      rw [hexact]
      push_cast
      rfl

theorem abs_value (a : Decimal) : |a.value| = a.magnitude := by
  unfold value
  split
  · rw [abs_neg, abs_of_nonneg a.magnitude_nonneg]
  · exact abs_of_nonneg a.magnitude_nonneg

/-- The last digit after the point is no zero. -/
theorem IsProper.not_ten_dvd_coefficient (h : a.IsProper) (hne : a.fraction ≠ []) :
    ¬ 10 ∣ a.coefficient := by
  obtain ⟨before, last, hlast⟩ : ∃ before last, a.fraction = before ++ [last] :=
    ⟨_, _, (List.dropLast_append_getLast hne).symm⟩
  have hdigit := isDigit_bounds (h.fractionDigits last (by rw [hlast]; simp))
  have hzero : last.toNat ≠ 48 := by
    intro heq
    have hchar : last = '0' := Char.toNat_inj.mp heq
    exact h.noTrailingZero (by rw [hlast, hchar]; simp)
  rw [coefficient, hlast, ← List.append_assoc, natOfDigits_append, natOfDigits_cons, natOfDigits_nil]
  simp only [List.length_nil, List.length_singleton, pow_zero, pow_one]
  omega

theorem IsProper.coefficient_lt (h : a.IsProper) :
    a.coefficient < 10 ^ (a.whole.length + a.fraction.length) := by
  rw [← List.length_append]
  exact natOfDigits_lt (List.forall_mem_append.mpr ⟨h.wholeDigits, h.fractionDigits⟩)

/-- Before the point the first digit is no zero. -/
theorem IsProper.pow_le_coefficient (h : a.IsProper) (hne : a.whole ≠ []) :
    10 ^ (a.whole.length + a.fraction.length - 1) ≤ a.coefficient := by
  obtain ⟨first, rest, hwhole⟩ := List.exists_cons_of_ne_nil hne
  have hzero : NoLeadingZero (a.whole ++ a.fraction) := by
    have := h.noLeadingZero
    simpa [NoLeadingZero, hwhole] using this
  rw [← List.length_append]
  exact pow_le_natOfDigits (List.forall_mem_append.mpr ⟨h.wholeDigits, h.fractionDigits⟩)
    (by simp [hne]) hzero

/-! ## Digits that a number needs -/

/-- A power of ten that makes the number whole moves the point behind all digits. -/
theorem IsProper.fraction_length_le (h : a.IsProper) {i : Int} (hi : a.value * 10 ^ n = i) :
    a.fraction.length ≤ n := by
  by_contra hlt
  have hlt : n < a.fraction.length := not_le.mp hlt
  have habs : a.magnitude * 10 ^ n = i.natAbs := by
    have hpow : (0 : ℚ) < 10 ^ n := by positivity
    rw [← abs_value, Nat.cast_natAbs, Int.cast_abs, ← hi, abs_mul, abs_of_pos hpow]
  have hcoefficient : (a.coefficient : ℚ) = i.natAbs * 10 ^ (a.fraction.length - n) := by
    have hexact := magnitude_mul_pow_of_le (le_refl a.fraction.length)
    rw [Nat.sub_self, pow_zero, Nat.mul_one] at hexact
    rw [← hexact, ← habs, mul_assoc, ← pow_add, Nat.add_sub_cancel' hlt.le]
  have hcoefficient : a.coefficient = i.natAbs * 10 ^ (a.fraction.length - n) := by
    exact_mod_cast hcoefficient
  refine h.not_ten_dvd_coefficient (List.ne_nil_of_length_pos (by omega)) ?_
  rw [hcoefficient]
  exact Dvd.dvd.mul_left (dvd_pow_self 10 (by omega)) _

/-- The coefficient with the sign of the number. -/
theorem exists_value_mul_pow (h : a.fraction.length ≤ n) :
    ∃ i : Int, a.value * 10 ^ n = i ∧ i.natAbs = a.coefficient * 10 ^ (n - a.fraction.length) := by
  have hmagnitude := magnitude_mul_pow_of_le h
  generalize a.coefficient * 10 ^ (n - a.fraction.length) = k at hmagnitude
  unfold value
  split
  · exact ⟨-k, by rw [neg_mul, hmagnitude, Int.cast_neg, Int.cast_natCast], by simp⟩
  · exact ⟨k, by rw [hmagnitude, Int.cast_natCast], by simp⟩

/-- A decimal has as many digits after the point as it takes to make the number whole. -/
theorem IsProper.fraction_length_le_iff (h : a.IsProper) :
    a.fraction.length ≤ n ↔ ∃ i : Int, a.value * 10 ^ n = i := by
  constructor
  · intro hle
    obtain ⟨i, hi, -⟩ := exists_value_mul_pow hle
    exact ⟨i, hi⟩
  · rintro ⟨i, hi⟩
    exact h.fraction_length_le hi

/-- The digits of a decimal are as many as an integer needs that is the number but for the
point, which stands among its digits or before them. -/
theorem IsProper.digits_length_le_iff (h : a.IsProper) :
    a.whole.length + a.fraction.length ≤ most ↔
      ∃ (i : Int) (n : Nat), a.value * 10 ^ n = i ∧ i.natAbs < 10 ^ most ∧ n ≤ most := by
  constructor
  · intro hle
    obtain ⟨i, hi, habs⟩ := exists_value_mul_pow (le_refl a.fraction.length)
    rw [Nat.sub_self, pow_zero, Nat.mul_one] at habs
    refine ⟨i, a.fraction.length, hi, ?_, by omega⟩
    rw [habs]
    exact h.coefficient_lt.trans_le (Nat.pow_le_pow_right (by decide) hle)
  · rintro ⟨i, n, hi, hlt, hn⟩
    have hfraction := h.fraction_length_le hi
    rcases eq_or_ne a.whole [] with hnil | hne
    · rw [hnil, List.length_nil]
      omega
    · obtain ⟨j, hj, habs⟩ := exists_value_mul_pow hfraction
      obtain rfl : i = j := by exact_mod_cast hi.symm.trans hj
      have hpow : 10 ^ (a.whole.length + a.fraction.length - 1 + (n - a.fraction.length)) < 10 ^ most :=
        calc
          10 ^ (a.whole.length + a.fraction.length - 1 + (n - a.fraction.length))
              = 10 ^ (a.whole.length + a.fraction.length - 1) * 10 ^ (n - a.fraction.length) :=
            pow_add _ _ _
          _ ≤ a.coefficient * 10 ^ (n - a.fraction.length) :=
            Nat.mul_le_mul_right _ (h.pow_le_coefficient hne)
          _ < 10 ^ most := habs ▸ hlt
      have := (Nat.pow_lt_pow_iff_right (by decide)).mp hpow
      omega

/-- The digits of magnitudes are the same if the magnitudes are. -/
theorem IsProper.digits_eq_of_magnitude (ha : a.IsProper) (hb : b.IsProper)
    (h : a.magnitude = b.magnitude) : a.whole = b.whole ∧ a.fraction = b.fraction :=
  eq_of_orderMagnitude ((ha.orderMagnitude_eq_compare hb).trans (compare_eq_iff_eq.mpr h))

/-- What an integer needs to be a number but for the point, in powers of ten. -/
theorem exists_mul_zpow_iff {q : ℚ} :
    (∃ i n : Int, q = i * 10 ^ (-n) ∧ |i| < 10 ^ most ∧ 0 ≤ n ∧ n ≤ most) ↔
      ∃ (i : Int) (n : Nat), q * 10 ^ n = i ∧ i.natAbs < 10 ^ most ∧ n ≤ most := by
  constructor
  · rintro ⟨i, n, rfl, hlt, hn, hmost⟩
    obtain ⟨n, rfl⟩ := Int.eq_ofNat_of_zero_le hn
    refine ⟨i, n, ?_, ?_, by exact_mod_cast hmost⟩
    · rw [zpow_neg, zpow_natCast, inv_mul_cancel_right₀ (by positivity)]
    · rw [Int.abs_eq_natAbs] at hlt
      exact_mod_cast hlt
  · rintro ⟨i, n, hi, hlt, hmost⟩
    refine ⟨i, n, ?_, ?_, by omega, by exact_mod_cast hmost⟩
    · rw [zpow_neg, zpow_natCast, ← hi, mul_inv_cancel_right₀ (by positivity)]
    · rw [Int.abs_eq_natAbs]
      exact_mod_cast hlt

end Decimal

namespace FacetSet

variable {value : Decimal} {most : Nat}

/-- A count of digits that is in range is the number of digits. -/
theorem checkDigits_totalDigits
    (h : value.whole.length + value.fraction.length < Decimal.countBound) (hmost : 1 ≤ most) :
    checkDigits { totalDigits := some most } value = .ok () ↔
      value.whole.length + value.fraction.length ≤ most := by
  rw [checkDigits_eq_ok]
  simp only [AdmitsDigits, Decimal.totalDigits, Nat.mod_eq_of_lt h, Option.some.injEq, forall_eq',
    reduceCtorEq, false_implies, implies_true, and_true]
  omega

theorem checkDigits_fractionDigits (h : value.fraction.length < Decimal.countBound) :
    checkDigits { fractionDigits := some most } value = .ok () ↔ value.fraction.length ≤ most := by
  rw [checkDigits_eq_ok]
  simp only [AdmitsDigits, Decimal.fractionDigits, Nat.mod_eq_of_lt h, Option.some.injEq, forall_eq',
    reduceCtorEq, false_implies, implies_true, true_and]

/-- The digit facets admit the numbers that can be written with so many digits: as an
integer of at most `most` digits with the point moved by at most `most` places, or with at
most `most` digits after the point. So the sign of a text and idle zeros in it do not
matter. -/
theorem checkDigits_iff {text : List Char} {q : ℚ} (hread : Decimal.parse? text = some value)
    (hq : Decimal.Denotes text q)
    (hcount : value.whole.length + value.fraction.length < Decimal.countBound) :
    (∀ most, 1 ≤ most → (checkDigits { totalDigits := some most } value = .ok () ↔
      ∃ i n : Int, q = i * 10 ^ (-n) ∧ |i| < 10 ^ most ∧ 0 ≤ n ∧ n ≤ most)) ∧
    (∀ most, checkDigits { fractionDigits := some most } value = .ok () ↔
      ∃ i : Int, q * 10 ^ most = i) ∧
    ∀ facets other value' p, Decimal.parse? other = some value' → Decimal.Denotes other p →
      |p| = |q| → (checkDigits facets value' = .ok () ↔ checkDigits facets value = .ok ()) := by
  have hproper := Decimal.parse?_isProper hread
  obtain rfl := (Decimal.denotes_iff hread).mp hq
  refine ⟨?_, ?_, ?_⟩
  · intro most hmost
    rw [checkDigits_totalDigits hcount hmost, hproper.digits_length_le_iff,
      Decimal.exists_mul_zpow_iff]
  · intro most
    rw [checkDigits_fractionDigits (by omega), hproper.fraction_length_le_iff]
  · intro facets other value' p hread' hp habs
    obtain rfl := (Decimal.denotes_iff hread').mp hp
    rw [Decimal.abs_value, Decimal.abs_value] at habs
    obtain ⟨hwhole, hfraction⟩ :=
      (Decimal.parse?_isProper hread').digits_eq_of_magnitude hproper habs
    simp only [checkDigits_eq_ok, AdmitsDigits, Decimal.totalDigits, Decimal.fractionDigits, hwhole,
      hfraction]

/-- `-00.0120`, a numeral of minus twelve thousandths. -/
def twelveThousandths : Decimal.Written :=
  ⟨.minus, ['0', '0'], some ['0', '1', '2', '0'], by simp, by simp, by decide⟩

/-- `0.012`, the canonical numeral without the sign. -/
def plainTwelveThousandths : Decimal.Written :=
  ⟨.absent, ['0'], some ['0', '1', '2'], by simp, by simp, by decide⟩

theorem checkDigits_iff_twelveThousandths :
    Decimal.parse? twelveThousandths.text = some ⟨true, [], ['0', '1', '2'], 1⟩ ∧
      Decimal.Denotes twelveThousandths.text (-12 / 1000) ∧
      (checkDigits { totalDigits := some 2 } ⟨true, [], ['0', '1', '2'], 1⟩ = .ok () ↔
        ∃ i n : Int, (-12 / 1000 : ℚ) = i * 10 ^ (-n) ∧ |i| < 10 ^ 2 ∧ 0 ≤ n ∧ n ≤ (2 : Nat)) ∧
      (checkDigits { fractionDigits := some 3 } ⟨true, [], ['0', '1', '2'], 1⟩ = .ok () ↔
        ∃ i : Int, (-12 / 1000 : ℚ) * 10 ^ 3 = i) ∧
      ∀ facets, checkDigits facets ⟨false, [], ['0', '1', '2'], 0⟩ = .ok () ↔
        checkDigits facets ⟨true, [], ['0', '1', '2'], 1⟩ = .ok () := by
  have hread : Decimal.parse? twelveThousandths.text = some ⟨true, [], ['0', '1', '2'], 1⟩ := by
    decide
  have hplain : Decimal.parse? plainTwelveThousandths.text = some ⟨false, [], ['0', '1', '2'], 0⟩ := by
    decide
  have hdenotes : Decimal.Denotes twelveThousandths.text (-12 / 1000) := by
    have hvalue : natOfDigits ['0', '1', '2', '0'] = 120 := rfl
    refine ⟨twelveThousandths, rfl, ?_⟩
    norm_num [Decimal.Written.value, twelveThousandths, Sign.apply, Sign.isMinus, fractionValue,
      show natOfDigits ['0', '0'] = 0 from rfl, hvalue]
  have hdenotes' : Decimal.Denotes plainTwelveThousandths.text (12 / 1000) := by
    have hvalue : natOfDigits ['0', '1', '2'] = 12 := rfl
    refine ⟨plainTwelveThousandths, rfl, ?_⟩
    norm_num [Decimal.Written.value, plainTwelveThousandths, Sign.apply, Sign.isMinus, fractionValue,
      show natOfDigits ['0'] = 0 from rfl, hvalue]
  obtain ⟨htotal, hfraction, hsame⟩ := checkDigits_iff hread hdenotes (by decide)
  exact ⟨hread, hdenotes, htotal 2 (by decide), hfraction 3,
    fun facets => hsame facets _ _ _ hplain hdenotes' (by norm_num [abs_div])⟩

end FacetSet

end SimpleTypes
