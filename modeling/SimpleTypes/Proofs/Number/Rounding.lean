import SimpleTypes.Number.Floating
import SimpleTypes.Proofs.Number.Numerals

/-!
# Rounding to a binary format

The numbers of the codes are significands with a step that doubles from one block of codes to
the next. A number is rounded to a whole number of the steps of its own size.

* `exists_significand` and `units_significand`: the number of a code is a significand in
  steps of a power of two.
* `excess_cases`: the step that is taken for a number leaves a significand.
* `round_eq_infinity` and `round_eq_zero`: numbers far out of range.
-/

namespace SimpleTypes.Format

variable {format : Format} {num den code : Nat}

theorem round_eq (format : Format) (num den : Nat) :
    format.round num den =
      min (format.excess (num * 2 ^ format.leastUnit / den) * format.block
        + Scaled.roundHalfEven (num * 2 ^ format.leastUnit)
            (den * 2 ^ format.excess (num * 2 ^ format.leastUnit / den))) format.infinity := rfl

theorem round_le_infinity (format : Format) (num den : Nat) :
    format.round num den ≤ format.infinity :=
  Nat.min_le_right _ _

/-! ## Numbers of codes -/

theorem block_pos (format : Format) : 0 < format.block := Nat.pow_pos (by decide)

theorem two_mul_block (hprecision : 0 < format.precision) :
    2 * format.block = 2 ^ format.precision := by
  obtain ⟨digits, hdigits⟩ := Nat.exists_eq_add_of_lt hprecision
  rw [block, hdigits, Nat.zero_add, Nat.add_sub_cancel, Nat.pow_succ, Nat.mul_comm]
  rfl

/-- Every code is a significand behind the blocks of a power of two. The significand has
full length unless the power is zero. -/
theorem exists_significand (format : Format) (code : Nat) :
    ∃ significand power, code = power * format.block + significand ∧
      significand < 2 * format.block ∧ (power = 0 ∨ format.block ≤ significand) := by
  by_cases hsmall : code < format.block
  · exact ⟨code, 0, by omega, by omega, .inl rfl⟩
  · have hfield : 0 < code / format.block := Nat.div_pos (Nat.le_of_not_lt hsmall) format.block_pos
    have hrest : code % format.block < format.block := Nat.mod_lt _ format.block_pos
    refine ⟨format.block + code % format.block, code / format.block - 1, ?_, by omega,
      .inr (Nat.le_add_right _ _)⟩
    calc
      code = code / format.block * format.block + code % format.block :=
        (Nat.div_add_mod' code format.block).symm
      _ = (code / format.block - 1 + 1) * format.block + code % format.block := by
        rw [Nat.sub_add_cancel hfield]
      _ = (code / format.block - 1) * format.block + (format.block + code % format.block) := by
        rw [Nat.add_mul, Nat.one_mul, Nat.add_assoc]

/-- The number of a significand in steps of a power of two, up to the first number with the
next longer step. -/
theorem units_significand {significand power : Nat} (hhigh : significand ≤ 2 * format.block)
    (hlow : power = 0 ∨ format.block ≤ significand) :
    format.units (power * format.block + significand) = significand * 2 ^ power := by
  have hpos := format.block_pos
  have hfield (field rest : Nat) (hrest : rest < format.block) :
      format.units ((field + 1) * format.block + rest) = (format.block + rest) * 2 ^ field := by
    have hlong : ¬ (field + 1) * format.block + rest < format.block := by
      rw [Nat.add_mul]
      omega
    have hdiv : ((field + 1) * format.block + rest) / format.block = field + 1 := by
      rw [Nat.add_comm, Nat.add_mul_div_right _ _ hpos, Nat.div_eq_of_lt hrest, Nat.zero_add]
    have hmod : ((field + 1) * format.block + rest) % format.block = rest := by
      rw [Nat.mul_add_mod', Nat.mod_eq_of_lt hrest]
    rw [units, if_neg hlong, hdiv, hmod, Nat.add_sub_cancel]
    rfl
  by_cases hsmall : significand < format.block
  · obtain rfl : power = 0 := hlow.resolve_right (Nat.not_le.mpr hsmall)
    rw [Nat.zero_mul, Nat.zero_add, Nat.pow_zero, Nat.mul_one]
    exact if_pos hsmall
  · obtain ⟨rest, rfl⟩ := Nat.exists_eq_add_of_le (Nat.le_of_not_lt hsmall)
    rcases Nat.lt_or_ge rest format.block with hrest | hrest
    · rw [← hfield power rest hrest, Nat.add_mul, Nat.one_mul, Nat.add_assoc]
    · obtain rfl : rest = format.block := by omega
      calc
        format.units (power * format.block + (format.block + format.block))
            = format.units ((power + 1 + 1) * format.block + 0) := by
          congr 1
          ring
        _ = format.block * 2 ^ (power + 1) := hfield (power + 1) 0 hpos
        _ = (format.block + format.block) * 2 ^ power := by ring

/-- The step that is taken for a number of units leaves a significand. -/
theorem excess_cases (format : Format) (hprecision : 0 < format.precision) (units : Nat) :
    units / 2 ^ format.excess units < 2 * format.block ∧
      (format.excess units = 0 ∨ format.block ≤ units / 2 ^ format.excess units) := by
  have hpow := two_mul_block hprecision
  by_cases hshort : units < Nat.pow 2 format.precision
  · have hzero : format.excess units = 0 := if_pos hshort
    rw [hzero, Nat.pow_zero, Nat.div_one, hpow]
    exact ⟨hshort, .inl rfl⟩
  · have hlong : 2 ^ format.precision ≤ units := Nat.le_of_not_lt hshort
    have hne : units ≠ 0 := Nat.ne_of_gt (lt_of_lt_of_le (by positivity) hlong)
    have hexcess : format.excess units = units.log2 + 1 - format.precision := if_neg hshort
    have hlog : format.precision ≤ units.log2 := (Nat.le_log2 hne).mpr hlong
    have hhigh : units < 2 ^ (units.log2 + 1) := Nat.lt_log2_self
    have hlow : 2 ^ units.log2 ≤ units := Nat.log2_self_le hne
    rw [hexcess]
    refine ⟨?_, .inr ?_⟩
    · rw [Nat.div_lt_iff_lt_mul (by positivity), hpow, ← Nat.pow_add]
      rwa [Nat.add_sub_cancel' (Nat.le_succ_of_le hlog)]
    · rw [Nat.le_div_iff_mul_le (by positivity)]
      have hsplit : format.block * 2 ^ (units.log2 + 1 - format.precision) = 2 ^ units.log2 := by
        calc
          format.block * 2 ^ (units.log2 + 1 - format.precision)
              = 2 ^ (format.precision - 1 + (units.log2 + 1 - format.precision)) :=
            (Nat.pow_add _ _ _).symm
          _ = 2 ^ units.log2 := by
            congr 1
            omega
      rwa [hsplit]

/-! ## Numbers out of range -/

/-- Whether a format has no numbers from `10 ^ exponentRange` on, and none but zero that is
nearest to numbers below `10 ^ -exponentRange`. A significand has a second digit. -/
structure IsInRange (format : Format) : Prop where
  one_lt_precision : 1 < format.precision
  infinity_le : format.precision + format.infiniteExponent ≤ 3 * Numeral.exponentRange
  leastUnit_lt : format.leastUnit < 3 * Numeral.exponentRange

theorem isInRange_single : single.IsInRange := ⟨by decide, by decide, by decide⟩

theorem isInRange_double : double.IsInRange := ⟨by decide, by decide, by decide⟩

theorem two_pow_le_ten_pow (n : Nat) : 2 ^ (3 * n) ≤ 10 ^ n := by
  rw [Nat.pow_mul]
  exact Nat.pow_le_pow_left (by decide) n

theorem round_eq_infinity (hrange : format.IsInRange) (hden : 0 < den)
    (h : 10 ^ Numeral.exponentRange * den ≤ num) : format.round num den = format.infinity := by
  have hunits : 2 ^ (3 * Numeral.exponentRange) ≤ num * 2 ^ format.leastUnit / den := by
    rw [Nat.le_div_iff_mul_le hden]
    calc
      2 ^ (3 * Numeral.exponentRange) * den ≤ 10 ^ Numeral.exponentRange * den :=
        Nat.mul_le_mul_right _ (two_pow_le_ten_pow _)
      _ ≤ num := h
      _ ≤ num * 2 ^ format.leastUnit := Nat.le_mul_of_pos_right _ (by positivity)
  have hexcess : format.infiniteExponent ≤ format.excess (num * 2 ^ format.leastUnit / den) := by
    have hrange := hrange.infinity_le
    have hprecision : 2 ^ format.precision ≤ 2 ^ (3 * Numeral.exponentRange) :=
      Nat.pow_le_pow_right Nat.two_pos (by omega)
    have hlong : ¬ num * 2 ^ format.leastUnit / den < Nat.pow 2 format.precision :=
      Nat.not_lt.mpr (hprecision.trans hunits)
    have hne : num * 2 ^ format.leastUnit / den ≠ 0 :=
      Nat.ne_of_gt ((Nat.pow_pos (by decide)).trans_le hunits)
    have hlog := (Nat.le_log2 hne).mpr hunits
    rw [excess, if_neg hlong]
    omega
  rw [round_eq]
  exact Nat.min_eq_right ((Nat.mul_le_mul_right _ hexcess).trans (Nat.le_add_right _ _))

theorem round_eq_zero (hrange : format.IsInRange) (h : num * 10 ^ Numeral.exponentRange < den) :
    format.round num den = 0 := by
  have hhalf : 2 * (num * 2 ^ format.leastUnit) < den := by
    calc
      2 * (num * 2 ^ format.leastUnit) = num * 2 ^ (format.leastUnit + 1) := by
        rw [Nat.pow_succ]
        ring
      _ ≤ num * 2 ^ (3 * Numeral.exponentRange) :=
        Nat.mul_le_mul_left _ (Nat.pow_le_pow_right (by decide) hrange.leastUnit_lt)
      _ ≤ num * 10 ^ Numeral.exponentRange := Nat.mul_le_mul_left _ (two_pow_le_ten_pow _)
      _ < den := h
  have hsmall : num * 2 ^ format.leastUnit < den := by omega
  have hexcess : format.excess 0 = 0 := if_pos (Nat.pow_pos (by decide))
  rw [round_eq, Nat.div_eq_of_lt hsmall, hexcess, Nat.pow_zero, Nat.mul_one, Nat.zero_mul,
    Nat.zero_add]
  have hzero : Scaled.roundHalfEven (num * 2 ^ format.leastUnit) den = 0 := by
    simp only [Scaled.roundHalfEven, Nat.div_eq_of_lt hsmall, Nat.mod_eq_of_lt hsmall, hhalf,
      if_true]
  rw [hzero, Nat.zero_min]

end SimpleTypes.Format
