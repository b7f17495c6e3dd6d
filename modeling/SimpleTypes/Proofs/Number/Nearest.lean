import Mathlib.Order.Monotone.Basic
import Mathlib.Tactic.LinearCombination
import SimpleTypes.Proofs.Number.Magnitude
import SimpleTypes.Proofs.Number.Rounding

/-!
# Nearest numbers

Rounding to a binary format takes the nearest number of the format, and of two nearest
numbers the one with the even code. Numbers that are nearer to the number after the
largest become infinity, so infinity is given that number here.

* `IsNearest`: what the code of a number must be.
* `round_isNearest`: what `round` gives is such a code.
* `IsNearest.eq`: there is only one.
* `IsNearest.mono`: larger numbers have larger codes.
* `isNearest_value`: the number of a code has that code.
-/

namespace SimpleTypes.Format

variable {format : Format} {x y : ℚ} {a b code : Nat}

/-! ## Numbers of codes -/

/-- The number of a code. Infinity has the number that would follow the largest. -/
def value (format : Format) (code : Nat) : ℚ := format.units code / 2 ^ format.leastUnit

theorem value_zero (format : Format) : format.value 0 = 0 := by
  rw [value, units, if_pos format.block_pos, Nat.cast_zero, zero_div]

/-- From one code to the next the number grows by the step of its block. -/
theorem units_strictMono (format : Format) : StrictMono format.units := by
  refine strictMono_nat_of_lt_succ fun code => ?_
  obtain ⟨significand, power, rfl, hhigh, hlow⟩ := format.exists_significand code
  have hlow' : power = 0 ∨ format.block ≤ significand + 1 := hlow.imp_right Nat.le_succ_of_le
  rw [units_significand hhigh.le hlow, Nat.add_assoc, units_significand hhigh hlow']
  exact (Nat.mul_lt_mul_right (by positivity)).mpr (Nat.lt_succ_self significand)

theorem value_strictMono (format : Format) : StrictMono format.value := by
  intro a b h
  have hunits : (format.units a : ℚ) < format.units b := mod_cast format.units_strictMono h
  exact div_lt_div_of_pos_right hunits (by positivity)

/-! ## Nearest codes -/

/-- Whether a code is that of the number nearest to `x`. No other code has a number as near,
unless the code is even. -/
structure IsNearest (format : Format) (x : ℚ) (code : Nat) : Prop where
  le_infinity : code ≤ format.infinity
  lt_or_even : ∀ other ≤ format.infinity, other ≠ code →
    |x - format.value code| < |x - format.value other| ∨
      |x - format.value code| = |x - format.value other| ∧ Even code

section Distances

variable {u w : ℚ}

/-- Of two numbers the larger one is nearer from the middle on. -/
theorem abs_sub_lt_abs_sub_iff (h : u < w) : |x - w| < |x - u| ↔ u + w < 2 * x := by
  rw [← sq_lt_sq]
  constructor <;> intro hlt <;> nlinarith

theorem abs_sub_lt_abs_sub_iff' (h : u < w) : |x - u| < |x - w| ↔ 2 * x < u + w := by
  rw [← sq_lt_sq]
  constructor <;> intro hlt <;> nlinarith

theorem abs_sub_eq_abs_sub_iff (h : u < w) : |x - u| = |x - w| ↔ 2 * x = u + w := by
  rw [← sq_eq_sq_iff_abs_eq_abs]
  constructor
  · intro heq
    have hprod : (w - u) * (2 * x - (u + w)) = 0 := by linear_combination heq
    rcases mul_eq_zero.mp hprod with hzero | hzero <;> linarith
  · intro heq
    linear_combination (w - u) * heq

end Distances

/-- Only the codes next to a code have to be farther away. -/
theorem isNearest_of_adjacent (hcode : code ≤ format.infinity)
    (hbelow : ∀ c, c + 1 = code → format.value c + format.value code < 2 * x ∨
      2 * x = format.value c + format.value code ∧ Even code)
    (habove : code < format.infinity → 2 * x < format.value code + format.value (code + 1) ∨
      2 * x = format.value code + format.value (code + 1) ∧ Even code) :
    format.IsNearest x code := by
  refine ⟨hcode, fun other hother hne => ?_⟩
  rcases Nat.lt_or_gt_of_ne hne with hlt | hgt
  · obtain ⟨c, rfl⟩ : ∃ c, c + 1 = code := ⟨code - 1, by omega⟩
    have hvalue := format.value_strictMono hlt
    have hle : format.value other ≤ format.value c :=
      format.value_strictMono.monotone (Nat.le_of_lt_succ hlt)
    rw [abs_sub_lt_abs_sub_iff hvalue, eq_comm (a := |x - format.value (c + 1)|),
      abs_sub_eq_abs_sub_iff hvalue]
    rcases hbelow c rfl with hfar | ⟨htie, heven⟩
    · exact .inl (by linarith)
    · rcases hle.lt_or_eq with hfar | hnext
      · exact .inl (by linarith)
      · exact .inr ⟨by rw [hnext, htie], heven⟩
  · have hvalue := format.value_strictMono hgt
    have hle : format.value (code + 1) ≤ format.value other :=
      format.value_strictMono.monotone hgt
    rw [abs_sub_lt_abs_sub_iff' hvalue, abs_sub_eq_abs_sub_iff hvalue]
    rcases habove (lt_of_lt_of_le hgt hother) with hfar | ⟨htie, heven⟩
    · exact .inl (by linarith)
    · rcases hle.lt_or_eq with hfar | hnext
      · exact .inl (by linarith)
      · exact .inr ⟨by rw [← hnext, htie], heven⟩

/-! ## Rounding -/

/-- A quotient lies between the numbers of two adjacent codes, and rounding takes the nearer
of them. Here all numbers are counted in parts of units. -/
theorem exists_adjacent (hprecision : 1 < format.precision) (num : Nat) {den : Nat}
    (hden : 0 < den) :
    ∃ code nearest, format.round num den = min nearest format.infinity ∧
      format.units code * den ≤ num * 2 ^ format.leastUnit ∧
      num * 2 ^ format.leastUnit < format.units (code + 1) * den ∧
      (nearest = code ∧ 2 * (num * 2 ^ format.leastUnit)
          ≤ (format.units code + format.units (code + 1)) * den ∨
        nearest = code + 1 ∧ (format.units code + format.units (code + 1)) * den
          ≤ 2 * (num * 2 ^ format.leastUnit)) ∧
      (2 * (num * 2 ^ format.leastUnit) = (format.units code + format.units (code + 1)) * den →
        Even nearest) := by
  have hround := format.round_eq num den
  obtain ⟨hhigh, hlow⟩ := format.excess_cases (by omega) (num * 2 ^ format.leastUnit / den)
  generalize num * 2 ^ format.leastUnit = scaled at *
  generalize format.excess (scaled / den) = shift at *
  rw [Nat.div_div_eq_div_mul] at hhigh hlow
  have hdivision := Nat.div_add_mod' scaled (den * 2 ^ shift)
  have hmod := Nat.mod_lt scaled (by positivity : 0 < den * 2 ^ shift)
  have hcases := Scaled.roundHalfEven_cases scaled (den * 2 ^ shift)
  have heven := Scaled.even_roundHalfEven scaled (den * 2 ^ shift)
  generalize Scaled.roundHalfEven scaled (den * 2 ^ shift) = rounded at *
  generalize scaled / (den * 2 ^ shift) = whole at *
  have hstep (significand : Nat) :
      significand * 2 ^ shift * den = significand * (den * 2 ^ shift) := by ring
  have hunits := units_significand hhigh.le hlow
  have hnext : format.units (shift * format.block + whole + 1) = (whole + 1) * 2 ^ shift :=
    units_significand hhigh (hlow.imp_right Nat.le_succ_of_le)
  have hblock : Even format.block := (Nat.even_pow.mpr ⟨even_two, by omega⟩ : Even (2 ^ _))
  refine ⟨shift * format.block + whole, shift * format.block + rounded, hround, ?_⟩
  rw [hunits, hnext, Nat.add_mul (_ * _), hstep, hstep, Nat.add_mul whole, Nat.one_mul]
  refine ⟨by omega, by omega, by omega, fun htie => ?_⟩
  exact (hblock.mul_left shift).add (heven (by omega))

section Quotients

variable {num den : Nat}

theorem value_le_div_iff (hden : 0 < den) :
    format.value code ≤ (num / den : ℚ)
      ↔ format.units code * den ≤ num * 2 ^ format.leastUnit := by
  rw [value, div_le_div_iff₀ (by positivity) (by positivity)]
  exact_mod_cast Iff.rfl

theorem value_add_value_le_iff (hden : 0 < den) :
    format.value a + format.value b ≤ 2 * (num / den : ℚ)
      ↔ (format.units a + format.units b) * den ≤ 2 * (num * 2 ^ format.leastUnit) := by
  rw [value, value, ← add_div, ← mul_div_assoc, div_le_div_iff₀ (by positivity) (by positivity),
    mul_assoc]
  exact_mod_cast Iff.rfl

theorem le_value_add_value_iff (hden : 0 < den) :
    2 * (num / den : ℚ) ≤ format.value a + format.value b
      ↔ 2 * (num * 2 ^ format.leastUnit) ≤ (format.units a + format.units b) * den := by
  rw [value, value, ← add_div, ← mul_div_assoc, div_le_div_iff₀ (by positivity) (by positivity),
    mul_assoc]
  exact_mod_cast Iff.rfl

/-- Rounding gives the code of a nearest number. -/
theorem round_isNearest (hprecision : 1 < format.precision) (num : Nat) (hden : 0 < den) :
    format.IsNearest (num / den) (format.round num den) := by
  obtain ⟨code, nearest, hround, hlower, hupper, hhalf, htie⟩ :=
    exists_adjacent hprecision num hden
  rw [← value_le_div_iff hden] at hlower
  rw [← not_le, ← value_le_div_iff hden, not_le] at hupper
  rw [← value_add_value_le_iff hden, ← le_value_add_value_iff hden] at hhalf
  replace htie : 2 * (num / den : ℚ) = format.value code + format.value (code + 1) →
      Even nearest := fun heq =>
    htie (le_antisymm ((le_value_add_value_iff hden).mp heq.le)
      ((value_add_value_le_iff hden).mp heq.ge))
  rw [hround]
  generalize (num / den : ℚ) = x at *
  rcases Nat.lt_or_ge code format.infinity with hfinite | hinfinite
  · have hsucc := format.value_strictMono (Nat.lt_succ_self code)
    rcases hhalf with ⟨rfl, hle⟩ | ⟨rfl, hle⟩
    · rw [Nat.min_eq_left hfinite.le]
      refine isNearest_of_adjacent hfinite.le (fun c hc => .inl ?_) fun _ => ?_
      · have hbelow := format.value_strictMono (Nat.lt_of_lt_of_eq (Nat.lt_succ_self c) hc)
        linarith
      · exact hle.lt_or_eq.imp_right fun heq => ⟨heq, htie heq⟩
    · rw [Nat.min_eq_left hfinite]
      refine isNearest_of_adjacent hfinite (fun c hc => ?_) fun _ => .inl ?_
      · obtain rfl : c = code := Nat.succ.inj hc
        exact hle.lt_or_eq.imp_right fun heq => ⟨heq.symm, htie heq.symm⟩
      · have habove := format.value_strictMono (Nat.lt_succ_self (code + 1))
        linarith
  · -- From infinity on no code is nearer.
    have hle : format.infinity ≤ nearest := by omega
    rw [Nat.min_eq_right hle]
    refine isNearest_of_adjacent le_rfl (fun c hc => .inl ?_) (fun hlt => absurd hlt (lt_irrefl _))
    have hbelow := format.value_strictMono (Nat.lt_of_lt_of_eq (Nat.lt_succ_self c) hc)
    have hreached := format.value_strictMono.monotone hinfinite
    linarith

end Quotients

/-! ## Uniqueness -/

theorem IsNearest.le (h : format.IsNearest x a) (hb : b ≤ format.infinity) :
    |x - format.value a| ≤ |x - format.value b| := by
  rcases eq_or_ne b a with rfl | hne
  · exact le_rfl
  · rcases h.lt_or_even b hb hne with hlt | ⟨heq, -⟩
    · exact hlt.le
    · exact heq.le

/-- Two codes could only be as near as each other if both were even. Then a code between them
would be nearer. -/
theorem IsNearest.code_le (ha : format.IsNearest x a) (hb : format.IsNearest x b) : b ≤ a := by
  by_contra hgt
  have hlt : a < b := Nat.lt_of_not_le hgt
  have heq := le_antisymm (ha.le hb.le_infinity) (hb.le ha.le_infinity)
  have hevenA := (ha.lt_or_even b hb.le_infinity hlt.ne').resolve_left heq.not_lt
  have hevenB := (hb.lt_or_even a ha.le_infinity hlt.ne).resolve_left heq.not_gt
  have hbetween : a + 1 < b := by
    rcases hevenA.2 with ⟨i, rfl⟩
    rcases hevenB.2 with ⟨j, rfl⟩
    omega
  have hmiddle := (abs_sub_eq_abs_sub_iff (format.value_strictMono hlt)).mp heq
  have hnear := ha.le (hbetween.le.trans hb.le_infinity)
  rw [← not_lt, abs_sub_lt_abs_sub_iff (format.value_strictMono (Nat.lt_succ_self a))] at hnear
  have hnext := format.value_strictMono hbetween
  linarith

/-- There is only one code of a nearest number. -/
theorem IsNearest.eq (ha : format.IsNearest x a) (hb : format.IsNearest x b) : a = b :=
  le_antisymm (hb.code_le ha) (ha.code_le hb)

/-- Larger numbers have larger codes. -/
theorem IsNearest.mono (hx : format.IsNearest x a) (hy : format.IsNearest y b) (h : x ≤ y) :
    a ≤ b := by
  by_contra hlt
  have hvalue := format.value_strictMono (Nat.lt_of_not_le hlt)
  have hxb := hx.le hy.le_infinity
  have hya := hy.le hx.le_infinity
  rw [← not_lt, abs_sub_lt_abs_sub_iff' hvalue] at hxb
  rw [← not_lt, abs_sub_lt_abs_sub_iff hvalue] at hya
  obtain rfl : x = y := by linarith
  exact hlt (hx.eq hy).le

theorem isNearest_div_iff {num den : Nat} (hprecision : 1 < format.precision) (hden : 0 < den) :
    format.IsNearest (num / den) code ↔ format.round num den = code :=
  ⟨fun h => (round_isNearest hprecision num hden).eq h,
    fun h => h ▸ round_isNearest hprecision num hden⟩

/-- Between two numbers that have one code all numbers have it. -/
theorem IsNearest.of_between {num den : Nat} (hx : format.IsNearest x code)
    (hy : format.IsNearest y code) (hprecision : 1 < format.precision) (hden : 0 < den)
    (hlower : x ≤ num / den) (hupper : num / den ≤ y) : format.IsNearest (num / den) code := by
  have hround := round_isNearest hprecision num hden
  have hcode := le_antisymm (hx.mono hround hlower) (hround.mono hy hupper)
  rwa [← hcode] at hround

/-! ## Numbers of codes -/

theorem isNearest_value (h : code ≤ format.infinity) :
    format.IsNearest (format.value code) code := by
  refine ⟨h, fun other _ hne => .inl ?_⟩
  rw [sub_self, abs_zero]
  exact abs_pos.mpr (sub_ne_zero.mpr (format.value_strictMono.injective.ne hne.symm))

end SimpleTypes.Format
