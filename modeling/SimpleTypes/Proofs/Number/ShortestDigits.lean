import Mathlib.Algebra.Order.Field.Power
import SimpleTypes.Number.Shortest
import SimpleTypes.Proofs.Number.Nearest

/-!
# Shortest digits

The digits that are written for a number of a binary format are rounded to the number, and
no fewer digits are.

* `readsAs_iff`: what reads as a code is a number nearest to which is that of the code.
* `readsAs_of_between`: such numbers have no gaps between them.
* `shortestFrom_coarsest`: the search stops on the coarsest grid that has one of them.
* `shortest_isNearest`: the shortest digits of a code are rounded to the code.
* `shortest_length_le`: whatever else is rounded to the code has at least as many digits.
-/

namespace SimpleTypes.Format

variable {format : Format} {code units digits power : Nat}

/-! ## Reading back -/

theorem readsAs_iff (hprecision : 1 < format.precision) :
    format.readsAs code units = true
      ↔ format.IsNearest (units / (10 ^ format.leastUnit : Nat)) code := by
  rw [isNearest_div_iff hprecision (by positivity)]
  exact beq_iff_eq

theorem decimalUnits_div (format : Format) (code : Nat) :
    (format.decimalUnits code : ℚ) / (10 ^ format.leastUnit : Nat) = format.value code := by
  have hten : (10 ^ format.leastUnit : Nat) = 2 ^ format.leastUnit * 5 ^ format.leastUnit :=
    Nat.mul_pow 2 5 _
  rw [hten, value, decimalUnits, Nat.pow_eq, Nat.cast_mul, Nat.cast_mul,
    mul_div_mul_right _ _ (by positivity), Nat.cast_pow, Nat.cast_ofNat]

/-- On the finest grid a number is its own neighbour. -/
theorem readsAs_decimalUnits (hprecision : 1 < format.precision) (hcode : code ≤ format.infinity) :
    format.readsAs code (format.decimalUnits code) = true := by
  rw [readsAs_iff hprecision, decimalUnits_div]
  exact isNearest_value hcode

/-- What lies between two numbers that read as a code reads as it too. -/
theorem readsAs_of_between {lower upper : Nat} (hprecision : 1 < format.precision)
    (hlower : format.readsAs code lower = true) (hupper : format.readsAs code upper = true)
    (hle : lower ≤ units) (hge : units ≤ upper) : format.readsAs code units = true := by
  rw [readsAs_iff hprecision] at *
  refine hlower.of_between hupper hprecision (by positivity) ?_ ?_ <;> gcongr

/-! ## Neighbours -/

/-- A neighbour on a grid is found if one of the two reads as the code. -/
theorem neighbour?_cases (format : Format) (code units power : Nat) :
    (∃ digits, format.neighbour? code units power = some digits ∧
        digits ≤ units / 10 ^ power + 1 ∧ format.readsAs code (digits * 10 ^ power) = true) ∨
      format.neighbour? code units power = none ∧
        ¬ format.readsAs code (units / 10 ^ power * 10 ^ power) = true ∧
        ¬ format.readsAs code ((units / 10 ^ power + 1) * 10 ^ power) = true := by
  unfold neighbour?
  dsimp only
  split
  case isTrue hlower =>
    rw [Bool.and_eq_true] at hlower
    exact .inl ⟨_, rfl, Nat.le_succ _, hlower.1⟩
  case isFalse hlower =>
    split
    case isTrue hupper => exact .inl ⟨_, rfl, le_rfl, hupper⟩
    case isFalse hupper =>
      refine .inr ⟨rfl, fun hreads => hlower ?_, hupper⟩
      rw [Bool.and_eq_true, Bool.or_eq_true, Bool.not_eq_true']
      exact ⟨hreads, .inl (Bool.eq_false_iff.mpr hupper)⟩

/-- If neither neighbour on a grid reads as the code, no number of the grid does. -/
theorem not_readsAs_of_neighbour? (hprecision : 1 < format.precision)
    (hunits : format.readsAs code units = true)
    (h : format.neighbour? code units power = none) (digits : Nat) :
    ¬ format.readsAs code (digits * 10 ^ power) = true := by
  obtain ⟨_, hsome, -⟩ | ⟨-, hlower, hupper⟩ := format.neighbour?_cases code units power
  · rw [h] at hsome
    cases hsome
  · intro hdigits
    rcases Nat.lt_or_ge (units / 10 ^ power) digits with hlt | hge
    · have hbelow : units ≤ (units / 10 ^ power + 1) * 10 ^ power :=
        (Nat.lt_mul_of_div_lt (Nat.lt_succ_self _) (by positivity)).le
      exact hupper (readsAs_of_between hprecision hunits hdigits hbelow
        (Nat.mul_le_mul_right _ hlt))
    · exact hlower (readsAs_of_between hprecision hdigits hunits (Nat.mul_le_mul_right _ hge)
        (Nat.div_mul_le_self _ _))

/-! ## The search -/

/-- Whatever grid the search stops on, what it has found there reads as the code. -/
theorem readsAs_shortestFrom (h : format.readsAs code units = true) (start : Nat) :
    format.readsAs code ((format.shortestFrom code units start).1
      * 10 ^ (format.shortestFrom code units start).2) = true := by
  induction start with
  | zero => rwa [shortestFrom, Nat.pow_zero, Nat.mul_one]
  | succ start ih =>
    rw [shortestFrom]
    obtain ⟨digits, hsome, -, hreads⟩ | ⟨hnone, -⟩ := format.neighbour?_cases code units (start + 1)
    · rw [hsome]
      exact hreads
    · rw [hnone]
      exact ih

theorem shortestFrom_le (format : Format) (code units start : Nat) :
    (format.shortestFrom code units start).2 ≤ start := by
  induction start with
  | zero => exact le_rfl
  | succ start ih =>
    rw [shortestFrom]
    split
    · exact le_rfl
    · exact Nat.le_succ_of_le ih

/-- The search passes a grid only if no number there reads as the code. -/
theorem not_readsAs_of_passed (hprecision : 1 < format.precision)
    (hunits : format.readsAs code units = true) {start : Nat}
    (hlow : (format.shortestFrom code units start).2 < power) (hhigh : power ≤ start)
    (digits : Nat) : ¬ format.readsAs code (digits * 10 ^ power) = true := by
  induction start with
  | zero => exact absurd (hlow.trans_le hhigh) (Nat.not_lt_zero _)
  | succ start ih =>
    rw [shortestFrom] at hlow
    cases hneighbour : format.neighbour? code units (start + 1) with
    | some found =>
      rw [hneighbour] at hlow
      exact absurd hhigh (Nat.not_le.mpr hlow)
    | none =>
      rw [hneighbour] at hlow
      rcases hhigh.lt_or_eq with hlt | rfl
      · exact ih hlow (Nat.le_of_lt_succ hlt)
      · exact not_readsAs_of_neighbour? hprecision hunits hneighbour digits

/-- The first grid is so coarse that what is found there has one digit. -/
theorem shortestFrom_first {start : Nat} (hsmall : units < 10 ^ start) (hpos : 0 < start)
    (h : (format.shortestFrom code units start).2 = start) :
    (format.shortestFrom code units start).1 ≤ 1 := by
  obtain ⟨start, rfl⟩ := Nat.exists_eq_succ_of_ne_zero hpos.ne'
  rw [shortestFrom] at h ⊢
  obtain ⟨digits, hsome, hle, -⟩ | ⟨hnone, -⟩ := format.neighbour?_cases code units (start + 1)
  · rw [hsome]
    rwa [Nat.div_eq_of_lt hsmall] at hle
  · rw [hnone] at h
    exact absurd h (Nat.ne_of_lt (Nat.lt_succ_of_le (format.shortestFrom_le code units start)))

/-- The digits that the search finds count the coarsest grid with a number that reads as the
code, unless there is only one digit. -/
theorem shortest_coarsest (hprecision : 1 < format.precision)
    (hunits : format.readsAs code units = true) {start : Nat} (hsmall : units < 10 ^ start)
    (hpos : 0 < start) (hdigits : 1 < (format.shortestFrom code units start).1)
    (hpower : (format.shortestFrom code units start).2 < power) (digits : Nat) :
    ¬ format.readsAs code (digits * 10 ^ power) = true := by
  rcases Nat.le_total power start with hle | hge
  · exact not_readsAs_of_passed hprecision hunits hpower hle digits
  · -- Coarser grids than the first are part of it.
    have hstart : (format.shortestFrom code units start).2 < start := by
      refine lt_of_le_of_ne (format.shortestFrom_le code units start) fun heq => ?_
      exact absurd (shortestFrom_first hsmall hpos heq) (Nat.not_le.mpr hdigits)
    have hsplit : digits * 10 ^ power = digits * 10 ^ (power - start) * 10 ^ start := by
      rw [Nat.mul_assoc, ← Nat.pow_add, Nat.sub_add_cancel hge]
    rw [hsplit]
    exact not_readsAs_of_passed hprecision hunits hstart le_rfl _

/-- What a grid counts, in decimal units. -/
theorem mul_zpow_eq_div (format : Format) (m power : Nat) :
    (m : ℚ) * 10 ^ ((power : Int) - format.leastUnit)
      = (m * 10 ^ power : Nat) / (10 ^ format.leastUnit : Nat) := by
  rw [zpow_sub₀ (by norm_num), zpow_natCast, zpow_natCast, mul_div_assoc']
  push_cast
  rfl

/-- The shortest digits of a code are those of a number nearest to which is that of the code. -/
theorem shortest_isNearest (hprecision : 1 < format.precision) (hcode : code ≤ format.infinity) :
    format.IsNearest ((format.shortest code).1 * 10 ^ (format.shortest code).2) code := by
  have hreads := readsAs_shortestFrom (readsAs_decimalUnits hprecision hcode)
    (numeral (format.decimalUnits code)).length
  rw [readsAs_iff hprecision, ← mul_zpow_eq_div] at hreads
  exact hreads

/-- Digits on the coarsest grid with a number that reads as the code cannot be shortened. Fewer
digits on a finer grid would count less than the power of ten of the first digit, which is on
a coarser grid and would read as the code. -/
theorem length_le_of_coarsest (hprecision : 1 < format.precision)
    (hreads : format.readsAs code (digits * 10 ^ power) = true)
    (hcoarsest : 1 < digits → ∀ coarser, power < coarser →
      ∀ other, ¬ format.readsAs code (other * 10 ^ coarser) = true)
    {m : Nat} {e : Int} (h : format.IsNearest (m * 10 ^ e) code) :
    (numeral digits).length ≤ (numeral m).length := by
  by_contra hshorter
  have hone : 0 < (numeral m).length := List.length_pos_of_ne_nil (numeral_ne_nil m)
  have hten : 10 ≤ digits := by
    by_contra hlt
    have hdigit : (numeral digits).length ≤ 1 := numeral_length_le Nat.one_pos (by omega)
    exact hshorter (hdigit.trans hone)
  have hfirst : 10 ^ ((numeral digits).length - 1) ≤ digits := pow_numeral_length_le (by omega)
  have hm : m < 10 ^ ((numeral digits).length - 1) :=
    (lt_pow_numeral_length m).trans_le (Nat.pow_le_pow_right (by decide) (by omega))
  rcases Int.lt_or_le (power : Int) (e + format.leastUnit) with hcoarse | hfine
  · obtain ⟨coarser, hcoarser⟩ := Int.eq_ofNat_of_zero_le (by omega : 0 ≤ e + format.leastUnit)
    obtain rfl : e = (coarser : Int) - format.leastUnit := by omega
    rw [mul_zpow_eq_div, ← readsAs_iff hprecision] at h
    exact hcoarsest (by omega) coarser (by omega) m h
  · have hpower : 10 ^ ((numeral digits).length - 1 + power)
        = 10 ^ ((numeral digits).length - 1) * 10 ^ power := Nat.pow_add _ _ _
    refine hcoarsest (by omega) ((numeral digits).length - 1 + power) (by omega) 1 ?_
    rw [readsAs_iff hprecision] at hreads ⊢
    rw [Nat.one_mul, hpower]
    refine h.of_between hreads hprecision (by positivity) ?_ (by gcongr)
    rw [← mul_zpow_eq_div]
    have hdigits : (m : ℚ) ≤ (10 ^ ((numeral digits).length - 1) : Nat) := by exact_mod_cast hm.le
    gcongr
    · norm_num
    · exact Int.le_sub_right_of_add_le hfine

/-- Whatever is rounded to a code has at least as many digits as are written for it. -/
theorem shortest_length_le (hprecision : 1 < format.precision) (hcode : code ≤ format.infinity)
    {m : Nat} {e : Int} (h : format.IsNearest (m * 10 ^ e) code) :
    (numeral (format.shortest code).1).length ≤ (numeral m).length := by
  have hunits := readsAs_decimalUnits hprecision hcode
  refine length_le_of_coarsest hprecision (readsAs_shortestFrom hunits _) ?_ h
  intro hdigits coarser hcoarser other
  exact shortest_coarsest hprecision hunits (lt_pow_numeral_length _)
    (List.length_pos_of_ne_nil (numeral_ne_nil _)) hdigits hcoarser other

end SimpleTypes.Format
