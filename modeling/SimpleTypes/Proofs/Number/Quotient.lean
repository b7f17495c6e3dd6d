import SimpleTypes.Proofs.Number.Magnitude

/-!
# Whole quotients

A quotient is rounded to as many fractional digits as fit, and then cut to its
whole part. If its fraction is close enough to one, the rounding lifts it to the
next whole number. Nothing else can go wrong.

* `IsMagnitude.wholeQuotient_spec`: no whole unit is left behind, and what is taken
  away exceeds the number by so little that their difference is exact.
* `IsMagnitude.wholeQuotient_mul_lt` and `IsMagnitude.wholeQuotient_lt`: how far a number is
  lifted. A small number of units is not reached.
* `IsMagnitude.wholeQuotient_mul_le`: numbers of few digits are not lifted.
* `wholeQuotient_congr`: the number decides, and not its scale.
-/

namespace SimpleTypes.Scaled

variable {num den scale : Nat}

/-! ## Quotients of natural numbers -/

/-- A quotient has the most fractional digits with which it fits, but none if it
fits with none. -/
theorem exists_quotientAt (num den most : Nat) :
    ∃ scale ≤ most, quotientAt num den most = (roundHalfEven (num * 10 ^ scale) den, scale) ∧
      ∀ finer ≤ most, roundHalfEven (num * 10 ^ finer) den < bound → finer ≤ scale := by
  induction most with
  | zero =>
    refine ⟨0, le_rfl, ?_, fun finer hfiner _ => hfiner⟩
    rw [quotientAt, pow_zero, Nat.mul_one]
  | succ most ih =>
    rw [quotientAt]
    split
    case isTrue => exact ⟨most + 1, le_rfl, rfl, fun finer hfiner _ => hfiner⟩
    case isFalse hlarge =>
      obtain ⟨scale, hscale, heq, hmost⟩ := ih
      refine ⟨scale, Nat.le_succ_of_le hscale, heq, fun finer hfiner hfits => ?_⟩
      rcases Nat.le_succ_iff.mp hfiner with hle | rfl
      · exact hmost finer hle hfits
      · exact absurd hfits hlarge

/-- The whole part of a quotient that was rounded to some fractional digits. -/
def wholeAt (num den scale : Nat) : Nat := roundHalfEven (num * 10 ^ scale) den / 10 ^ scale

theorem div_le_wholeAt (hden : 0 < den) : num / den ≤ wholeAt num den scale := by
  rw [wholeAt, Nat.le_div_iff_mul_le (by positivity)]
  refine le_trans ?_ (div_le_roundHalfEven _ _)
  rw [Nat.le_div_iff_mul_le hden, Nat.mul_right_comm]
  exact Nat.mul_le_mul_right _ (Nat.div_mul_le_self num den)

theorem lt_wholeAt_mul (hden : 0 < den) : num < (wholeAt num den scale + 1) * den :=
  (Nat.div_lt_iff_lt_mul hden).mp (Nat.lt_succ_of_le (div_le_wholeAt hden))

/-- A quotient is lifted only as far as one half of its last digit. -/
theorem wholeAt_mul_le (num den scale : Nat) :
    2 * 10 ^ scale * (wholeAt num den scale * den) ≤ 2 * 10 ^ scale * num + den := by
  calc 2 * 10 ^ scale * (wholeAt num den scale * den)
      = 2 * (wholeAt num den scale * 10 ^ scale * den) := by ring
    _ ≤ 2 * (roundHalfEven (num * 10 ^ scale) den * den) :=
        Nat.mul_le_mul_left 2 (Nat.mul_le_mul_right den (Nat.div_mul_le_self _ _))
    _ ≤ 2 * (num * 10 ^ scale) + den := two_mul_roundHalfEven_le _ _
    _ = 2 * 10 ^ scale * num + den := by ring

/-- The more digits a quotient has, the less it is lifted by. -/
theorem wholeAt_mul_lt {excess : Nat} (h : den < 2 * 10 ^ scale * excess) :
    wholeAt num den scale * den < num + excess := by
  have hlift := wholeAt_mul_le num den scale
  refine Nat.lt_of_mul_lt_mul_left (a := 2 * 10 ^ scale) ?_
  rw [Nat.mul_add]
  omega

/-- With enough digits a quotient is not lifted at all. -/
theorem wholeAt_mul_le_of_lt (h : den < 2 * 10 ^ scale) : wholeAt num den scale * den ≤ num := by
  by_contra hgt
  have hlift := wholeAt_mul_le num den scale
  have hnext : 2 * 10 ^ scale * (num + 1) ≤ 2 * 10 ^ scale * (wholeAt num den scale * den) :=
    Nat.mul_le_mul_left _ (not_le.mp hgt)
  rw [Nat.mul_add] at hnext
  omega

/-- A number of less than half a unit has no whole unit. -/
theorem wholeAt_eq_zero (h : 2 * num < den) : wholeAt num den scale = 0 := by
  by_contra hne
  have hpos : 0 < 10 ^ scale := by positivity
  have hunit : den ≤ wholeAt num den scale * den :=
    Nat.le_mul_of_pos_left den (Nat.pos_of_ne_zero hne)
  have hlift := wholeAt_mul_le num den scale
  have hdouble : 2 * 10 ^ scale * den ≤ 2 * 10 ^ scale * (wholeAt num den scale * den) :=
    Nat.mul_le_mul_left _ hunit
  have hhalf : 10 ^ scale * (2 * num) < 10 ^ scale * den := Nat.mul_lt_mul_of_pos_left h hpos
  have hden : den ≤ 10 ^ scale * den := Nat.le_mul_of_pos_left den hpos
  have hcomm : 10 ^ scale * (2 * num) = 2 * (10 ^ scale * num) := by ring
  rw [Nat.mul_assoc, Nat.mul_assoc] at hlift hdouble
  omega

/-! ## Quotients of scaled decimals -/

variable {a b : Scaled} {divisor : Nat}

theorem exists_wholeQuotient (a : Scaled) (divisor : Nat) :
    ∃ scale, (∀ finer ≤ maxScale,
        roundHalfEven (a.coefficient.natAbs * 10 ^ finer) (divisor * 10 ^ a.scale) < bound →
          finer ≤ scale) ∧
      a.wholeQuotient divisor
        = if a.coefficient < 0 then
            -(wholeAt a.coefficient.natAbs (divisor * 10 ^ a.scale) scale : Int)
          else wholeAt a.coefficient.natAbs (divisor * 10 ^ a.scale) scale := by
  obtain ⟨scale, -, heq, hmost⟩ :=
    exists_quotientAt a.coefficient.natAbs (divisor * 10 ^ a.scale) maxScale
  refine ⟨scale, hmost, ?_⟩
  rw [wholeQuotient, Nat.pow_eq, heq]
  rfl

/-- A number below zero has no quotient above zero. -/
theorem wholeQuotient_nonpos (h : a.coefficient < 0) (divisor : Nat) :
    a.wholeQuotient divisor ≤ 0 := by
  obtain ⟨scale, -, heq⟩ := exists_wholeQuotient a divisor
  rw [heq, if_pos h]
  omega

/-- The quotient of a magnitude, with the digits to which it is rounded. -/
theorem IsMagnitude.exists_wholeQuotient (ha : a.IsMagnitude) (divisor : Nat) :
    ∃ (n scale : Nat), a.coefficient = n ∧
      a.wholeQuotient divisor = wholeAt n (divisor * 10 ^ a.scale) scale ∧
      ∀ finer ≤ maxScale, roundHalfEven (n * 10 ^ finer) (divisor * 10 ^ a.scale) < bound →
        finer ≤ scale := by
  obtain ⟨scale, hmost, heq⟩ := Scaled.exists_wholeQuotient a divisor
  refine ⟨a.coefficient.natAbs, scale, (Int.natAbs_of_nonneg ha.nonneg).symm, ?_, hmost⟩
  rw [heq, if_neg (not_lt.mpr ha.nonneg)]

/-- A number of less than half a unit, on either side of zero, has no whole unit. -/
theorem wholeQuotient_eq_zero (h : 2 * |a.value| < divisor) : a.wholeQuotient divisor = 0 := by
  obtain ⟨scale, -, heq⟩ := exists_wholeQuotient a divisor
  have hsmall : 2 * a.coefficient.natAbs < divisor * 10 ^ a.scale := by
    have hscaled : 2 * |a.value| * 10 ^ a.scale < divisor * 10 ^ a.scale := by gcongr
    rw [mul_assoc, ← natAbs_coefficient] at hscaled
    exact_mod_cast hscaled
  rw [heq, wholeAt_eq_zero hsmall]
  simp

/-- The quotient of a magnitude has every digit with which it fits. -/
theorem IsMagnitude.exists_wholeAt (ha : a.IsMagnitude) (hpos : 0 < divisor) {digits most : Nat}
    (hdigits : digits ≤ maxScale) (hmost : most < bound)
    (hle : a.coefficient * 10 ^ digits ≤ most * (divisor * 10 ^ a.scale : Nat)) :
    ∃ n scale : Nat, a.coefficient = n ∧ digits ≤ scale ∧
      a.wholeQuotient divisor = wholeAt n (divisor * 10 ^ a.scale) scale := by
  obtain ⟨n, scale, hn, heq, hfinest⟩ := ha.exists_wholeQuotient divisor
  have hden : 0 < divisor * 10 ^ a.scale := by positivity
  have hnum : n * 10 ^ digits ≤ most * (divisor * 10 ^ a.scale) := by
    rw [hn] at hle
    exact_mod_cast hle
  exact ⟨n, scale, hn, hfinest digits hdigits ((roundHalfEven_le hden hnum).trans_lt hmost), heq⟩

/-- Whether quotients by a divisor have enough digits, whatever number is divided: the
digits of the divisor itself are left to them. -/
def IsCoarse (divisor : Nat) : Prop :=
  ∃ digits ≤ maxScale, 10 ^ digits ≤ divisor ∧ divisor * 10 ^ maxScale < 2 * 10 ^ digits * bound

theorem IsCoarse.pos (h : IsCoarse divisor) : 0 < divisor := by
  obtain ⟨digits, -, hpow, -⟩ := h
  exact (Nat.pow_pos (by decide)).trans_le hpow

/-- The digits of a quotient by such a divisor. -/
theorem IsMagnitude.exists_wholeAt_of_isCoarse (ha : a.IsMagnitude) (hdivisor : IsCoarse divisor) :
    ∃ n scale : Nat, a.coefficient = n ∧ divisor * 10 ^ maxScale < 2 * 10 ^ scale * bound ∧
      a.wholeQuotient divisor = wholeAt n (divisor * 10 ^ a.scale) scale := by
  have hpos := hdivisor.pos
  obtain ⟨digits, hdigits, hpow, hbound⟩ := hdivisor
  obtain ⟨n, hn⟩ := Int.eq_ofNat_of_zero_le ha.nonneg
  have hmost : n < bound := by have := ha.lt; omega
  have hsame : a.coefficient * 10 ^ digits ≤ n * (divisor * 10 ^ a.scale : Nat) := by
    rw [hn]
    exact_mod_cast Nat.mul_le_mul_left n (hpow.trans (Nat.le_mul_of_pos_right _ (by positivity)))
  obtain ⟨n', scale, hn', hfine, heq⟩ := ha.exists_wholeAt hpos hdigits hmost hsame
  refine ⟨n', scale, hn', hbound.trans_le (Nat.mul_le_mul_right _ (Nat.mul_le_mul_left 2 ?_)), heq⟩
  exact Nat.pow_le_pow_right (by decide) hfine

/-- The whole units of a magnitude leave less than one unit, and what they exceed
it by is below the bound. -/
theorem IsMagnitude.wholeQuotient_spec (ha : a.IsMagnitude) (hdivisor : IsCoarse divisor) :
    0 ≤ a.wholeQuotient divisor ∧ a.value < (a.wholeQuotient divisor + 1) * divisor ∧
      |a.value - a.wholeQuotient divisor * divisor| * 10 ^ a.scale < bound := by
  have hpos := hdivisor.pos
  obtain ⟨n, scale, hn, hdigits, heq⟩ := ha.exists_wholeAt_of_isCoarse hdivisor
  have hnlt : n < bound := by have := ha.lt; omega
  have hden : divisor * 10 ^ a.scale < 2 * 10 ^ scale * bound :=
    (Nat.mul_le_mul_left _ (Nat.pow_le_pow_right (by decide) ha.scale)).trans_lt hdigits
  have hbelow : n < (wholeAt n (divisor * 10 ^ a.scale) scale + 1) * (divisor * 10 ^ a.scale) :=
    lt_wholeAt_mul (by positivity)
  have habove : wholeAt n (divisor * 10 ^ a.scale) scale * (divisor * 10 ^ a.scale) < n + bound :=
    wholeAt_mul_lt hden
  rw [heq]
  generalize wholeAt n (divisor * 10 ^ a.scale) scale = whole at hbelow habove
  have hpow' : (0 : ℚ) < 10 ^ a.scale := by positivity
  have hvalue : a.value * 10 ^ a.scale = n := by
    rw [value_mul_pow, hn, Int.cast_natCast]
  refine ⟨Int.natCast_nonneg whole, ?_, ?_⟩
  · rw [← mul_lt_mul_iff_left₀ hpow', hvalue, mul_assoc]
    exact_mod_cast hbelow
  · have hdifference : (a.value - (whole : Int) * divisor) * 10 ^ a.scale
        = ((n - (whole * (divisor * 10 ^ a.scale) : Nat) : Int) : ℚ) := by
      push_cast
      rw [sub_mul, hvalue, mul_assoc]
    have hlt : |(n - (whole * (divisor * 10 ^ a.scale) : Nat) : Int)| < bound := by
      rw [abs_lt]
      omega
    rw [← abs_of_pos hpow', ← abs_mul, hdifference]
    exact_mod_cast hlt

/-- The whole units exceed a magnitude by less than eight. -/
theorem IsMagnitude.wholeQuotient_mul_lt (ha : a.IsMagnitude) (hdivisor : IsCoarse divisor) :
    a.wholeQuotient divisor * divisor < a.value + 8 := by
  obtain ⟨n, scale, hn, hdigits, heq⟩ := ha.exists_wholeAt_of_isCoarse hdivisor
  have hbelow : divisor < 2 * 10 ^ scale * 8 := by
    simp only [maxScale, bound] at hdigits
    omega
  have hlift : wholeAt n (divisor * 10 ^ a.scale) scale * (divisor * 10 ^ a.scale)
      < n + 8 * 10 ^ a.scale := by
    refine wholeAt_mul_lt ?_
    rw [← Nat.mul_assoc]
    exact Nat.mul_lt_mul_of_pos_right hbelow (by positivity)
  have hpow : (0 : ℚ) < 10 ^ a.scale := by positivity
  rw [← mul_lt_mul_iff_left₀ hpow, add_mul, value_mul_pow, hn, heq, mul_assoc]
  exact_mod_cast hlift

/-- The whole units are not more than the number, if the quotient fits with enough digits. -/
theorem IsMagnitude.wholeQuotient_mul_le_of_lt (ha : a.IsMagnitude) (hpos : 0 < divisor)
    {digits most : Nat} (hdigits : digits ≤ maxScale) (hmost : most < bound)
    (hle : a.coefficient * 10 ^ digits ≤ most * (divisor * 10 ^ a.scale : Nat))
    (henough : divisor * 10 ^ a.scale < 2 * 10 ^ digits) :
    a.wholeQuotient divisor * divisor ≤ a.value := by
  obtain ⟨n, scale, hn, hfine, heq⟩ := ha.exists_wholeAt hpos hdigits hmost hle
  have hwhole : wholeAt n (divisor * 10 ^ a.scale) scale * (divisor * 10 ^ a.scale) ≤ n :=
    wholeAt_mul_le_of_lt (henough.trans_le
      (Nat.mul_le_mul_left 2 (Nat.pow_le_pow_right (by decide) hfine)))
  rw [heq, value, hn, le_div_iff₀ (by positivity), mul_assoc]
  exact_mod_cast hwhole

/-- The whole units are not more than the number, if it has few enough digits for the
quotient to get `digits` more of its own. -/
theorem IsMagnitude.wholeQuotient_mul_le (ha : a.IsMagnitude) {digits : Nat}
    (hfew : divisor < 2 * 10 ^ digits) (hmany : 10 ^ digits ≤ 3 * divisor)
    (hscale : a.scale + digits ≤ maxScale) (hsmall : 3 * a.coefficient < bound) :
    a.wholeQuotient divisor * divisor ≤ a.value := by
  have hpos : 0 < 10 ^ digits := by positivity
  obtain ⟨n, hn⟩ := Int.eq_ofNat_of_zero_le ha.nonneg
  have hthrice : n * 10 ^ (a.scale + digits) ≤ 3 * n * (divisor * 10 ^ a.scale) :=
    calc n * 10 ^ (a.scale + digits)
        = n * 10 ^ a.scale * 10 ^ digits := by rw [pow_add, mul_assoc]
      _ ≤ n * 10 ^ a.scale * (3 * divisor) := Nat.mul_le_mul_left _ hmany
      _ = 3 * n * (divisor * 10 ^ a.scale) := by ring
  refine ha.wholeQuotient_mul_le_of_lt (by omega) hscale (by omega : 3 * n < bound) ?_ ?_
  · rw [hn]
    exact_mod_cast hthrice
  · calc divisor * 10 ^ a.scale
        < 2 * 10 ^ digits * 10 ^ a.scale := Nat.mul_lt_mul_of_pos_right hfew (by positivity)
      _ = 2 * 10 ^ (a.scale + digits) := by rw [mul_assoc, ← pow_add, add_comm]

/-- A magnitude below a small number of units does not have so many of them. With few digits
it is not lifted, and with many digits it is too small to be lifted so far. -/
theorem IsMagnitude.wholeQuotient_lt (ha : a.IsMagnitude) (hdivisor : IsCoarse divisor)
    {count coarse : Nat} (hlt : a.value < count * divisor) (hcount : count * 10 ^ 27 < bound)
    (hfew : divisor * 10 ^ coarse < 2 * 10 ^ 28)
    (hmany : bound + 8 * 10 ^ coarse ≤ count * divisor * 10 ^ coarse) :
    a.wholeQuotient divisor < count := by
  suffices hproduct : (a.wholeQuotient divisor * divisor : ℚ) < count * divisor by
    exact_mod_cast lt_of_mul_lt_mul_right hproduct (Nat.cast_nonneg divisor)
  rcases Nat.lt_or_ge a.scale coarse with hscale | hscale
  · have hcoefficient : (a.coefficient : ℚ) ≤ count * divisor * 10 ^ a.scale := by
      rw [← value_mul_pow]
      gcongr
    have hscaled : (a.coefficient * 10 ^ 27 : ℚ) ≤ count * 10 ^ 27 * (divisor * 10 ^ a.scale) := by
      linarith
    have henough : divisor * 10 ^ a.scale < 2 * 10 ^ 27 := by
      have hstep : 10 * (divisor * 10 ^ a.scale) ≤ divisor * 10 ^ coarse :=
        calc 10 * (divisor * 10 ^ a.scale)
            = divisor * 10 ^ (a.scale + 1) := by ring
          _ ≤ divisor * 10 ^ coarse :=
              Nat.mul_le_mul_left _ (Nat.pow_le_pow_right (by decide) hscale)
      omega
    refine (ha.wholeQuotient_mul_le_of_lt hdivisor.pos (by decide) hcount ?_ henough).trans_lt hlt
    exact_mod_cast hscaled
  · have hpow : (0 : ℚ) < 10 ^ coarse := by positivity
    have hmany : (bound + 8 * 10 ^ coarse : ℚ) ≤ count * divisor * 10 ^ coarse := mod_cast hmany
    have hsmall := ha.value_mul_pow_lt hscale
    have hvalue : a.value + 8 < count * divisor := by
      rw [← mul_lt_mul_iff_left₀ hpow]
      linarith
    exact (ha.wholeQuotient_mul_lt hdivisor).trans hvalue

/-! ## Equal numbers -/

theorem quotientAt_mul (num den most : Nat) {factor : Nat} (h : 0 < factor) :
    quotientAt (num * factor) (den * factor) most = quotientAt num den most := by
  induction most with
  | zero => rw [quotientAt, quotientAt, roundHalfEven_mul num den h]
  | succ most ih =>
    rw [quotientAt, quotientAt, ih, Nat.mul_right_comm, roundHalfEven_mul _ _ h]

/-- Equal numbers have the same quotients. -/
theorem wholeQuotient_congr (h : a.value = b.value) (divisor : Nat) :
    a.wholeQuotient divisor = b.wholeQuotient divisor := by
  refine congr_of_value (f := fun a => a.wholeQuotient divisor) (fun n scale => ?_) h
  have hsign : n * 10 < 0 ↔ n < 0 := by omega
  have habs : (n * 10).natAbs = n.natAbs * 10 := Int.natAbs_mul n 10
  have hden : divisor * Nat.pow 10 (scale + 1) = divisor * Nat.pow 10 scale * 10 := by
    rw [Nat.pow_eq, Nat.pow_eq, Nat.pow_succ, Nat.mul_assoc]
  simp only [wholeQuotient, hsign, habs, hden, quotientAt_mul _ _ _ (by decide : 0 < 10)]

end SimpleTypes.Scaled
