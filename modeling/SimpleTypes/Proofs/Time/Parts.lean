import SimpleTypes.Proofs.Time.DurationText

/-!
# Parts of a duration

The days, hours and minutes in the canonical text of a duration, and the seconds left. A
quotient may be lifted to the next whole number, and then the rest is below zero, but no more
than a few seconds. Nothing overflows, the hours and minutes stay below 24 and 60, and the
parts make up the duration exactly.

* `IsStep`: what taking away the whole units of one kind leaves. There is such a step for
  every number of seconds that fits (`exists_step_of_isMagnitude`) and for all that a step can
  leave (`IsLeft.exists_step`).
* `exists_checkedSplit?`: days, hours and minutes, one after the other.
* `Components.ShowsBelow.eq`: what a text with a rest below zero tells.
* `canonical_eq_iff_valueEq`: the parts of a duration that was read, and which durations have
  the same text.
-/

namespace SimpleTypes.Duration

open Scaled

variable {seconds rest : Scaled} {units days hours minutes : Int} {perUnit count : Nat}

/-! ## One unit -/

/-- What is left of some seconds after whole units are taken away, if neither the product nor
the difference overflows. -/
def takeAway? (seconds : Scaled) (units : Int) (perUnit : Nat) : Option Scaled := do
  let product ← (⟨units, 0⟩ : Scaled).mulWhole? perUnit
  seconds.sub? product

theorem remainder_of_takeAway? (h : takeAway? seconds units perUnit = some rest) :
    remainder seconds units perUnit = rest := by
  simp only [takeAway?, mulWhole?, Option.bind_eq_bind, Option.bind_eq_some_iff,
    Option.ite_none_right_eq_some, Option.some.injEq] at h
  obtain ⟨_, ⟨-, rfl⟩, h⟩ := h
  rw [remainder, h, Option.getD_some]

/-- What whole units can leave: less than one unit, and not much less than nothing. -/
structure IsLeft (perUnit : Nat) (rest : Scaled) : Prop where
  natAbs_lt : rest.coefficient.natAbs < bound
  scale : rest.scale ≤ maxScale
  gt : -8 < rest.value
  lt : rest.value < perUnit

/-- Whole units are counted and taken away, without an overflow and exactly. -/
structure IsStep (perUnit : Nat) (seconds : Scaled) (units : Int) (rest : Scaled) : Prop where
  quotient : seconds.wholeQuotient perUnit = units
  taken : takeAway? seconds units perUnit = some rest
  nonneg : 0 ≤ units
  value : rest.value = seconds.value - units * perUnit
  left : IsLeft perUnit rest

/-- The units of a magnitude can be taken away if they fit themselves. -/
theorem exists_step_of_isMagnitude (h : seconds.IsMagnitude) (hperUnit : IsCoarse perUnit)
    (hunits : seconds.wholeQuotient perUnit = units) (hproduct : units * perUnit < bound) :
    ∃ rest, IsStep perUnit seconds units rest := by
  obtain ⟨hnonneg, hlt, hexact⟩ := h.wholeQuotient_spec hperUnit
  have hexcess := h.wholeQuotient_mul_lt hperUnit
  rw [hunits] at hnonneg hlt hexact hexcess
  obtain ⟨rest, hrest, hvalue, hscale⟩ := sub?_of_fits hexact
  have habs : ((⟨units, 0⟩ : Scaled).coefficient * perUnit).natAbs < bound := by
    have hproductNonneg : 0 ≤ units * perUnit := mul_nonneg hnonneg (Int.natCast_nonneg perUnit)
    simp only
    omega
  have htaken : takeAway? seconds units perUnit = some rest := by
    rw [takeAway?, mulWhole?, if_pos habs]
    exact hrest
  refine ⟨rest, hunits, htaken, hnonneg, hvalue, ?_, hscale.trans h.scale, by linarith, by linarith⟩
  rw [← Nat.cast_lt (α := ℚ), natAbs_coefficient, hvalue]
  refine lt_of_le_of_lt ?_ hexact
  gcongr
  norm_num

/-- No unit is taken away from a few seconds below zero. -/
theorem IsLeft.step_of_neg {limit : Nat} (h : IsLeft limit seconds) (hneg : seconds.coefficient < 0)
    (hperUnit : 16 ≤ perUnit) : IsStep perUnit seconds 0 seconds := by
  have hvalue : seconds.value < 0 := not_le.mp (mt value_nonneg_iff.mp (not_le.mpr hneg))
  have hunit : (16 : ℚ) ≤ perUnit := mod_cast hperUnit
  have hgt := h.gt
  refine ⟨wholeQuotient_eq_zero ?_, ?_, le_rfl, by simp, h.natAbs_lt, h.scale, hgt, ?_⟩
  · rw [abs_of_neg hvalue]
    linarith
  · simp [takeAway?, mulWhole?, sub?, add?, isZero, neg, hneg.ne, bound]
  · linarith

/-- What larger units leave is a magnitude or below zero, and can be counted in smaller units. -/
theorem IsLeft.exists_step (h : IsLeft (count * perUnit) seconds) (hperUnit : IsCoarse perUnit)
    (hlarge : 16 ≤ perUnit) (hcount : count * 10 ^ 27 < bound) (hfits : count * perUnit ≤ bound)
    {coarse : Nat} (hfew : perUnit * 10 ^ coarse < 2 * 10 ^ 28)
    (hmany : bound + 8 * 10 ^ coarse ≤ count * perUnit * 10 ^ coarse) :
    ∃ units rest, IsStep perUnit seconds units rest ∧ units < count := by
  rcases lt_or_ge seconds.coefficient 0 with hneg | hnonneg
  · refine ⟨0, seconds, h.step_of_neg hneg hlarge, ?_⟩
    by_contra hnone
    obtain rfl : count = 0 := by omega
    rw [Nat.zero_mul, Nat.zero_mul] at hmany
    exact absurd hmany (by simp [bound])
  · have hmagnitude : seconds.IsMagnitude := by
      have := h.natAbs_lt
      exact ⟨hnonneg, by omega, h.scale⟩
    have hvalue : seconds.value < count * perUnit := by
      have := h.lt
      rwa [Nat.cast_mul] at this
    have hunits := hmagnitude.wholeQuotient_lt hperUnit hvalue hcount hfew hmany
    have hproduct : seconds.wholeQuotient perUnit * perUnit < bound := by
      have hle : seconds.wholeQuotient perUnit * perUnit < count * perUnit :=
        Int.mul_lt_mul_of_pos_right hunits (by omega)
      have hfits : (count * perUnit : Int) ≤ bound := mod_cast hfits
      omega
    obtain ⟨rest, hstep⟩ := exists_step_of_isMagnitude hmagnitude hperUnit rfl hproduct
    exact ⟨_, rest, hstep, hunits⟩

/-! ## All units -/

/-- The days of a magnitude fit, since no multiple of a day lies just above the bound. -/
theorem exists_step_perDay (h : seconds.IsMagnitude) :
    ∃ days rest, IsStep perDay seconds days rest := by
  have hexcess := h.wholeQuotient_mul_lt perDay_isCoarse
  have hlt : seconds.value < bound := by simpa using h.value_mul_pow_lt (Nat.zero_le _)
  have hproduct : seconds.wholeQuotient perDay * perDay < bound := by
    have hbelow : seconds.wholeQuotient perDay * perDay < bound + 8 := by
      have : (seconds.wholeQuotient perDay * perDay : ℚ) < bound + 8 := by linarith
      exact_mod_cast this
    simp only [perDay, bound] at hbelow ⊢
    omega
  obtain ⟨rest, hstep⟩ := exists_step_of_isMagnitude h perDay_isCoarse rfl hproduct
  exact ⟨_, rest, hstep⟩

/-- The days, hours and minutes of some seconds, and the seconds left, if nothing overflows. -/
def checkedSplit? (seconds : Scaled) : Option (Int × Int × Int × Scaled) := do
  let days := seconds.wholeQuotient perDay
  let afterDays ← takeAway? seconds days perDay
  let hours := afterDays.wholeQuotient perHour
  let afterHours ← takeAway? afterDays hours perHour
  let minutes := afterHours.wholeQuotient perMinute
  let rest ← takeAway? afterHours minutes perMinute
  some (days, hours, minutes, rest)

theorem split_of_checkedSplit? (h : checkedSplit? seconds = some (days, hours, minutes, rest)) :
    split seconds = (days, hours, minutes, rest) := by
  simp only [checkedSplit?, Option.bind_eq_bind, Option.bind_eq_some_iff, Option.some.injEq,
    Prod.mk.injEq] at h
  obtain ⟨afterDays, hdays, afterHours, hhours, left, hminutes, rfl, rfl, rfl, rfl⟩ := h
  simp only [split, remainder_of_takeAway? hdays, remainder_of_takeAway? hhours,
    remainder_of_takeAway? hminutes]

/-- Whether days, hours, minutes and a rest make up some seconds. The rest may lie a few seconds
below zero. -/
structure IsMadeOf (seconds : Scaled) (days hours minutes : Int) (rest : Scaled) : Prop where
  total : days * 86400 + hours * 3600 + minutes * 60 + rest.value = seconds.value
  days : 0 ≤ days
  hours : 0 ≤ hours ∧ hours ≤ 23
  minutes : 0 ≤ minutes ∧ minutes ≤ 59
  rest : -8 < rest.value ∧ rest.value < 60

/-- Nothing overflows for seconds that fit, and their parts make them up. -/
theorem exists_checkedSplit? (h : seconds.IsMagnitude) :
    ∃ days hours minutes rest, checkedSplit? seconds = some (days, hours, minutes, rest) ∧
      IsMadeOf seconds days hours minutes rest ∧ rest.coefficient.natAbs < bound ∧
      rest.scale ≤ maxScale := by
  obtain ⟨days, afterDays, hdays⟩ := exists_step_perDay h
  obtain ⟨hours, afterHours, hhours, hhoursLt⟩ :=
    @IsLeft.exists_step afterDays perHour 24 hdays.left perHour_isCoarse (by decide) (by decide)
      (by decide) 24 (by decide) (by decide)
  obtain ⟨minutes, rest, hminutes, hminutesLt⟩ :=
    @IsLeft.exists_step afterHours perMinute 60 hhours.left perMinute_isCoarse (by decide)
      (by decide) (by decide) 26 (by decide) (by decide)
  refine ⟨days, hours, minutes, rest, ?_, ⟨?_, hdays.nonneg, ⟨hhours.nonneg, by omega⟩,
    ⟨hminutes.nonneg, by omega⟩, hminutes.left.gt, ?_⟩, hminutes.left.natAbs_lt,
    hminutes.left.scale⟩
  · simp only [checkedSplit?, hdays.quotient, hdays.taken, hhours.quotient, hhours.taken,
      hminutes.quotient, hminutes.taken, Option.bind_eq_bind, Option.bind_some]
  · have hafterDays := hdays.value
    have hafterHours := hhours.value
    have hrest := hminutes.value
    simp only [perDay, perHour, perMinute, Nat.cast_ofNat] at hafterDays hafterHours hrest
    linarith
  · have hlt := hminutes.left.lt
    simpa [perMinute] using hlt

/-! ## Rests below zero -/

variable {duration a b : Duration} {components components' : Components}

theorem text_of_neg (h : rest.coefficient < 0) : rest.text = '-' :: rest.neg.text := by
  simp [Scaled.text, neg, h, h.le]

/-- The seconds of components from which those with a minus sign are taken away. -/
def Components.below (components : Components) : ℚ :=
  (components.days.map natOfDigits).getD 0 * 86400
    + (components.hours.map natOfDigits).getD 0 * 3600
    + (components.minutes.map natOfDigits).getD 0 * 60
    - ((Scaled.ofDigits? (components.seconds.getD ([], [])).1
        (components.seconds.getD ([], [])).2).map Scaled.value).getD 0

/-- What the canonical text of a duration has that leaves a rest below zero: one more minus
sign than the text of components that have its numbers. -/
structure Components.ShowsBelow (components : Components) (duration : Duration) : Prop where
  written : components.IsWritten
  text : ∃ before after, components.text = 'P' :: (before ++ after) ∧ after ≠ [] ∧
    duration.canonical
      = (if duration.negative then ['-'] else []) ++ 'P' :: (before ++ '-' :: after)
  months : totalMonths? components = some duration.months
  seconds : components.below = duration.seconds.value

/-- No whole number of minutes makes up for a rest below zero. -/
theorem IsMadeOf.isZero_eq_false (h : IsMadeOf seconds days hours minutes rest)
    (hneg : rest.coefficient < 0) : seconds.isZero = false := by
  have hrest : rest.value < 0 := not_le.mp (mt value_nonneg_iff.mp (not_le.mpr hneg))
  have hgt := h.rest.1
  have htotal := h.total
  rw [Bool.eq_false_iff, Ne, isZero_iff]
  intro hzero
  rw [hzero] at htotal
  have hlow : (0 : ℚ) < (days * 1440 + hours * 60 + minutes : Int) := by
    push_cast
    linarith
  have hhigh : ((days * 1440 + hours * 60 + minutes : Int) : ℚ) < 1 := by
    push_cast
    linarith
  have hlow : 0 < days * 1440 + hours * 60 + minutes := by exact_mod_cast hlow
  have hhigh : days * 1440 + hours * 60 + minutes < 1 := by exact_mod_cast hhigh
  omega

theorem exists_showsBelow (hproper : duration.IsProper)
    (hsplit : split duration.seconds = (days, hours, minutes, rest))
    (h : IsMadeOf duration.seconds days hours minutes rest)
    (hlt : rest.coefficient.natAbs < bound) (hscale : rest.scale ≤ maxScale)
    (hneg : rest.coefficient < 0) :
    ∃ components : Components, components.ShowsBelow duration := by
  have hmagnitude : rest.neg.IsMagnitude := ⟨by simp only [neg]; omega, by simp only [neg]; omega, hscale⟩
  have hzero : rest.isZero = false := by simpa [isZero] using hneg.ne
  have hzero' : rest.neg.isZero = false := by simpa [isZero, neg] using hneg.ne
  obtain ⟨seconds?, read, hseconds, -, htext, hread, hvalue, -⟩ := exists_secondsText hmagnitude
  rw [hzero', if_neg Bool.false_ne_true] at htext
  obtain ⟨days, rfl⟩ := Int.eq_ofNat_of_zero_le h.days
  obtain ⟨hours, rfl⟩ := Int.eq_ofNat_of_zero_le h.hours.1
  obtain ⟨minutes, rfl⟩ := Int.eq_ofNat_of_zero_le h.minutes.1
  have hne : ¬ (duration.months = 0 ∧ duration.seconds.isZero = true) := by
    rw [h.isZero_eq_false hneg]
    exact fun hboth => Bool.false_ne_true hboth.2
  refine ⟨⟨component? (duration.months / 12), component? (duration.months % 12), component? days,
    component? hours, component? minutes, seconds?⟩, ⟨isNumeral_component?, isNumeral_component?,
    isNumeral_component?, isNumeral_component?, isNumeral_component?, hseconds⟩,
    ⟨fieldText 'Y' (component? (duration.months / 12))
      ++ fieldText 'M' (component? (duration.months % 12)) ++ fieldText 'D' (component? days)
      ++ 'T' :: (fieldText 'H' (component? hours) ++ fieldText 'M' (component? minutes)),
      secondsText seconds?, ?_, ?_, ?_⟩, totalMonths?_eq rfl rfl hproper.months, ?_⟩
  · simp [Components.text, Components.dateText, Components.timeText, ← htext]
  · simp [← htext]
  · rw [canonical_of_split hne hsplit, hzero, ← htext, text_of_neg hneg]
    simp only [componentText_natCast]
    simp
  · have htotal := h.total
    simp only [Components.below, natOfDigits_component?, hread, Option.map_some, Option.getD_some,
      hvalue, value_neg]
    push_cast at htotal
    linarith

/-- The sign in front of a text can be told from what is behind it. -/
theorem sign_append_inj {negative negative' : Bool} {rest rest' : List Char}
    (h : (if negative then ['-'] else []) ++ 'P' :: rest
      = (if negative' then ['-'] else []) ++ 'P' :: rest') : negative = negative' ∧ rest = rest' := by
  cases negative <;> cases negative' <;> simp_all

/-- Durations that show such a text are equal if it is the same. -/
theorem Components.ShowsBelow.eq (ha : components.ShowsBelow a) (hb : components'.ShowsBelow b)
    (h : a.canonical = b.canonical) :
    a.negative = b.negative ∧ a.months = b.months ∧ a.seconds.value = b.seconds.value := by
  obtain ⟨before, after, htext, hne, hcanonical⟩ := ha.text
  obtain ⟨before', after', htext', hne', hcanonical'⟩ := hb.text
  have hread : readComponents? components.text = some components :=
    readComponents?_text ha.written (by simp [htext, hne])
  have hread' : readComponents? components'.text = some components' :=
    readComponents?_text hb.written (by simp [htext', hne'])
  have hhyphen : '-' ∉ before ∧ '-' ∉ after := by
    have hnone := (readComponents?_eq_some hread).2
    rw [htext] at hnone
    simpa using hnone
  rw [hcanonical, hcanonical'] at h
  obtain ⟨hsign, hbody⟩ := sign_append_inj h
  obtain ⟨rfl, -, rfl⟩ :=
    (List.append_cons_inj_of_notMem hhyphen.1 hhyphen.2).mp hbody
  obtain rfl : components = components' := by
    rw [htext, ← htext', hread'] at hread
    exact (Option.some.inj hread).symm
  exact ⟨hsign, Option.some.inj (ha.months.symm.trans hb.months), ha.seconds.symm.trans hb.seconds⟩

/-! ## Canonical texts -/

/-- The numbers in a canonical text. -/
structure Parts where
  years : Nat
  months : Nat
  days : Int
  hours : Int
  minutes : Int
  rest : Scaled

/-- The hours and minutes, and the seconds left, unless they are zero. -/
def Parts.timeText (parts : Parts) : List Char :=
  componentText parts.hours 'H' ++ componentText parts.minutes 'M'
    ++ (if parts.rest.isZero then [] else parts.rest.text ++ ['S'])

/-- All parts that are not zero, after the sign. -/
def Parts.text (parts : Parts) : List Char :=
  'P' :: (componentText parts.years 'Y' ++ componentText parts.months 'M'
      ++ componentText parts.days 'D')
    ++ (if parts.timeText.isEmpty then [] else 'T' :: parts.timeText)

/-- Whether parts are those of a duration: what its canonical text consists of, unless it is
that of zero. They are found without an overflow, and they make up the duration. -/
structure Parts.AreShown (parts : Parts) (duration : Duration) : Prop where
  text : duration.canonical
    = if duration.months = 0 ∧ duration.seconds.isZero = true then "PT0S".toList
      else (if duration.negative then ['-'] else []) ++ parts.text
  checked : checkedSplit? duration.seconds
    = some (parts.days, parts.hours, parts.minutes, parts.rest)
  months : 12 * parts.years + parts.months = duration.months ∧ parts.months < 12
  seconds : IsMadeOf duration.seconds parts.days parts.hours parts.minutes parts.rest

/-- The canonical text of a proper duration shows such parts. -/
theorem IsProper.exists_areShown (hproper : duration.IsProper) :
    ∃ parts : Parts, parts.AreShown duration := by
  obtain ⟨days, hours, minutes, rest, hchecked, hseconds, -⟩ :=
    exists_checkedSplit? hproper.seconds
  refine ⟨⟨duration.months / 12, duration.months % 12, days, hours, minutes, rest⟩, ?_, hchecked,
    ⟨Nat.div_add_mod _ _, Nat.mod_lt _ (by decide)⟩, hseconds⟩
  split
  case isTrue hzero => exact canonical_of_zero hzero.1 hzero.2
  case isFalse hne =>
    rw [canonical_of_split hne (split_of_checkedSplit? hchecked), List.append_assoc]
    rfl

/-- The parts of a duration leave a rest below zero, or they are split truly. -/
theorem IsProper.isSplitTruly_or_exists_showsBelow (hproper : duration.IsProper) :
    duration.IsSplitTruly ∨
      '-' ∈ duration.canonical.tail ∧ ∃ components : Components, components.ShowsBelow duration := by
  obtain ⟨days, hours, minutes, rest, hchecked, hseconds, hlt, hscale⟩ :=
    exists_checkedSplit? hproper.seconds
  have hsplit := split_of_checkedSplit? hchecked
  rcases lt_or_ge rest.coefficient 0 with hneg | hnonneg
  · have hne : ¬ (duration.months = 0 ∧ duration.seconds.isZero = true) := by
      rw [hseconds.isZero_eq_false hneg]
      exact fun hboth => Bool.false_ne_true hboth.2
    exact .inr ⟨hyphen_mem_canonical hne hsplit (.inr (.inr hneg)),
      exists_showsBelow hproper hsplit hseconds hlt hscale hneg⟩
  · exact .inl ⟨days, hours, minutes, rest, hsplit,
      (isSplit_of_nonneg hproper.seconds hsplit hseconds.hours.1 hseconds.minutes.1 hnonneg).1⟩

theorem IsSplitTruly.hyphen_notMem (h : duration.IsSplitTruly) (hproper : duration.IsProper) :
    '-' ∉ duration.canonical.tail := by
  obtain ⟨read, hread, -⟩ := h.exists_parse?_canonical hproper
  exact (parse?_eq_some hread).1

/-- Durations with the same canonical text are equal. -/
theorem IsProper.eq_of_canonical_eq (ha : a.IsProper) (hb : b.IsProper)
    (h : a.canonical = b.canonical) :
    a.negative = b.negative ∧ a.months = b.months ∧ a.seconds.value = b.seconds.value := by
  rcases ha.isSplitTruly_or_exists_showsBelow with hsplit | ⟨hhyphen, components, hshows⟩
  · rcases hb.isSplitTruly_or_exists_showsBelow with hsplit' | ⟨hhyphen', -⟩
    · -- What is read from the text is equal to both.
      obtain ⟨read, hread, hnegative, hmonths, hseconds⟩ := hsplit.exists_parse?_canonical ha
      obtain ⟨read', hread', hnegative', hmonths', hseconds'⟩ := hsplit'.exists_parse?_canonical hb
      rw [h, hread', Option.some.injEq] at hread
      subst hread
      exact ⟨hnegative.symm.trans hnegative', hmonths.symm.trans hmonths',
        hseconds.symm.trans hseconds'⟩
    · exact absurd (h ▸ hhyphen') (hsplit.hyphen_notMem ha)
  · rcases hb.isSplitTruly_or_exists_showsBelow with hsplit' | ⟨-, components', hshows'⟩
    · exact absurd (h ▸ hhyphen) (hsplit'.hyphen_notMem hb)
    · exact hshows.eq hshows' h

/-- The canonical text of a duration that was read shows its numbers exactly, and it is found
without an overflow. Durations have the same text if and only if they are equal. -/
theorem canonical_eq_iff_valueEq :
    (∀ text duration, parse? text = some duration →
      ∃ parts : Parts, parts.AreShown duration) ∧
    ∀ text text' a b, parse? text = some a → parse? text' = some b →
      (a.canonical = b.canonical ↔ a.valueEq b = true) := by
  refine ⟨fun _ _ h => (parse?_isProper h).exists_areShown, fun _ _ a b ha hb => ?_⟩
  rw [valueEq_iff]
  exact ⟨(parse?_isProper ha).eq_of_canonical_eq (parse?_isProper hb),
    fun ⟨hnegative, hmonths, hseconds⟩ => canonical_congr hnegative hmonths hseconds⟩

/-- Nine days and a fraction of a second at the twenty-third digit. -/
def overNineDays : Duration := ⟨false, 0, ⟨77760000000000000000000000001, 23⟩⟩

/-- The days of what is almost nine days are nine, and the text is not that of a little more. -/
theorem canonical_eq_iff_valueEq_nineDays :
    parse? "PT777599.99999999999999999999999S".toList = some almostNineDays ∧
      parse? "P9DT0.00000000000000000000001S".toList = some overNineDays ∧
      (∃ parts : Parts, parts.AreShown almostNineDays ∧ parts.days = 9 ∧
        parts.rest.coefficient < 0) ∧
      almostNineDays.canonical ≠ overNineDays.canonical := by
  have hread : parse? "PT777599.99999999999999999999999S".toList = some almostNineDays := by
    decide +kernel
  have hread' : parse? "P9DT0.00000000000000000000001S".toList = some overNineDays := by
    decide +kernel
  have hsplit : checkedSplit? almostNineDays.seconds = some (9, 0, 0, ⟨-1, 23⟩) := by
    decide +kernel
  obtain ⟨parts, hparts⟩ := canonical_eq_iff_valueEq.1 _ _ hread
  have hchecked := hparts.checked
  rw [hsplit, Option.some.injEq, Prod.mk.injEq, Prod.mk.injEq, Prod.mk.injEq] at hchecked
  obtain ⟨hdays, -, -, hrest⟩ := hchecked
  refine ⟨hread, hread', ⟨parts, hparts, hdays.symm, hrest ▸ by decide⟩, fun heq => ?_⟩
  have hequal := (canonical_eq_iff_valueEq.2 _ _ _ _ hread hread').mp heq
  revert hequal
  decide +kernel

end SimpleTypes.Duration
