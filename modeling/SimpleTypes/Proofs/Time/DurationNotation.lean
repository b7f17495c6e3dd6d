import SimpleTypes.Proofs.Time.Components

/-!
# Notation of durations

A duration is written as `P` and its components in their order, those of the time behind `T`,
with an optional minus sign in front. A text is taken apart into components if and only if it
is written so.

* `Written`: the notation. `IsPossible` asks for digits in each component, and for one
  component. `Written.totalMonths` and `Written.totalSeconds` are what is meant.
* `Written.readComponents?_body` and `exists_written_body`: what is written so is taken apart,
  and what is taken apart is written so.
* `Written.parse?_text` and `exists_written`: the same with the sign, and the numbers.
-/

namespace SimpleTypes.Duration

/-! ## The notation -/

/-- One digit or more. -/
structure IsNumeral (digits : List Char) : Prop where
  ne_nil : digits ≠ []
  isDigit : ∀ c ∈ digits, c.isDigit = true

/-- The text of a component, if there is one. -/
def fieldText (unit : Char) : Option (List Char) → List Char
  | some digits => digits ++ [unit]
  | none => []

/-- Seconds as they are written: digits, and perhaps a point and digits after it. -/
structure WrittenSeconds where
  whole : List Char
  fraction? : Option (List Char)

namespace WrittenSeconds

/-- The characters of the seconds. -/
def text (s : WrittenSeconds) : List Char := s.whole ++ Decimal.pointText s.fraction? ++ ['S']

/-- The digits before and after the point. -/
def digits (s : WrittenSeconds) : List Char × List Char := (s.whole, s.fraction?.getD [])

/-- The number of seconds. -/
def value (s : WrittenSeconds) : ℚ := natOfDigits s.whole + fractionValue (s.fraction?.getD [])

/-- Whether a digit stands before the point, and nothing but digits after it. -/
structure IsPossible (s : WrittenSeconds) : Prop where
  whole : IsNumeral s.whole
  fraction : ∀ c ∈ s.fraction?.getD [], c.isDigit = true

end WrittenSeconds

/-- The text of the seconds, if there are any. -/
def secondsPart (seconds? : Option WrittenSeconds) : List Char :=
  (seconds?.map WrittenSeconds.text).getD []

/-- A duration as it is written: an optional minus sign, and digits for some of its
components. -/
structure Written where
  negative : Bool
  years : Option (List Char)
  months : Option (List Char)
  days : Option (List Char)
  hours : Option (List Char)
  minutes : Option (List Char)
  seconds : Option WrittenSeconds

namespace Written

/-- The components of the date. -/
def dateText (w : Written) : List Char :=
  fieldText 'Y' w.years ++ fieldText 'M' w.months ++ fieldText 'D' w.days

/-- The components of the time. -/
def timeText (w : Written) : List Char :=
  fieldText 'H' w.hours ++ fieldText 'M' w.minutes ++ secondsPart w.seconds

/-- The characters after the sign. A `T` stands before the components of the time if there
are any. -/
def body (w : Written) : List Char :=
  'P' :: w.dateText ++ (if w.timeText = [] then [] else 'T' :: w.timeText)

/-- The characters of a duration. -/
def text (w : Written) : List Char := (if w.negative then ['-'] else []) ++ w.body

/-- The digits of the components. -/
def components (w : Written) : Components :=
  ⟨w.years, w.months, w.days, w.hours, w.minutes, w.seconds.map WrittenSeconds.digits⟩

/-- Whether each component that is there has a digit, and there is one. -/
structure IsPossible (w : Written) : Prop where
  years : ∀ digits ∈ w.years, IsNumeral digits
  months : ∀ digits ∈ w.months, IsNumeral digits
  days : ∀ digits ∈ w.days, IsNumeral digits
  hours : ∀ digits ∈ w.hours, IsNumeral digits
  minutes : ∀ digits ∈ w.minutes, IsNumeral digits
  seconds : ∀ s ∈ w.seconds, s.IsPossible
  notEmpty : w.components ≠ ⟨none, none, none, none, none, none⟩

/-- The months that are meant. -/
def totalMonths (w : Written) : Nat :=
  12 * (w.years.map natOfDigits).getD 0 + (w.months.map natOfDigits).getD 0

/-- The seconds that are meant. -/
def totalSeconds (w : Written) : ℚ :=
  86400 * (w.days.map natOfDigits).getD 0 + 3600 * (w.hours.map natOfDigits).getD 0
    + 60 * (w.minutes.map natOfDigits).getD 0 + (w.seconds.map WrittenSeconds.value).getD 0

end Written

/-! ## Components -/

variable {unit : Char} {text rest : List Char} {digits? : Option (List Char)}
  {components : Components}

/-- What stands after the digits at the front of a text. -/
def unit? (text : List Char) : Option Char := (spanDigits text).2.head?

theorem not_startsWithDigit_unit (hunit : unit.isAlpha = true) (rest : List Char) :
    ¬ StartsWithDigit (unit :: rest) :=
  not_startsWithDigit_cons (not_isDigit_of_isAlpha hunit)

theorem fieldText_append (unit : Char) (digits rest : List Char) :
    fieldText unit (some digits) ++ rest = digits ++ unit :: rest := by
  simp [fieldText]

/-- The unit of the first component that is there is the first to be found. -/
theorem unit?_fieldText (hunit : unit.isAlpha = true)
    (hdigits : ∀ digits ∈ digits?, IsNumeral digits) (rest : List Char) :
    unit? (fieldText unit digits? ++ rest) = if digits?.isSome then some unit else unit? rest := by
  cases digits? with
  | none => rfl
  | some digits =>
    rw [fieldText_append, unit?,
      spanDigits_append (hdigits digits rfl).isDigit (not_startsWithDigit_unit hunit _)]
    rfl

/-- Nothing is read from a text that goes on to another unit. -/
theorem readComponent_of_unit?_ne {text : List Char} (h : unit? text ≠ some unit) :
    readComponent unit text = (none, text) := by
  rw [unit?] at h
  unfold readComponent
  split
  next digits after hspan =>
  rw [hspan] at h
  split
  next c after =>
    have hc : (c == unit) = false := beq_eq_false_iff_ne.mpr fun heq => h (congrArg some heq)
    simp [hc]
  · rfl

/-- A component is read back whole if what follows goes on to another unit. -/
theorem readComponent_fieldText (hunit : unit.isAlpha = true)
    (hdigits : ∀ digits ∈ digits?, IsNumeral digits) (hrest : unit? rest ≠ some unit) :
    readComponent unit (fieldText unit digits? ++ rest) = (digits?, rest) := by
  cases digits? with
  | none => exact readComponent_of_unit?_ne hrest
  | some digits =>
    obtain ⟨hne, hdigit⟩ := hdigits digits rfl
    rw [fieldText_append, readComponent,
      spanDigits_append hdigit (not_startsWithDigit_unit hunit _)]
    simp [hne]

theorem fieldText_eq_nil : fieldText unit digits? = [] ↔ digits? = none := by
  cases digits? <;> simp [fieldText]

/-- A component that is read stands at the front of the text. -/
theorem exists_fieldText (h : readComponent unit text = (digits?, rest)) :
    text = fieldText unit digits? ++ rest ∧ ∀ digits ∈ digits?, IsNumeral digits := by
  rcases readComponent_cases h with ⟨rfl, rfl⟩ | ⟨digits, rfl, hne, hdigits, rfl⟩
  · exact ⟨rfl, by simp⟩
  · refine ⟨(fieldText_append unit digits rest).symm, ?_⟩
    rintro _ ⟨⟩
    exact ⟨hne, hdigits⟩

/-! ## Seconds -/

variable {seconds? : Option WrittenSeconds}

theorem secondsPart_eq_nil : secondsPart seconds? = [] ↔ seconds? = none := by
  cases seconds? <;> simp [secondsPart, WrittenSeconds.text]

theorem unit?_secondsPart (h : ∀ s ∈ seconds?, s.IsPossible) (hunit : unit.isAlpha = true)
    (hne : unit ≠ 'S') : unit? (secondsPart seconds?) ≠ some unit := by
  cases seconds? with
  | none => simp [unit?, secondsPart, spanDigits]
  | some s =>
    have hwhole := (h s rfl).whole.isDigit
    simp only [secondsPart, WrittenSeconds.text, Option.map_some, Option.getD_some,
      List.append_assoc, unit?]
    cases s.fraction? with
    | none =>
      rw [Decimal.pointText, List.nil_append,
        spanDigits_append hwhole (not_startsWithDigit_cons rfl)]
      exact fun heq => hne (Option.some.inj heq).symm
    | some fraction =>
      rw [Decimal.pointText, List.cons_append,
        spanDigits_append hwhole (not_startsWithDigit_cons rfl)]
      rintro ⟨⟩
      cases hunit

/-- Seconds at the end of a text are read back. -/
theorem readSeconds_secondsPart (h : ∀ s ∈ seconds?, s.IsPossible) :
    readSeconds (secondsPart seconds?) = (seconds?.map WrittenSeconds.digits, []) := by
  cases seconds? with
  | none => rfl
  | some s =>
    obtain ⟨⟨hne, hwhole⟩, hfraction⟩ := h s rfl
    simp only [secondsPart, WrittenSeconds.text, WrittenSeconds.digits, Option.map_some,
      Option.getD_some, List.append_assoc]
    cases hpoint : s.fraction? with
    | none =>
      rw [readSeconds, Decimal.pointText, List.nil_append,
        spanDigits_append hwhole (not_startsWithDigit_cons rfl)]
      simp [hne]
    | some fraction =>
      rw [hpoint] at hfraction
      have hend : spanDigits (fraction ++ ['S']) = (fraction, ['S']) :=
        spanDigits_append hfraction (not_startsWithDigit_cons rfl)
      rw [readSeconds, Decimal.pointText, List.cons_append,
        spanDigits_append hwhole (not_startsWithDigit_cons rfl)]
      simp [hne, hend]

/-- Seconds that are read stand at the front of the text. -/
theorem exists_writtenSeconds {digits? : Option (List Char × List Char)}
    (h : readSeconds text = (digits?, rest)) :
    ∃ seconds?, text = secondsPart seconds? ++ rest ∧ (∀ s ∈ seconds?, s.IsPossible) ∧
      seconds?.map WrittenSeconds.digits = digits? := by
  rcases readSeconds_cases h with ⟨rfl, rfl⟩ | ⟨whole, fraction?, rfl, hne, hwhole, hfraction, rfl⟩
  · exact ⟨none, rfl, by simp, rfl⟩
  · refine ⟨some ⟨whole, fraction?⟩, by simp [secondsPart, WrittenSeconds.text], ?_, rfl⟩
    rintro _ ⟨⟩
    exact ⟨⟨hne, hwhole⟩, hfraction⟩

/-! ## Durations -/

namespace Written

variable {w : Written}

theorem timeText_eq_nil :
    w.timeText = [] ↔ w.hours = none ∧ w.minutes = none ∧ w.seconds = none := by
  simp only [timeText, List.append_eq_nil_iff, fieldText_eq_nil, secondsPart_eq_nil, and_assoc]

/-- The components of a date are read back in front of a time, or of nothing. -/
theorem readComponent_dateText (h : w.IsPossible)
    (hrest : unit? rest = none ∨ unit? rest = some 'T') :
    ∃ afterYears afterMonths,
      readComponent 'Y' (w.dateText ++ rest) = (w.years, afterYears) ∧
      readComponent 'M' afterYears = (w.months, afterMonths) ∧
      readComponent 'D' afterMonths = (w.days, rest) := by
  have hother : ∀ c, c ≠ 'T' → unit? rest ≠ some c := by
    rintro c hc hunit
    rcases hrest with hnone | hsome
    · rw [hnone] at hunit
      cases hunit
    · rw [hsome] at hunit
      exact hc (Option.some.inj hunit).symm
  have hdays : unit? (fieldText 'D' w.days ++ rest) ≠ some 'M' := by
    rw [unit?_fieldText rfl h.days]
    split
    · decide
    · exact hother 'M' (by decide)
  have hmonths : unit? (fieldText 'M' w.months ++ (fieldText 'D' w.days ++ rest)) ≠ some 'Y' := by
    rw [unit?_fieldText rfl h.months, unit?_fieldText rfl h.days]
    split
    · decide
    · split
      · decide
      · exact hother 'Y' (by decide)
  refine ⟨_, _, ?_, readComponent_fieldText rfl h.months hdays,
    readComponent_fieldText rfl h.days (hother 'D' (by decide))⟩
  rw [dateText, List.append_assoc, List.append_assoc]
  exact readComponent_fieldText rfl h.years hmonths

/-- The components of a time are read back. -/
theorem readComponent_timeText (h : w.IsPossible) :
    ∃ afterHours afterMinutes,
      readComponent 'H' w.timeText = (w.hours, afterHours) ∧
      readComponent 'M' afterHours = (w.minutes, afterMinutes) ∧
      readSeconds afterMinutes = (w.seconds.map WrittenSeconds.digits, []) := by
  have hseconds : unit? (secondsPart w.seconds) ≠ some 'M' :=
    unit?_secondsPart h.seconds rfl (by decide)
  have hminutes : unit? (fieldText 'M' w.minutes ++ secondsPart w.seconds) ≠ some 'H' := by
    rw [unit?_fieldText rfl h.minutes]
    split
    · decide
    · exact unit?_secondsPart h.seconds rfl (by decide)
  refine ⟨_, _, ?_, readComponent_fieldText rfl h.minutes hseconds,
    readSeconds_secondsPart h.seconds⟩
  rw [timeText, List.append_assoc]
  exact readComponent_fieldText rfl h.hours hminutes

/-- Components that are possible are read back. -/
theorem readComponents?_body (h : w.IsPossible) : readComponents? w.body = some w.components := by
  have hrest : unit? (if w.timeText = [] then [] else 'T' :: w.timeText) = none
      ∨ unit? (if w.timeText = [] then [] else 'T' :: w.timeText) = some 'T' := by
    split
    · exact .inl rfl
    · exact .inr rfl
  obtain ⟨_, _, hyears, hmonths, hdays⟩ := readComponent_dateText h hrest
  obtain ⟨_, _, hhours, hminutes, hseconds⟩ := readComponent_timeText h
  simp only [body, List.cons_append, readComponents?, hyears, hmonths, hdays]
  by_cases htime : w.timeText = []
  · obtain ⟨hhours, hminutes, hseconds⟩ := timeText_eq_nil.mp htime
    have hcomponents : w.components = ⟨w.years, w.months, w.days, none, none, none⟩ := by
      rw [components, hhours, hminutes, hseconds, Option.map_none]
    have hsome : (w.years.isSome || w.months.isSome || w.days.isSome) = true := by
      have hne := h.notEmpty
      rw [hcomponents] at hne
      cases years : w.years <;> cases months : w.months <;> cases days : w.days <;> simp_all
    simp only [htime, if_true, hsome, hcomponents]
  · have hsome : (w.hours.isSome || w.minutes.isSome
        || (w.seconds.map WrittenSeconds.digits).isSome) = true := by
      rw [timeText_eq_nil] at htime
      cases hours : w.hours <;> cases minutes : w.minutes <;> cases seconds : w.seconds <;> simp_all
    simp only [htime, if_false, hhours, hminutes, hseconds, hsome, List.isEmpty_nil,
      Bool.and_self, if_true]
    rfl

end Written

/-- Only components that are possible are read. -/
theorem exists_written_body (negative : Bool) (h : readComponents? text = some components) :
    ∃ w : Written, w.negative = negative ∧ w.body = text ∧ w.IsPossible ∧
      w.components = components := by
  cases readsComponents_of_readComponents? h with
  | date hyears hmonths hdays hsome =>
    obtain ⟨rfl, hy⟩ := exists_fieldText hyears
    obtain ⟨rfl, hm⟩ := exists_fieldText hmonths
    obtain ⟨rfl, hd⟩ := exists_fieldText hdays
    refine ⟨⟨negative, _, _, _, none, none, none⟩, rfl, ?_,
      ⟨hy, hm, hd, by simp, by simp, by simp, ?_⟩, rfl⟩
    · simp [Written.body, Written.dateText, Written.timeText, fieldText, secondsPart]
    · rintro ⟨⟩
      cases hsome
  | time hyears hmonths hdays hhours hminutes hseconds hsome =>
    obtain ⟨rfl, hy⟩ := exists_fieldText hyears
    obtain ⟨rfl, hm⟩ := exists_fieldText hmonths
    obtain ⟨rfl, hd⟩ := exists_fieldText hdays
    obtain ⟨rfl, hh⟩ := exists_fieldText hhours
    obtain ⟨rfl, hmin⟩ := exists_fieldText hminutes
    obtain ⟨seconds?, rfl, hs, rfl⟩ := exists_writtenSeconds hseconds
    refine ⟨⟨negative, _, _, _, _, _, seconds?⟩, rfl, ?_,
      ⟨hy, hm, hd, hh, hmin, hs, ?_⟩, rfl⟩
    · rw [Written.body, if_neg]
      · simp [Written.dateText, Written.timeText]
      · rw [Written.timeText_eq_nil]
        rintro ⟨rfl, rfl, rfl⟩
        cases hsome
    · intro hempty
      cases seconds? with
      | none =>
        cases hempty
        cases hsome
      | some s => cases hempty

/-! ## Signs -/

variable {w : Written} {duration : Duration}

/-- What is written is read by its components, and the sign of zero is dropped. -/
theorem Written.parse?_text (h : w.IsPossible) :
    parse? w.text = (do
      let months ← totalMonths? w.components
      let seconds ← totalSeconds? w.components
      some ⟨w.negative && !(months == 0 && seconds.isZero), months, seconds⟩) := by
  unfold parse?
  split
  next negative body hparts =>
  obtain ⟨rfl, rfl⟩ : w.negative = negative ∧ w.body = body := by
    rw [text] at hparts
    generalize w.negative = sign at hparts
    cases sign <;> exact Prod.mk.inj hparts
  simp only [readComponents?_body h, Option.bind_eq_bind, Option.bind_some]

/-- Only durations that are possible are read. -/
theorem exists_written (h : parse? text = some duration) :
    ∃ w : Written, w.text = text ∧ w.IsPossible := by
  unfold parse? at h
  split at h
  next negative body hparts =>
  simp only [Option.bind_eq_bind, Option.bind_eq_some_iff] at h
  obtain ⟨components, hread, -⟩ := h
  obtain ⟨w, rfl, rfl, hpossible, -⟩ := exists_written_body negative hread
  refine ⟨w, ?_, hpossible⟩
  rw [Written.text]
  split at hparts
  · obtain ⟨hnegative, rfl⟩ := Prod.mk.inj hparts
    rw [← hnegative]
    rfl
  · obtain ⟨hnegative, rfl⟩ := Prod.mk.inj hparts
    rw [← hnegative]
    rfl

end SimpleTypes.Duration
