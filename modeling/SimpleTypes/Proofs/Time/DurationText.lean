import SimpleTypes.Proofs.Number.Numerals
import SimpleTypes.Proofs.Time.DurationNotation
import SimpleTypes.Proofs.Time.Split
import SimpleTypes.Proofs.Value.Coherence

/-!
# Durations and back

When the canonical text of a duration that was read is read again, and what is read
then. The grammar has no minus sign inside a duration, so a text with a negative rest is
lost. It is the only way to lose one.

* `readComponents?_text`: components that are written one after the other are read back.
* `exists_represent`: the canonical text of a duration whose seconds are split truly
  consists of such components, and their numbers are those of the duration.
* `parse?_canonical_isSome_iff`: the round trip, and the condition for it.
* `parse?_canonical_almostNineDays`: a duration without one.
-/

namespace SimpleTypes.Duration

variable {unit : Char} {rest : List Char} {digits? : Option (List Char)}
  {seconds? : Option (List Char × List Char)} {components : Components}

/-! ## Texts of components -/

/-- The text of the seconds, if there are any. The point needs a digit after it. -/
def secondsText : Option (List Char × List Char) → List Char
  | some (whole, fraction) =>
    whole ++ (if fraction.isEmpty then [] else '.' :: fraction) ++ ['S']
  | none => []

namespace Components

/-- The components of a date. -/
def dateText (components : Components) : List Char :=
  fieldText 'Y' components.years ++ fieldText 'M' components.months
    ++ fieldText 'D' components.days

/-- The components of a time. -/
def timeText (components : Components) : List Char :=
  fieldText 'H' components.hours ++ fieldText 'M' components.minutes
    ++ secondsText components.seconds

/-- The text of components after the sign. -/
def text (components : Components) : List Char :=
  'P' :: components.dateText
    ++ (if components.timeText.isEmpty then [] else 'T' :: components.timeText)

end Components

/-- Seconds that can be written. -/
def AreSeconds (seconds? : Option (List Char × List Char)) : Prop :=
  ∀ whole fraction, seconds? = some (whole, fraction) →
    IsNumeral whole ∧ ∀ c ∈ fraction, c.isDigit = true

/-- Components that can be written: each that is there has a digit. -/
structure Components.IsWritten (components : Components) : Prop where
  years : ∀ digits ∈ components.years, IsNumeral digits
  months : ∀ digits ∈ components.months, IsNumeral digits
  days : ∀ digits ∈ components.days, IsNumeral digits
  hours : ∀ digits ∈ components.hours, IsNumeral digits
  minutes : ∀ digits ∈ components.minutes, IsNumeral digits
  seconds : AreSeconds components.seconds

/-! ## Reading them -/

theorem secondsText_eq (whole fraction : List Char) :
    secondsText (some (whole, fraction))
      = whole ++ (if fraction = [] then ['S'] else '.' :: (fraction ++ ['S'])) := by
  cases fraction <;> simp [secondsText]

theorem secondsText_eq_nil : secondsText seconds? = [] ↔ seconds? = none := by
  cases seconds? <;> simp [secondsText]

theorem dateText_eq_nil : components.dateText = [] ↔
    components.years = none ∧ components.months = none ∧ components.days = none := by
  simp only [Components.dateText, List.append_eq_nil_iff, fieldText_eq_nil, and_assoc]

theorem timeText_eq_nil : components.timeText = [] ↔
    components.hours = none ∧ components.minutes = none ∧ components.seconds = none := by
  simp only [Components.timeText, List.append_eq_nil_iff, fieldText_eq_nil, secondsText_eq_nil,
    and_assoc]

namespace Components

/-- Components as they are written behind a sign, with a point only in front of a digit. -/
def written (components : Components) (negative : Bool) : Written :=
  ⟨negative, components.years, components.months, components.days, components.hours,
    components.minutes, components.seconds.map fun (whole, fraction) =>
      ⟨whole, if fraction = [] then none else some fraction⟩⟩

variable {negative : Bool}

theorem components_written : (components.written negative).components = components := by
  obtain ⟨years, months, days, hours, minutes, seconds?⟩ := components
  cases seconds? with
  | none => rfl
  | some seconds =>
    obtain ⟨whole, fraction⟩ := seconds
    cases fraction <;> rfl

theorem timeText_written : (components.written negative).timeText = components.timeText := by
  have hseconds : secondsPart (components.written negative).seconds
      = secondsText components.seconds := by
    rw [written]
    cases components.seconds with
    | none => rfl
    | some seconds =>
      obtain ⟨whole, fraction⟩ := seconds
      cases fraction <;>
        simp [secondsPart, secondsText, WrittenSeconds.text, Decimal.pointText]
  rw [Written.timeText, hseconds]
  rfl

theorem body_written : (components.written negative).body = components.text := by
  simp only [Written.body, timeText_written, text, List.isEmpty_iff]
  rfl

theorem text_written : (components.written negative).text
    = (if negative then ['-'] else []) ++ components.text := by
  rw [Written.text, body_written]
  rfl

theorem IsWritten.isPossible (h : components.IsWritten) (hsome : components.text ≠ ['P']) :
    (components.written negative).IsPossible := by
  refine ⟨h.years, h.months, h.days, h.hours, h.minutes, ?_, ?_⟩
  · intro s hs
    obtain ⟨⟨whole, fraction⟩, hseconds, rfl⟩ := Option.map_eq_some_iff.mp hs
    obtain ⟨hwhole, hfraction⟩ := h.seconds whole fraction hseconds
    refine ⟨hwhole, ?_⟩
    dsimp only
    split
    · simp
    · exact hfraction
  · rw [components_written]
    rintro rfl
    exact hsome rfl

end Components

/-- Components are read back from their text if there are any. -/
theorem readComponents?_text (h : components.IsWritten) (hsome : components.text ≠ ['P']) :
    readComponents? components.text = some components := by
  rw [← @Components.body_written _ false, Written.readComponents?_body (h.isPossible hsome),
    Components.components_written]

/-! ## Words -/

theorem blankFree_fieldText (hunit : isBlank unit = false)
    (hdigits : ∀ digits ∈ digits?, IsNumeral digits) : BlankFree (fieldText unit digits?) := by
  cases digits? with
  | none => exact blankFree_nil
  | some digits =>
    exact (blankFree_of_isDigit (hdigits digits rfl).isDigit).append (.cons hunit blankFree_nil)

theorem blankFree_secondsText (h : AreSeconds seconds?) : BlankFree (secondsText seconds?) := by
  cases seconds? with
  | none => exact blankFree_nil
  | some seconds =>
    obtain ⟨whole, fraction⟩ := seconds
    obtain ⟨hwhole, hfraction⟩ := h whole fraction rfl
    have hunit : BlankFree ['S'] := .cons (by rfl) blankFree_nil
    rw [secondsText_eq]
    refine (blankFree_of_isDigit hwhole.isDigit).append ?_
    split
    · exact hunit
    · exact .cons (by rfl) ((blankFree_of_isDigit hfraction).append hunit)

theorem Components.IsWritten.blankFree_text (h : components.IsWritten) :
    BlankFree components.text := by
  have hdate : BlankFree components.dateText :=
    ((blankFree_fieldText (by rfl) h.years).append (blankFree_fieldText (by rfl) h.months)).append
      (blankFree_fieldText (by rfl) h.days)
  have htime : BlankFree components.timeText :=
    ((blankFree_fieldText (by rfl) h.hours).append (blankFree_fieldText (by rfl) h.minutes)).append
      (blankFree_secondsText h.seconds)
  refine .append (.cons (by rfl) hdate) ?_
  split
  · exact blankFree_nil
  · exact .cons (by rfl) htime

/-! ## Canonical components -/

/-- The component of a number. Zero is left out. -/
def component? (n : Nat) : Option (List Char) := if n = 0 then none else some (numeral n)

theorem isNumeral_component? {n : Nat} : ∀ digits ∈ component? n, IsNumeral digits := by
  intro digits hdigits
  rw [component?, Option.mem_def, Option.ite_none_left_eq_some, Option.some.injEq] at hdigits
  obtain ⟨-, rfl⟩ := hdigits
  exact ⟨numeral_ne_nil n, fun _ => isDigit_of_mem_numeral⟩

theorem component?_eq_none {n : Nat} : component? n = none ↔ n = 0 := by
  simp [component?]

theorem natOfDigits_component? (n : Nat) : ((component? n).map natOfDigits).getD 0 = n := by
  rw [component?]
  split
  case isTrue h => exact h.symm
  case isFalse => exact natOfDigits_numeral n

theorem componentText_natCast (n : Nat) (unit : Char) :
    componentText n unit = fieldText unit (component? n) := by
  rw [componentText, component?]
  by_cases h : n = 0
  · simp [h, fieldText]
  · simp [h, fieldText]

/-- Units that are part of a magnitude are read back exactly. -/
theorem exists_secondsOf? {seconds : Scaled} (h : seconds.IsMagnitude) {n factor : Nat}
    (hfactor : 0 < factor) (hle : (n * factor : ℚ) ≤ seconds.value) :
    ∃ part, secondsOf? (component? n) factor = some part ∧ part.value = n * factor ∧
      part.scale ≤ seconds.scale := by
  have hlt : seconds.value < Scaled.bound := by simpa using h.value_mul_pow_lt (Nat.zero_le _)
  have hproduct : n * factor < Scaled.bound := by
    rw [← Nat.cast_lt (α := ℚ), Nat.cast_mul]
    exact hle.trans_lt hlt
  have hn : n < Scaled.bound := (Nat.le_mul_of_pos_right n hfactor).trans_lt hproduct
  have habs : ((n : Int) * factor).natAbs = n * factor := by
    rw [← Nat.cast_mul, Int.natAbs_natCast]
  refine ⟨⟨(n * factor : Nat), 0⟩, ?_, by rw [Scaled.value_natCast, Nat.cast_mul], Nat.zero_le _⟩
  simp [secondsOf?, natOfDigits_component?, Scaled.ofNat?, hn, Scaled.mulWhole?, habs, hproduct]

/-- Months are written as years and months, and read back as their sum. -/
theorem totalMonths?_eq {months : Nat} (hyears : components.years = component? (months / 12))
    (hmonths : components.months = component? (months % 12)) (hlt : months < monthsBound) :
    totalMonths? components = some months := by
  have hdivision : months / 12 * 12 + months % 12 = months := Nat.div_add_mod' months 12
  have hyearsLt : months / 12 < monthsBound := (Nat.div_le_self _ _).trans_lt hlt
  have hmonthsLt : months % 12 < monthsBound := (Nat.mod_le _ _).trans_lt hlt
  simp [totalMonths?, countOf?, hyears, hmonths, natOfDigits_component?, hyearsLt, hmonthsLt,
    hdivision, hlt]

/-- The parts of some seconds are read back as their sum, which is exact. -/
theorem totalSeconds?_eq {seconds rest read : Scaled} {days hours minutes : Nat}
    (h : seconds.IsMagnitude) (hsplit : IsSplit seconds days hours minutes rest)
    (hdays : components.days = component? days) (hhours : components.hours = component? hours)
    (hminutes : components.minutes = component? minutes)
    (hread : Scaled.ofDigits? (components.seconds.getD ([], [])).1
      (components.seconds.getD ([], [])).2 = some read)
    (hvalue : read.value = rest.value) (hscale : read.scale ≤ seconds.scale) :
    ∃ total, totalSeconds? components = some total ∧ total.value = seconds.value := by
  have htotal := hsplit.total
  simp only [Int.cast_natCast] at htotal
  have hdaysNonneg : (0 : ℚ) ≤ days := Nat.cast_nonneg days
  have hhoursNonneg : (0 : ℚ) ≤ hours := Nat.cast_nonneg hours
  have hminutesNonneg : (0 : ℚ) ≤ minutes := Nat.cast_nonneg minutes
  have hrestNonneg := hsplit.rest.1
  obtain ⟨daysPart, hdaysPart, hdaysValue, hdaysScale⟩ :=
    exists_secondsOf? h (n := days) (by decide : 0 < perDay)
      (by simp only [perDay]; push_cast; linarith)
  obtain ⟨hoursPart, hhoursPart, hhoursValue, hhoursScale⟩ :=
    exists_secondsOf? h (n := hours) (by decide : 0 < perHour)
      (by simp only [perHour]; push_cast; linarith)
  obtain ⟨minutesPart, hminutesPart, hminutesValue, hminutesScale⟩ :=
    exists_secondsOf? h (n := minutes) (by decide : 0 < perMinute)
      (by simp only [perMinute]; push_cast; linarith)
  simp only [perDay, perHour, perMinute, Nat.cast_ofNat] at hdaysValue hhoursValue hminutesValue
  obtain ⟨toHours, hsum₁, hvalue₁, hscale₁⟩ :=
    h.exists_add? (by linarith) (by linarith) (by linarith) hdaysScale hhoursScale
  obtain ⟨toMinutes, hsum₂, hvalue₂, hscale₂⟩ :=
    h.exists_add? (by linarith) (by linarith) (by linarith) hscale₁ hminutesScale
  obtain ⟨total, hsum₃, hvalue₃, -⟩ :=
    h.exists_add? (by linarith) (by linarith) (by linarith) hscale₂ hscale
  refine ⟨total, ?_, by linarith⟩
  simp only [totalSeconds?, hdays, hhours, hminutes, hdaysPart, hhoursPart, hminutesPart, hread,
    hsum₁, hsum₂, hsum₃, Option.bind_eq_bind, Option.bind_some]

/-! ## Canonical texts -/

variable {duration : Duration} {days hours minutes : Int} {rest : Scaled}

/-- The seconds that are written for a rest, and the number that is read from them. -/
theorem exists_secondsText {rest : Scaled} (h : rest.IsMagnitude) :
    ∃ seconds? read, AreSeconds seconds? ∧ (seconds? = none ↔ rest.isZero = true) ∧
      (if rest.isZero then [] else rest.text ++ ['S']) = secondsText seconds? ∧
      Scaled.ofDigits? (seconds?.getD ([], [])).1 (seconds?.getD ([], [])).2 = some read ∧
      read.value = rest.value ∧ read.scale ≤ rest.scale := by
  cases hzero : rest.isZero with
  | true =>
    refine ⟨none, ⟨0, 0⟩, by simp [AreSeconds], by simp, rfl, rfl, ?_, Nat.zero_le _⟩
    rw [Scaled.isZero_iff.mp hzero]
    simp [Scaled.value]
  | false =>
    obtain ⟨whole, fraction, read, htext, hne, hwhole, hfraction, hread, hvalue, hscale⟩ :=
      h.exists_digits
    refine ⟨some (whole, fraction), read, ?_, by simp, ?_, hread, hvalue, hscale⟩
    · rintro _ _ ⟨⟩
      exact ⟨⟨hne, hwhole⟩, hfraction⟩
    · rw [htext, secondsText]
      rfl

theorem canonical_of_zero (hmonths : duration.months = 0) (hzero : duration.seconds.isZero = true) :
    duration.canonical = "PT0S".toList := by
  simp [canonical, hmonths, hzero]

theorem canonical_of_split (hne : ¬ (duration.months = 0 ∧ duration.seconds.isZero = true))
    (hsplit : split duration.seconds = (days, hours, minutes, rest)) :
    duration.canonical = (if duration.negative then ['-'] else []) ++
      'P' :: (componentText (duration.months / 12 : Nat) 'Y'
        ++ componentText (duration.months % 12 : Nat) 'M' ++ componentText days 'D')
      ++ (if (componentText hours 'H' ++ componentText minutes 'M'
            ++ (if rest.isZero then [] else rest.text ++ ['S'])).isEmpty then []
        else 'T' :: (componentText hours 'H' ++ componentText minutes 'M'
          ++ (if rest.isZero then [] else rest.text ++ ['S']))) := by
  have hne' : ¬ (decide (duration.months = 0) && duration.seconds.isZero) = true := by
    simpa using hne
  rw [canonical, if_neg hne', hsplit]

/-- What the canonical text of a duration has to give when it is read: its months
and a number of seconds equal to its own. -/
structure Components.Represent (components : Components) (duration : Duration) : Prop where
  written : components.IsWritten
  notEmpty : components.text ≠ ['P']
  text : duration.canonical = (if duration.negative then ['-'] else []) ++ components.text
  months : totalMonths? components = some duration.months
  seconds : ∃ total, totalSeconds? components = some total ∧ total.value = duration.seconds.value

theorem exists_represent_of_zero (hproper : duration.IsProper) (hmonths : duration.months = 0)
    (hzero : duration.seconds.isZero = true) :
    ∃ components : Components, components.Represent duration := by
  have hsign : duration.negative = false := by
    rw [Bool.eq_false_iff]
    intro hnegative
    rw [hproper.sign hnegative hmonths] at hzero
    cases hzero
  refine ⟨⟨none, none, none, none, none, some (['0'], [])⟩, ⟨by simp, by simp, by simp, by simp,
    by simp, ?_⟩, by decide, ?_, ?_, ⟨0, 0⟩, rfl, ?_⟩
  · rintro _ _ ⟨⟩
    exact ⟨⟨List.cons_ne_nil _ _, List.forall_mem_singleton.mpr rfl⟩, List.forall_mem_nil _⟩
  · rw [canonical_of_zero hmonths hzero, hsign]
    rfl
  · rw [hmonths]
    rfl
  · rw [Scaled.isZero_iff.mp hzero]
    simp [Scaled.value]

/-- The canonical text of a duration whose seconds are split truly consists of
components that have its numbers. -/
theorem exists_represent (hproper : duration.IsProper)
    (hsplit : split duration.seconds = (days, hours, minutes, rest))
    (h : IsSplit duration.seconds days hours minutes rest) :
    ∃ components : Components, components.Represent duration := by
  by_cases hzero : duration.months = 0 ∧ duration.seconds.isZero = true
  · exact exists_represent_of_zero hproper hzero.1 hzero.2
  obtain ⟨-, hrest, hscale⟩ := isSplit_of_nonneg hproper.seconds hsplit h.hours.1 h.minutes.1
    (Scaled.value_nonneg_iff.mp h.rest.1)
  obtain ⟨seconds?, read, hseconds, hnone, htext, hread, hvalue, hfine⟩ := exists_secondsText hrest
  obtain ⟨days, rfl⟩ := Int.eq_ofNat_of_zero_le h.days
  obtain ⟨hours, rfl⟩ := Int.eq_ofNat_of_zero_le h.hours.1
  obtain ⟨minutes, rfl⟩ := Int.eq_ofNat_of_zero_le h.minutes.1
  refine ⟨⟨component? (duration.months / 12), component? (duration.months % 12), component? days,
    component? hours, component? minutes, seconds?⟩, ⟨isNumeral_component?, isNumeral_component?,
    isNumeral_component?, isNumeral_component?, isNumeral_component?, hseconds⟩, fun hempty => ?_,
    ?_, totalMonths?_eq rfl rfl hproper.months,
    totalSeconds?_eq hproper.seconds h rfl rfl rfl hread hvalue (hfine.trans hscale)⟩
  · simp only [Components.text, List.cons_append, List.cons.injEq, true_and,
      List.append_eq_nil_iff, dateText_eq_nil, component?_eq_none] at hempty
    obtain ⟨⟨hyears, hmonths, rfl⟩, hempty⟩ := hempty
    split at hempty
    case isFalse => cases hempty
    case isTrue htime =>
      rw [List.isEmpty_iff, timeText_eq_nil] at htime
      simp only [component?_eq_none, hnone] at htime
      obtain ⟨rfl, rfl, hrestZero⟩ := htime
      have htotal := h.total
      simp only [Int.cast_zero, Nat.cast_zero, zero_mul, zero_add,
        Scaled.isZero_iff.mp hrestZero] at htotal
      exact hzero ⟨by omega, Scaled.isZero_iff.mpr htotal.symm⟩
  · rw [canonical_of_split hzero hsplit, htext]
    simp only [componentText_natCast, Components.text, Components.dateText, Components.timeText,
      List.append_assoc, List.cons_append]

/-- What is read from the text of such components is the duration again. -/
theorem parse?_of_represent (hproper : duration.IsProper) (h : components.Represent duration) :
    ∃ read, parse? duration.canonical = some read ∧ read.negative = duration.negative ∧
      read.months = duration.months ∧ read.seconds.value = duration.seconds.value := by
  obtain ⟨total, htotal, hvalue⟩ := h.seconds
  have hzero : total.isZero = duration.seconds.isZero := Scaled.isZero_congr hvalue
  have hsign : (duration.negative && !(duration.months == 0 && total.isZero))
      = duration.negative := by
    rw [hzero]
    cases hnegative : duration.negative with
    | false => rfl
    | true =>
      cases hmonths : duration.months == 0 with
      | false => rfl
      | true => simp [hproper.sign hnegative (beq_iff_eq.mp hmonths)]
  refine ⟨⟨duration.negative, duration.months, total⟩, ?_, rfl, rfl, hvalue⟩
  rw [h.text, ← Components.text_written, Written.parse?_text (h.written.isPossible h.notEmpty),
    Components.components_written, h.months, htotal, Option.bind_eq_bind, Option.bind_some,
    Option.bind_eq_bind, Option.bind_some]
  exact congrArg (fun negative => some (Duration.mk negative duration.months total)) hsign

/-- The text of such components is one word. -/
theorem isWord_of_represent (h : components.Represent duration) : IsWord duration.canonical := by
  rw [h.text]
  refine ⟨by simp [Components.text], .append ?_ h.written.blankFree_text⟩
  split
  · exact .cons (by rfl) blankFree_nil
  · exact blankFree_nil

/-- Equal durations have the same canonical text. -/
theorem canonical_congr {a b : Duration} (hnegative : a.negative = b.negative)
    (hmonths : a.months = b.months) (hseconds : a.seconds.value = b.seconds.value) :
    a.canonical = b.canonical := by
  have hzero : a.seconds.isZero = b.seconds.isZero := Scaled.isZero_congr hseconds
  by_cases hne : a.months = 0 ∧ a.seconds.isZero = true
  · rw [canonical_of_zero hne.1 hne.2, canonical_of_zero (hmonths ▸ hne.1) (hzero ▸ hne.2)]
  · obtain ⟨days, hours, minutes, rest, hsplit⟩ := exists_split a.seconds
    obtain ⟨rest', hsplit', hrest⟩ := split_congr hseconds hsplit
    have hrestZero : rest'.isZero = rest.isZero := Scaled.isZero_congr hrest
    rw [canonical_of_split hne hsplit, canonical_of_split (by rwa [← hmonths, ← hzero]) hsplit',
      hnegative, hmonths, hrestZero, Scaled.text_congr hrest]

/-! ## Which texts are read back -/

/-- Whether the days, hours and minutes of a duration, and the seconds left, are those that
it has. -/
def IsSplitTruly (duration : Duration) : Prop :=
  ∃ days hours minutes rest, split duration.seconds = (days, hours, minutes, rest) ∧
    IsSplit duration.seconds days hours minutes rest

/-- Only the number of seconds counts. -/
theorem IsSplitTruly.congr {a b : Duration} (heq : a.seconds.value = b.seconds.value)
    (h : a.IsSplitTruly) : b.IsSplitTruly := by
  obtain ⟨days, hours, minutes, rest, hsplit, h⟩ := h
  obtain ⟨rest', hsplit', hrest⟩ := split_congr heq hsplit
  refine ⟨days, hours, minutes, rest', hsplit', ?_, h.days, h.hours, h.minutes, ?_⟩
  · rw [hrest, ← heq]
    exact h.total
  · rw [hrest]
    exact h.rest

theorem isSplitTruly_of_isShort (h : IsShort duration.seconds) : duration.IsSplitTruly :=
  ⟨_, _, _, _, rfl, isSplit_of_fewDigits h rfl⟩

theorem isSplitTruly_of_zero (hzero : duration.seconds.isZero = true) : duration.IsSplitTruly := by
  have hshort : IsShort ⟨0, 0⟩ := ⟨⟨by decide, by decide, by decide⟩, by decide, by decide⟩
  have hvalue : (⟨0, 0⟩ : Scaled).value = duration.seconds.value := by
    rw [Scaled.isZero_iff.mp hzero]
    simp [Scaled.value]
  exact IsSplitTruly.congr (a := ⟨false, 0, ⟨0, 0⟩⟩) hvalue (isSplitTruly_of_isShort hshort)

theorem hyphen_mem_componentText {n : Int} (h : n < 0) (unit : Char) :
    '-' ∈ componentText n unit := by
  simp [componentText, h, h.ne]

theorem hyphen_mem_text {a : Scaled} (h : a.coefficient < 0) : '-' ∈ a.text := by
  simp [Scaled.text, h]

/-- A negative part shows in the canonical text. -/
theorem hyphen_mem_canonical (hne : ¬ (duration.months = 0 ∧ duration.seconds.isZero = true))
    (hsplit : split duration.seconds = (days, hours, minutes, rest))
    (hnegative : hours < 0 ∨ minutes < 0 ∨ rest.coefficient < 0) :
    '-' ∈ duration.canonical.tail := by
  have htime : '-' ∈ componentText hours 'H' ++ componentText minutes 'M'
      ++ (if rest.isZero then [] else rest.text ++ ['S']) := by
    simp only [List.mem_append]
    rcases hnegative with h | h | h
    · exact .inl (.inl (hyphen_mem_componentText h 'H'))
    · exact .inl (.inr (hyphen_mem_componentText h 'M'))
    · have hzero : rest.isZero = false := by simpa [Scaled.isZero] using h.ne
      rw [hzero]
      exact .inr (List.mem_append_left _ (hyphen_mem_text h))
  rw [canonical_of_split hne hsplit]
  generalize componentText hours 'H' ++ componentText minutes 'M'
      ++ (if rest.isZero then [] else rest.text ++ ['S']) = time at htime
  cases duration.negative <;> simp [htime, List.ne_nil_of_mem htime]

/-- A text without a second minus sign has true parts. -/
theorem isSplitTruly_of_hyphen_notMem (hproper : duration.IsProper)
    (h : '-' ∉ duration.canonical.tail) : duration.IsSplitTruly := by
  by_cases hzero : duration.seconds.isZero = true
  · exact isSplitTruly_of_zero hzero
  obtain ⟨days, hours, minutes, rest, hsplit⟩ := exists_split duration.seconds
  have hne : ¬ (duration.months = 0 ∧ duration.seconds.isZero = true) := fun hboth => hzero hboth.2
  have hparts : ¬ (hours < 0 ∨ minutes < 0 ∨ rest.coefficient < 0) :=
    fun hnegative => h (hyphen_mem_canonical hne hsplit hnegative)
  simp only [not_or, not_lt] at hparts
  exact ⟨days, hours, minutes, rest, hsplit,
    (isSplit_of_nonneg hproper.seconds hsplit hparts.1 hparts.2.1 hparts.2.2).1⟩

theorem IsSplitTruly.exists_represent (h : duration.IsSplitTruly) (hproper : duration.IsProper) :
    ∃ components : Components, components.Represent duration := by
  obtain ⟨days, hours, minutes, rest, hsplit, h⟩ := h
  exact Duration.exists_represent hproper hsplit h

theorem IsSplitTruly.exists_parse?_canonical (h : duration.IsSplitTruly)
    (hproper : duration.IsProper) :
    ∃ read, parse? duration.canonical = some read ∧ read.negative = duration.negative ∧
      read.months = duration.months ∧ read.seconds.value = duration.seconds.value := by
  obtain ⟨components, hcomponents⟩ := h.exists_represent hproper
  exact parse?_of_represent hproper hcomponents

theorem IsSplitTruly.isWord_canonical (h : duration.IsSplitTruly) (hproper : duration.IsProper) :
    IsWord duration.canonical := by
  obtain ⟨components, hcomponents⟩ := h.exists_represent hproper
  exact isWord_of_represent hcomponents

/-- The canonical text of a duration that was read is read if and only if its seconds
are split truly. Then what is read is equal to the duration and has the same canonical text.
Seconds of at most 23 fractional digits and 28 digits in all are always split truly. -/
theorem parse?_canonical_isSome_iff {text : List Char} (h : parse? text = some duration) :
    ((parse? duration.canonical).isSome = true ↔ duration.IsSplitTruly) ∧
      (∀ read, parse? duration.canonical = some read →
        read.valueEq duration = true ∧ read.canonical = duration.canonical) ∧
      (duration.seconds.scale ≤ 23 → duration.seconds.coefficient < 10 ^ 28 →
        duration.IsSplitTruly) := by
  have hproper := parse?_isProper h
  have htrue : (parse? duration.canonical).isSome = true → duration.IsSplitTruly := by
    intro hsome
    obtain ⟨read, hread⟩ := Option.isSome_iff_exists.mp hsome
    exact isSplitTruly_of_hyphen_notMem hproper (parse?_eq_some hread).1
  refine ⟨⟨htrue, fun hsplit => ?_⟩, fun read hread => ?_, fun hscale hsmall => ?_⟩
  · obtain ⟨read, hread, -⟩ := hsplit.exists_parse?_canonical hproper
    exact Option.isSome_iff_exists.mpr ⟨read, hread⟩
  · have hsplit := htrue (Option.isSome_iff_exists.mpr ⟨read, hread⟩)
    obtain ⟨read', hread', hnegative, hmonths, hseconds⟩ := hsplit.exists_parse?_canonical hproper
    obtain rfl : read' = read := Option.some.inj (hread'.symm.trans hread)
    exact ⟨valueEq_iff.mpr ⟨hnegative, hmonths, hseconds⟩,
      canonical_congr hnegative hmonths hseconds⟩
  · exact ⟨_, _, _, _, rfl, isSplit_of_fewDigits ⟨hproper.seconds, hscale, hsmall⟩ rfl⟩

/-- A day and a half. -/
def dayAndHalf : Duration := ⟨false, 0, ⟨129600, 0⟩⟩

theorem parse?_canonical_isSome_iff_dayAndHalf :
    parse? "PT36H".toList = some dayAndHalf ∧ (parse? dayAndHalf.canonical).isSome = true := by
  have hread : parse? "PT36H".toList = some dayAndHalf := by decide +kernel
  obtain ⟨hiff, -, hfew⟩ := parse?_canonical_isSome_iff hread
  exact ⟨hread, hiff.mpr (hfew (by decide) (by decide))⟩

/-- Nine days but for a fraction of a second at the twenty-third digit. -/
def almostNineDays : Duration := ⟨false, 0, ⟨77759999999999999999999999999, 23⟩⟩

/-- The number of days is lifted to nine, and what is left is below zero. -/
theorem parse?_canonical_almostNineDays :
    parse? "PT777599.99999999999999999999999S".toList = some almostNineDays ∧
      almostNineDays.canonical = "P9DT-0.00000000000000000000001S".toList ∧
      parse? almostNineDays.canonical = none :=
  ⟨by decide +kernel, by decide +kernel, by decide +kernel⟩

end SimpleTypes.Duration
