import SimpleTypes.Proofs.Number.Magnitude
import SimpleTypes.Proofs.Time.Reading

/-!
# Durations that are read

What holds of every duration that was read from a text: its numbers have no sign,
they fit, and they are bounded by the width of the text.

* `readComponent_cases`, `readSeconds_cases` and `ReadsComponents`: what stands in a text that is
  taken apart into components.
* `readComponents?_eq_some`: the components are digits, none of them wider than
  the widest field, and no minus sign stands between them.
* `parse?_eq_some`: the numbers of a duration are those of its components.
* `totalMonths?_lt` and `totalSeconds?_eq_some`: how large they can be.
-/

namespace SimpleTypes

namespace Duration

open Moment

variable {text rest : List Char}

/-! ## Fields -/

/-- Digits of at most some width. -/
structure IsField (width : Nat) (digits : List Char) : Prop where
  isDigit : ∀ c ∈ digits, c.isDigit = true
  length : digits.length ≤ width

theorem IsField.mono {width width' : Nat} {digits : List Char} (h : IsField width digits)
    (hle : width ≤ width') : IsField width' digits := ⟨h.isDigit, h.length.trans hle⟩

theorem IsField.natOfDigits_lt {width : Nat} {digits : List Char} (h : IsField width digits) :
    natOfDigits digits < 10 ^ width :=
  (SimpleTypes.natOfDigits_lt h.isDigit).trans_le (Nat.pow_le_pow_right (by decide) h.length)

theorem not_isDigit_of_isAlpha {c : Char} (h : c.isAlpha = true) : c.isDigit = false := by
  have hletter : 65 ≤ c.toNat := by
    rcases Bool.or_eq_true_iff.mp h with hupper | hlower
    · exact (of_decide_eq_true hupper).1
    · have hge : 97 ≤ c.toNat := of_decide_eq_true (Bool.and_eq_true_iff.mp hlower).1
      omega
  rw [Bool.eq_false_iff]
  intro hdigit
  have := isDigit_bounds hdigit
  omega

/-! ## What is read -/

/-- A component that is read stands at the front of the text. -/
theorem readComponent_cases {unit : Char} {digits? : Option (List Char)}
    (h : readComponent unit text = (digits?, rest)) :
    (digits? = none ∧ rest = text) ∨
      ∃ digits, digits? = some digits ∧ digits ≠ [] ∧ (∀ c ∈ digits, c.isDigit = true) ∧
        text = digits ++ unit :: rest := by
  have happend := spanDigits_eq_append text
  have hdigits := isDigit_spanDigits text
  unfold readComponent at h
  split at h
  next digits after hspan =>
  rw [hspan] at happend hdigits
  subst happend
  split at h
  next =>
    split at h
    case isTrue hfound =>
      simp only [Bool.and_eq_true, beq_iff_eq, Bool.not_eq_true', List.isEmpty_eq_false_iff]
        at hfound
      obtain ⟨rfl, hne⟩ := hfound
      cases h
      exact .inr ⟨digits, rfl, hne, hdigits, rfl⟩
    case isFalse =>
      cases h
      exact .inl ⟨rfl, rfl⟩
  next =>
    cases h
    exact .inl ⟨rfl, rfl⟩

/-- Seconds that are read stand at the front of the text. -/
theorem readSeconds_cases {seconds? : Option (List Char × List Char)}
    (h : readSeconds text = (seconds?, rest)) :
    (seconds? = none ∧ rest = text) ∨
      ∃ whole fraction?, seconds? = some (whole, fraction?.getD []) ∧ whole ≠ [] ∧
        (∀ c ∈ whole, c.isDigit = true) ∧ (∀ c ∈ fraction?.getD [], c.isDigit = true) ∧
        text = whole ++ Decimal.pointText fraction? ++ 'S' :: rest := by
  have happend := spanDigits_eq_append text
  have hwhole := isDigit_spanDigits text
  unfold readSeconds at h
  split at h
  next whole after hspan =>
  rw [hspan] at happend hwhole
  subst happend
  split at h
  next fraction left hfraction =>
  -- The fraction stands behind a point, or there is none.
  obtain ⟨fraction?, rfl, hdigits, rfl⟩ : ∃ fraction?, fraction?.getD [] = fraction ∧
      (∀ c ∈ fraction, c.isDigit = true) ∧ after = Decimal.pointText fraction? ++ left := by
    split at hfraction
    next after =>
      have hafter := spanDigits_eq_append after
      have hdigits := isDigit_spanDigits after
      rw [hfraction] at hafter hdigits
      exact ⟨some fraction, rfl, hdigits, by rw [Decimal.pointText, List.cons_append, hafter]⟩
    next =>
      cases hfraction
      exact ⟨none, rfl, by simp, rfl⟩
  split at h
  next =>
    split at h
    case isTrue =>
      cases h
      exact .inl ⟨rfl, rfl⟩
    case isFalse hne =>
      cases h
      exact .inr ⟨whole, fraction?, rfl, by simpa using hne, hwhole, hdigits,
        (List.append_assoc _ _ _).symm⟩
  next =>
    cases h
    exact .inl ⟨rfl, rfl⟩

/-- The components of a text after the sign, by what its parts are read as: those of a date
alone, or with those of a time behind `T`. -/
inductive ReadsComponents : List Char → Components → Prop
  | date {text afterYears afterMonths : List Char} {years months days : Option (List Char)}
      (hyears : readComponent 'Y' text = (years, afterYears))
      (hmonths : readComponent 'M' afterYears = (months, afterMonths))
      (hdays : readComponent 'D' afterMonths = (days, []))
      (hsome : (years.isSome || months.isSome || days.isSome) = true) :
      ReadsComponents ('P' :: text) ⟨years, months, days, none, none, none⟩
  | time {text afterYears afterMonths afterDays afterHours afterMinutes : List Char}
      {years months days hours minutes : Option (List Char)}
      {seconds : Option (List Char × List Char)}
      (hyears : readComponent 'Y' text = (years, afterYears))
      (hmonths : readComponent 'M' afterYears = (months, afterMonths))
      (hdays : readComponent 'D' afterMonths = (days, 'T' :: afterDays))
      (hhours : readComponent 'H' afterDays = (hours, afterHours))
      (hminutes : readComponent 'M' afterHours = (minutes, afterMinutes))
      (hseconds : readSeconds afterMinutes = (seconds, []))
      (hsome : (hours.isSome || minutes.isSome || seconds.isSome) = true) :
      ReadsComponents ('P' :: text) ⟨years, months, days, hours, minutes, seconds⟩

theorem readsComponents_of_readComponents? {components : Components}
    (h : readComponents? text = some components) : ReadsComponents text components := by
  unfold readComponents? at h
  split at h
  next text =>
    rcases hyears : readComponent 'Y' text with ⟨years, afterYears⟩
    rcases hmonths : readComponent 'M' afterYears with ⟨months, afterMonths⟩
    rcases hdays : readComponent 'D' afterMonths with ⟨days, afterDays⟩
    simp only [hyears, hmonths, hdays] at h
    split at h
    next =>
      obtain ⟨hsome, heq⟩ := Option.ite_none_right_eq_some.mp h
      cases heq
      exact .date hyears hmonths hdays hsome
    next afterDays =>
      rcases hhours : readComponent 'H' afterDays with ⟨hours, afterHours⟩
      rcases hminutes : readComponent 'M' afterHours with ⟨minutes, afterMinutes⟩
      rcases hseconds : readSeconds afterMinutes with ⟨seconds, afterSeconds⟩
      simp only [hhours, hminutes, hseconds, Bool.and_eq_true, List.isEmpty_iff,
        Option.ite_none_right_eq_some, Option.some.injEq] at h
      obtain ⟨⟨rfl, hsome⟩, rfl⟩ := h
      exact .time hyears hmonths hdays hhours hminutes hseconds hsome
    next => cases h
  next => cases h

/-! ## What is left of a text -/

theorem widestFieldFrom_mono {widest widest' : Nat} (h : widest ≤ widest') (run : Nat)
    (fractional : Bool) (text : List Char) :
    widestFieldFrom widest run fractional text ≤ widestFieldFrom widest' run fractional text := by
  induction text generalizing widest widest' run fractional with
  | nil =>
    simp only [widestFieldFrom]
    split
    · exact h
    · exact max_le_max_right run h
  | cons c rest ih =>
    simp only [widestFieldFrom]
    split
    · exact ih h _ _
    · refine ih ?_ _ _
      split
      · exact h
      · exact max_le_max_right run h

/-- After a letter the fields are counted afresh. -/
theorem widestField_le_widestFieldFrom {unit : Char} (hunit : unit.isAlpha = true)
    (before rest : List Char) (widest run : Nat) (fractional : Bool) :
    widestField rest ≤ widestFieldFrom widest run fractional (before ++ unit :: rest) := by
  have hpoint : (unit == '.') = false := by
    rw [beq_eq_false_iff_ne]
    rintro rfl
    cases hunit
  obtain ⟨widest', heq⟩ := exists_widestFieldFrom_append (not_isDigit_of_isAlpha hunit) before rest
    widest run fractional
  rw [heq, hpoint]
  exact widestFieldFrom_mono (Nat.zero_le _) _ _ _

/-- What is left of a text after some of it has been read: its fields are no wider,
and every minus sign is still to be read. -/
structure Leaves (text rest : List Char) : Prop where
  width : widestField rest ≤ widestField text
  hyphen : '-' ∈ text → '-' ∈ rest

theorem Leaves.refl (text : List Char) : Leaves text text := ⟨le_rfl, id⟩

/-- Reading goes on past a letter and what stands before it. -/
theorem Leaves.append_cons {before : List Char} {unit : Char}
    (h : Leaves text (before ++ unit :: rest)) (hunit : unit.isAlpha = true)
    (hbefore : '-' ∉ before) : Leaves text rest := by
  refine ⟨(widestField_le_widestFieldFrom hunit before rest 0 0 false).trans h.width, ?_⟩
  intro hmem
  rcases List.mem_append.mp (h.hyphen hmem) with hleft | hright
  · exact absurd hleft hbefore
  · refine (List.mem_cons.mp hright).resolve_left ?_
    rintro rfl
    cases hunit

theorem Leaves.tail {unit : Char} (h : Leaves text (unit :: rest)) (hunit : unit.isAlpha = true) :
    Leaves text rest :=
  @append_cons text rest [] unit h hunit List.not_mem_nil

variable {whole : List Char}

/-- Digits at the front of what is left are a field. -/
theorem Leaves.isField {digits : List Char} (h : Leaves whole (digits ++ rest))
    (hdigits : ∀ c ∈ digits, c.isDigit = true) : IsField (widestField whole) digits :=
  ⟨hdigits, (length_le_widestField hdigits rest).trans h.width⟩

/-! ## Components -/

/-- A component is a field, and what follows it is left. -/
theorem Leaves.readComponent {unit : Char} {digits? : Option (List Char)} (h : Leaves whole text)
    (hunit : unit.isAlpha = true) (hread : readComponent unit text = (digits?, rest)) :
    (∀ digits ∈ digits?, IsField (widestField whole) digits) ∧ Leaves whole rest := by
  rcases readComponent_cases hread with ⟨rfl, rfl⟩ | ⟨digits, rfl, -, hdigits, rfl⟩
  · exact ⟨by simp, h⟩
  · exact ⟨by simpa using h.isField hdigits, h.append_cons hunit (notMem_of_isDigit rfl hdigits)⟩

theorem Leaves.readSeconds {seconds? : Option (List Char × List Char)} (h : Leaves whole text)
    (hread : readSeconds text = (seconds?, rest)) :
    (∀ digits fraction, seconds? = some (digits, fraction) →
      IsField (widestField whole) digits ∧ ∀ c ∈ fraction, c.isDigit = true) ∧
      Leaves whole rest := by
  rcases readSeconds_cases hread with ⟨rfl, rfl⟩ |
    ⟨digits, fraction?, rfl, -, hdigits, hfraction, rfl⟩
  · exact ⟨by simp, h⟩
  · have hpoint : '-' ∉ Decimal.pointText fraction? := by
      cases fraction? with
      | none => exact List.not_mem_nil
      | some fraction =>
        exact List.not_mem_cons_of_ne_of_not_mem (by decide) (notMem_of_isDigit rfl hfraction)
    refine ⟨?_, h.append_cons rfl
      (List.not_mem_append (notMem_of_isDigit rfl hdigits) hpoint)⟩
    rintro _ _ ⟨⟩
    rw [List.append_assoc] at h
    exact ⟨h.isField hdigits, hfraction⟩

/-- Components that fill at most some width. The fraction of a second may be of any
length. -/
structure Components.Fill (width : Nat) (components : Components) : Prop where
  years : ∀ digits ∈ components.years, IsField width digits
  months : ∀ digits ∈ components.months, IsField width digits
  days : ∀ digits ∈ components.days, IsField width digits
  hours : ∀ digits ∈ components.hours, IsField width digits
  minutes : ∀ digits ∈ components.minutes, IsField width digits
  seconds : ∀ digits fraction, components.seconds = some (digits, fraction) →
    IsField width digits ∧ ∀ c ∈ fraction, c.isDigit = true

/-- Components that fill some width fill a larger one. -/
theorem Components.Fill.mono {components : Components} {width width' : Nat}
    (h : components.Fill width) (hle : width ≤ width') : components.Fill width' where
  years _ hdigits := (h.years _ hdigits).mono hle
  months _ hdigits := (h.months _ hdigits).mono hle
  days _ hdigits := (h.days _ hdigits).mono hle
  hours _ hdigits := (h.hours _ hdigits).mono hle
  minutes _ hdigits := (h.minutes _ hdigits).mono hle
  seconds _ _ hseconds := ((h.seconds _ _ hseconds).imp_left (·.mono hle))

/-- The components that are read are fields of the text, which has no minus sign. -/
theorem readComponents?_eq_some {components : Components}
    (h : readComponents? text = some components) :
    components.Fill (widestField text) ∧ '-' ∉ text := by
  cases readsComponents_of_readComponents? h with
  | date hyears hmonths hdays hsome =>
    obtain ⟨hyears, hleft⟩ := ((Leaves.refl ('P' :: _)).tail rfl).readComponent rfl hyears
    obtain ⟨hmonths, hleft⟩ := hleft.readComponent rfl hmonths
    obtain ⟨hdays, hleft⟩ := hleft.readComponent rfl hdays
    exact ⟨⟨hyears, hmonths, hdays, by simp, by simp, by simp⟩,
      fun hmem => List.not_mem_nil (hleft.hyphen hmem)⟩
  | time hyears hmonths hdays hhours hminutes hseconds hsome =>
    obtain ⟨hyears, hleft⟩ := ((Leaves.refl ('P' :: _)).tail rfl).readComponent rfl hyears
    obtain ⟨hmonths, hleft⟩ := hleft.readComponent rfl hmonths
    obtain ⟨hdays, hleft⟩ := hleft.readComponent rfl hdays
    obtain ⟨hhours, hleft⟩ := (hleft.tail rfl).readComponent rfl hhours
    obtain ⟨hminutes, hleft⟩ := hleft.readComponent rfl hminutes
    obtain ⟨hseconds, hleft⟩ := hleft.readSeconds hseconds
    exact ⟨⟨hyears, hmonths, hdays, hhours, hminutes, hseconds⟩,
      fun hmem => List.not_mem_nil (hleft.hyphen hmem)⟩

/-! ## Numbers -/

variable {width : Nat} {digits? : Option (List Char)} {components : Components}

theorem natOfDigits_getD_lt (h : ∀ digits ∈ digits?, IsField width digits) :
    (digits?.map natOfDigits).getD 0 < 10 ^ width := by
  cases digits? with
  | none => exact Nat.pow_pos (by decide)
  | some digits => exact (h digits rfl).natOfDigits_lt

theorem totalMonths?_eq_some {months : Nat} (h : totalMonths? components = some months) :
    months < monthsBound ∧
      months = (components.years.map natOfDigits).getD 0 * 12
        + (components.months.map natOfDigits).getD 0 := by
  simp only [totalMonths?, countOf?, Option.bind_eq_bind, Option.bind_eq_some_iff,
    Option.ite_none_right_eq_some, Option.some.injEq] at h
  obtain ⟨_, ⟨-, rfl⟩, _, ⟨-, rfl⟩, hlt, rfl⟩ := h
  exact ⟨hlt, rfl⟩

/-- Years and months of some width are fewer months than thirteen such fields. -/
theorem totalMonths?_lt (hfill : components.Fill width) {months : Nat}
    (h : totalMonths? components = some months) : months < 13 * 10 ^ width := by
  obtain ⟨-, rfl⟩ := totalMonths?_eq_some h
  have hyears := natOfDigits_getD_lt hfill.years
  have hmonths := natOfDigits_getD_lt hfill.months
  omega

theorem secondsOf?_eq_some {factor : Nat} {a : Scaled} (h : secondsOf? digits? factor = some a) :
    a.IsMagnitude ∧ a.value = (digits?.map natOfDigits).getD 0 * factor := by
  simp only [secondsOf?, Option.bind_eq_bind, Option.bind_eq_some_iff] at h
  obtain ⟨n, hn, hproduct⟩ := h
  obtain ⟨hn, hvalue⟩ := Scaled.ofNat?_eq_some hn
  obtain ⟨ha, hproduct⟩ := hn.mulWhole? hproduct
  exact ⟨ha, by rw [hproduct, hvalue]⟩

theorem secondsOf?_le (hfields : ∀ digits ∈ digits?, IsField width digits) {factor : Nat}
    {a : Scaled} (h : secondsOf? digits? factor = some a) : a.value ≤ 10 ^ width * factor := by
  have hlt := natOfDigits_getD_lt hfields
  rw [(secondsOf?_eq_some h).2]
  gcongr
  exact_mod_cast hlt.le

/-- The digits of the seconds. There are none if no seconds are written. -/
theorem Components.Fill.seconds_getD (hfill : components.Fill width) :
    natOfDigits (components.seconds.getD ([], [])).1 < 10 ^ width ∧
      ∀ c ∈ (components.seconds.getD ([], [])).2, c.isDigit = true := by
  cases hseconds : components.seconds with
  | none => exact ⟨Nat.pow_pos (by decide), by simp⟩
  | some pair =>
    obtain ⟨hfield, hdigits⟩ := hfill.seconds pair.1 pair.2 hseconds
    exact ⟨hfield.natOfDigits_lt, hdigits⟩

/-- The seconds have no sign, they fit, and components of some width bound them:
a day, an hour, a minute and a second make 90061 seconds, and the roundings add
less than eight. -/
theorem totalSeconds?_eq_some (hfill : components.Fill width) {seconds : Scaled}
    (h : totalSeconds? components = some seconds) :
    seconds.IsMagnitude ∧ seconds.value ≤ 90061 * 10 ^ width + 8 := by
  simp only [totalSeconds?, Option.bind_eq_bind, Option.bind_eq_some_iff] at h
  obtain ⟨days, hdays, hours, hhours, minutes, hminutes, rest, hrest, toHours, hsum₁, toMinutes,
    hsum₂, hsum₃⟩ := h
  obtain ⟨hwhole, hfraction⟩ := hfill.seconds_getD
  obtain ⟨hmagnitude, hrestLe⟩ := Scaled.ofDigits?_eq_some hfraction hrest
  obtain ⟨hmagnitude₁, hle₁⟩ :=
    (secondsOf?_eq_some hdays).1.add? (secondsOf?_eq_some hhours).1 hsum₁
  obtain ⟨hmagnitude₂, hle₂⟩ := hmagnitude₁.add? (secondsOf?_eq_some hminutes).1 hsum₂
  obtain ⟨hmagnitude₃, hle₃⟩ := hmagnitude₂.add? hmagnitude hsum₃
  refine ⟨hmagnitude₃, ?_⟩
  have hdaysLe : days.value ≤ 10 ^ width * 86400 := secondsOf?_le hfill.days hdays
  have hhoursLe : hours.value ≤ 10 ^ width * 3600 := secondsOf?_le hfill.hours hhours
  have hminutesLe : minutes.value ≤ 10 ^ width * 60 := secondsOf?_le hfill.minutes hminutes
  have hwholeLe : (natOfDigits (components.seconds.getD ([], [])).1 : ℚ) ≤ 10 ^ width :=
    mod_cast hwhole.le
  linarith

/-! ## Durations -/

variable {duration : Duration}

/-- What makes numbers a duration: they fit, and zero has no sign. -/
structure IsProper (duration : Duration) : Prop where
  months : duration.months < monthsBound
  seconds : duration.seconds.IsMagnitude
  sign : duration.negative = true → duration.months = 0 → duration.seconds.isZero = false

/-- A duration that is read has the numbers of its components, and zero has no sign.
A minus sign can stand at the front of the text only. -/
theorem parse?_eq_some (h : parse? text = some duration) :
    '-' ∉ text.tail ∧ (duration.negative = true → duration.months = 0 →
        duration.seconds.isZero = false) ∧
      ∃ components : Components, components.Fill (widestField text) ∧
        totalMonths? components = some duration.months ∧
        totalSeconds? components = some duration.seconds := by
  unfold parse? at h
  split at h
  next negative body hsign =>
  simp only [Option.bind_eq_bind, Option.bind_eq_some_iff, Option.some.injEq] at h
  obtain ⟨components, hread, months, hmonths, seconds, hseconds, rfl⟩ := h
  obtain ⟨hfill, hhyphen⟩ := readComponents?_eq_some hread
  refine ⟨?_, fun hsigned hzero => ?_, components, ?_, hmonths, hseconds⟩
  · split at hsign
    · cases hsign
      exact hhyphen
    · cases hsign
      exact fun hmem => hhyphen (List.mem_of_mem_tail hmem)
  · dsimp only at hsigned hzero
    simp only [hzero, BEq.rfl, Bool.true_and, Bool.and_eq_true, Bool.not_eq_true'] at hsigned
    exact hsigned.2
  · split at hsign <;> cases hsign <;> exact hfill

theorem parse?_isProper (h : parse? text = some duration) : duration.IsProper := by
  obtain ⟨-, hsign, components, hfill, hmonths, hseconds⟩ := parse?_eq_some h
  exact ⟨(totalMonths?_eq_some hmonths).1, (totalSeconds?_eq_some hfill hseconds).1, hsign⟩

end Duration

end SimpleTypes
