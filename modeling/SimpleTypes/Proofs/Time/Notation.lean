import SimpleTypes.Proofs.Number.DecimalText
import SimpleTypes.Proofs.Time.DayMoves
import SimpleTypes.Time.Moment

/-!
# Dates and times as they are written

The parts of a date or a time as they stand in a text: years, times of day and zones. What
is written can be impossible, such as minute 60, and a year can be too large to be held.

* `WrittenYear`, `WrittenClock` and `WrittenZone`: the parts, with their texts and with
  the conditions under which they are possible.
* `exists_writtenYear`, `exists_writtenClock` and `exists_writtenZone`: nothing else is
  read.
* `WrittenYear.readYear?_text`, `WrittenClock.readClock?_text` and
  `WrittenZone.readZone?_text`: all that is possible and can be held is read.
-/

namespace SimpleTypes

namespace Moment

open Decimal (pointText)

/-! ## Parts of a text -/

/-- A year as it is written: a minus sign or none, and digits. -/
structure WrittenYear where
  negative : Bool
  digits : List Char
  isDigit : ∀ c ∈ digits, c.isDigit = true

namespace WrittenYear

/-- The characters of a year. -/
def text (y : WrittenYear) : List Char := (if y.negative then ['-'] else []) ++ y.digits

/-- The number of a year. -/
def value (y : WrittenYear) : Int := if y.negative then -natOfDigits y.digits else natOfDigits y.digits

/-- Whether a year can exist. It has four digits or more, no zero in front of more than
four, and it is not the year zero. -/
structure IsPossible (y : WrittenYear) : Prop where
  length : 4 ≤ y.digits.length
  noLeadingZero : 4 < y.digits.length → NoLeadingZero y.digits
  ne_zero : y.value ≠ 0

/-- Whether the number of a year can be held. -/
def Fits (y : WrittenYear) : Prop := |y.value| < yearBound

end WrittenYear

/-- A time of day as it is written: hour, minute and second of two digits each, and
perhaps a point with digits after it. -/
structure WrittenClock where
  hour : Fin 100
  minute : Fin 100
  second : Fin 100
  fraction? : Option (List Char)
  isDigit : ∀ c ∈ fraction?.getD [], c.isDigit = true

namespace WrittenClock

/-- The characters of a time of day. -/
def text (c : WrittenClock) : List Char :=
  twoDigits c.hour ++ ':' :: twoDigits c.minute ++ ':' :: twoDigits c.second
    ++ pointText c.fraction?

/-- Whether the time is the end of a day. -/
def isEndOfDay (c : WrittenClock) : Bool := c.hour.val == 24

/-- Whether a time of day can exist. A point has digits after it, and of the hour 24 there
is only the beginning. -/
structure IsPossible (c : WrittenClock) : Prop where
  hour : c.hour.val ≤ 24
  minute : c.minute.val ≤ 59
  second : c.second.val ≤ 59
  fraction : c.fraction? ≠ some []
  endOfDay : c.isEndOfDay = true →
    c.minute.val = 0 ∧ c.second.val = 0 ∧ ∀ d ∈ c.fraction?.getD [], d = '0'

/-- The time of day that is meant. The end of a day is the midnight after it. -/
def clock (c : WrittenClock) : Clock where
  hour := c.hour.val % 24
  minute := c.minute
  second := c.second
  fraction := dropTrailingZeros (c.fraction?.getD [])

end WrittenClock

/-- A zone as it is written: not at all, as `Z`, or as a sign with hours and minutes of
two digits each. -/
inductive WrittenZone where
  | absent
  | utc
  | offset (negative : Bool) (hours minutes : Fin 100)

namespace WrittenZone

/-- The characters of a zone. -/
def text : WrittenZone → List Char
  | absent => []
  | utc => ['Z']
  | offset negative hours minutes =>
    (if negative then '-' else '+') :: twoDigits hours ++ ':' :: twoDigits minutes

/-- The zone that is meant. -/
def value : WrittenZone → Option Int
  | absent => none
  | utc => some 0
  | offset negative hours minutes =>
    some (if negative then -(hours.val * 60 + minutes.val) else hours.val * 60 + minutes.val)

/-- Whether a zone can exist. It is at most fourteen hours from UTC. -/
def IsPossible : WrittenZone → Prop
  | absent | utc => True
  | offset _ hours minutes => minutes.val ≤ 59 ∧ hours.val * 60 + minutes.val ≤ 14 * 60

end WrittenZone

variable {text rest : List Char}

/-! ## Characters and numbers -/

theorem expect?_eq_some {c : Char} : expect? c text = some rest ↔ text = c :: rest := by
  cases text with
  | nil => simp [expect?]
  | cons d tail =>
    simp only [expect?, beq_iff_eq, Option.ite_none_right_eq_some, Option.some.injEq, List.cons.injEq]

theorem expect?_cons (c : Char) (rest : List Char) : expect? c (c :: rest) = some rest :=
  expect?_eq_some.mpr rfl

theorem readTwoDigits?_twoDigits (field : Fin 100) (rest : List Char) :
    readTwoDigits? (twoDigits field ++ rest) = some (field.val, rest) :=
  readTwoDigits?_paddedNumeral field.isLt rest

/-- Two digits are the numeral of their number. -/
theorem twoDigits_natOfDigits {a b : Char} (ha : a.isDigit = true) (hb : b.isDigit = true) :
    natOfDigits [a, b] < 100 ∧ twoDigits (natOfDigits [a, b]) = [a, b] := by
  have hdigits : ∀ c ∈ [a, b], c.isDigit = true := by simp [ha, hb]
  have hlt : natOfDigits [a, b] < 10 ^ 2 := natOfDigits_lt hdigits
  have hsame := compare_natOfDigits_of_length_eq
    (fun _ => isDigit_of_mem_paddedNumeral) hdigits (paddedNumeral_length_eq Nat.two_pos hlt)
  rw [natOfDigits_paddedNumeral, compare_eq_iff_eq.mpr rfl] at hsame
  exact ⟨hlt, Std.compare_eq_iff_eq.mp hsame.symm⟩

theorem exists_twoDigits {n : Nat} (h : readTwoDigits? text = some (n, rest)) :
    ∃ field : Fin 100, text = twoDigits field ++ rest ∧ field.val = n := by
  match text, h with
  | a :: b :: tail, h =>
    simp only [readTwoDigits?, Bool.and_eq_true, Option.ite_none_right_eq_some, Option.some.injEq,
      Prod.mk.injEq] at h
    obtain ⟨⟨ha, hb⟩, rfl, rfl⟩ := h
    obtain ⟨hlt, hnumeral⟩ := twoDigits_natOfDigits ha hb
    exact ⟨⟨_, hlt⟩, by rw [hnumeral]; rfl, rfl⟩

/-! ## Years -/

theorem isYearNumber_iff {digits : List Char} : isYearNumber digits = true ↔
    4 ≤ digits.length ∧ (4 < digits.length → NoLeadingZero digits) := by
  simp only [isYearNumber, Bool.and_eq_true, decide_eq_true_eq, Bool.not_eq_true',
    Bool.and_eq_false_imp, beq_eq_false_iff_ne]
  rfl

namespace WrittenYear

variable {y : WrittenYear}

theorem natAbs_value (y : WrittenYear) : y.value.natAbs = natOfDigits y.digits := by
  rw [value]
  split <;> omega

theorem fits_iff : y.Fits ↔ (natOfDigits y.digits : Int) < yearBound := by
  rw [Fits, ← natAbs_value, Int.natCast_natAbs]

theorem IsPossible.isYear (h : y.IsPossible) (hfits : y.Fits) : Date.IsYear y.value :=
  ⟨(abs_lt.mp hfits).1.le, (abs_lt.mp hfits).2, h.ne_zero⟩

/-- A year in front of a text that does not go on with a digit is read. -/
theorem readYear?_text (h : y.IsPossible) (hfits : y.Fits) (hrest : ¬StartsWithDigit rest) :
    readYear? (y.text ++ rest) = some (y.value, rest) := by
  have hne : natOfDigits y.digits ≠ 0 := by
    rw [← natAbs_value]
    exact Int.natAbs_ne_zero.mpr h.ne_zero
  have hnumber := isYearNumber_iff.mpr ⟨h.length, h.noLeadingZero⟩
  unfold readYear?
  split
  next negative body hsign =>
  -- Without a minus sign the text begins with a digit, so no sign is found.
  have hparts : negative = y.negative ∧ body = y.digits ++ rest := by
    cases hnegative : y.negative with
    | true =>
      simp only [text, hnegative, if_true, List.cons_append, List.nil_append] at hsign
      obtain ⟨rfl, rfl⟩ := by simpa using hsign
      exact ⟨rfl, rfl⟩
    | false =>
      simp only [text, hnegative, Bool.false_eq_true, if_false, List.nil_append] at hsign
      split at hsign
      case h_1 heq =>
        have hpos : 0 < y.digits.length := lt_of_lt_of_le (by decide) h.length
        obtain ⟨c, digits, hdigits⟩ := List.exists_cons_of_length_pos hpos
        have hc := y.isDigit c (by rw [hdigits]; exact List.mem_cons_self)
        rw [hdigits] at heq
        obtain ⟨rfl, -⟩ := by simpa using heq
        exact absurd hc (by decide)
      case h_2 =>
        obtain ⟨rfl, rfl⟩ := by simpa using hsign
        exact ⟨rfl, rfl⟩
  obtain ⟨rfl, rfl⟩ := hparts
  rw [spanDigits_append y.isDigit hrest]
  simp only [hnumber, fits_iff.mp hfits, bne_iff_ne.mpr hne, decide_true, Bool.and_self, if_true]
  rfl

end WrittenYear

/-- Only years are read as years. -/
theorem exists_writtenYear {year : Int} (h : readYear? text = some (year, rest)) :
    ∃ y : WrittenYear, text = y.text ++ rest ∧ y.value = year ∧ y.IsPossible ∧ y.Fits := by
  unfold readYear? at h
  split at h
  next negative body hsign =>
  have htext : text = (if negative then ['-'] else []) ++ body := by
    split at hsign
    · obtain ⟨rfl, rfl⟩ := by simpa using hsign
      rfl
    · obtain ⟨rfl, rfl⟩ := by simpa using hsign
      rfl
  simp only [Bool.and_eq_true, bne_iff_ne, decide_eq_true_eq, Option.ite_none_right_eq_some,
    Option.some.injEq, Prod.mk.injEq] at h
  obtain ⟨⟨⟨hnumber, hne⟩, hlt⟩, hyear, hrest⟩ := h
  let y : WrittenYear := ⟨negative, (spanDigits body).1, isDigit_spanDigits body⟩
  have hnumber := isYearNumber_iff.mp hnumber
  have hvalue : y.value ≠ 0 := by
    rw [← Int.natAbs_ne_zero, y.natAbs_value]
    exact hne
  refine ⟨y, ?_, hyear, ⟨hnumber.1, hnumber.2, hvalue⟩, WrittenYear.fits_iff.mpr hlt⟩
  rw [htext, WrittenYear.text, List.append_assoc, ← hrest, spanDigits_eq_append]

/-! ## Months and days -/

variable {month day : Nat}

theorem readMonth?_twoDigits (h : IsMonth month) (rest : List Char) :
    readMonth? (twoDigits month ++ rest) = some (month, rest) := by
  have hlt : month < 100 := by
    have := h.2
    omega
  rw [readMonth?, twoDigits, readTwoDigits?_paddedNumeral hlt]
  simp [h.1, h.2]

theorem readDay?_twoDigits {length : Nat} (h : 1 ≤ day ∧ day ≤ length) (hlength : length ≤ 31)
    (rest : List Char) : readDay? length (twoDigits day ++ rest) = some (day, rest) := by
  have hlt : day < 100 := by omega
  rw [readDay?, twoDigits, readTwoDigits?_paddedNumeral hlt]
  simp [h.1, h.2]

/-- No digit can go on where a hyphen stands. -/
theorem not_startsWithDigit_hyphen (rest : List Char) : ¬ StartsWithDigit ('-' :: rest) :=
  not_startsWithDigit_cons (by rfl)

theorem exists_month (h : readMonth? text = some (month, rest)) :
    ∃ field : Fin 100, text = twoDigits field ++ rest ∧ field.val = month ∧ IsMonth month := by
  simp only [readMonth?, Option.bind_eq_bind, Option.bind_eq_some_iff, Prod.exists, Bool.and_eq_true,
    decide_eq_true_eq, Option.ite_none_right_eq_some, Option.some.injEq, Prod.mk.injEq] at h
  obtain ⟨_, _, hread, hmonth, rfl, rfl⟩ := h
  obtain ⟨field, htext, hvalue⟩ := exists_twoDigits hread
  exact ⟨field, htext, hvalue, hmonth⟩

theorem exists_day {length : Nat} (h : readDay? length text = some (day, rest)) :
    ∃ field : Fin 100, text = twoDigits field ++ rest ∧ field.val = day ∧
      1 ≤ day ∧ day ≤ length := by
  simp only [readDay?, Option.bind_eq_bind, Option.bind_eq_some_iff, Prod.exists, Bool.and_eq_true,
    decide_eq_true_eq, Option.ite_none_right_eq_some, Option.some.injEq, Prod.mk.injEq] at h
  obtain ⟨_, _, hread, hday, rfl, rfl⟩ := h
  obtain ⟨field, htext, hvalue⟩ := exists_twoDigits hread
  exact ⟨field, htext, hvalue, hday⟩

/-! ## Times of day -/

/-- Whether a text cannot belong to a time of day before it. -/
def EndsClock (text : List Char) : Prop := ¬StartsWithDigit text ∧ text.head? ≠ some '.'

theorem readFraction?_pointText {fraction? : Option (List Char)}
    (hdigits : ∀ c ∈ fraction?.getD [], c.isDigit = true) (hne : fraction? ≠ some [])
    (hrest : EndsClock rest) : readFraction? (pointText fraction? ++ rest) =
      some (dropTrailingZeros (fraction?.getD []), rest) := by
  cases fraction? with
  | none =>
    rw [pointText, List.nil_append]
    unfold readFraction?
    split
    · exact absurd rfl hrest.2
    · rfl
  | some digits =>
    have hempty : digits.isEmpty = false := List.isEmpty_eq_false_iff.mpr fun h => hne (h ▸ rfl)
    have hspan : spanDigits (digits ++ rest) = (digits, rest) := spanDigits_append hdigits hrest.1
    simp only [pointText, List.cons_append, readFraction?, hspan, hempty]
    rfl

theorem exists_pointText {fraction : List Char} (h : readFraction? text = some (fraction, rest)) :
    ∃ fraction? : Option (List Char), (∀ c ∈ fraction?.getD [], c.isDigit = true) ∧
      fraction? ≠ some [] ∧ text = pointText fraction? ++ rest ∧
        dropTrailingZeros (fraction?.getD []) = fraction := by
  unfold readFraction? at h
  split at h
  case h_1 tail =>
    simp only [Option.ite_none_left_eq_some, Option.some.injEq, Prod.mk.injEq] at h
    obtain ⟨hempty, hfraction, hrest⟩ := h
    refine ⟨some (spanDigits tail).1, isDigit_spanDigits tail, ?_, ?_, hfraction⟩
    · intro hnil
      exact hempty (List.isEmpty_iff.mpr (Option.some.inj hnil))
    · rw [pointText, List.cons_append, ← hrest, spanDigits_eq_append]
  case h_2 =>
    obtain ⟨rfl, rfl⟩ := by simpa using h
    exact ⟨none, by simp, by simp, rfl, rfl⟩

/-- Digits are all zeros if nothing is left without the zeros at the end. -/
theorem dropTrailingZeros_eq_nil {digits : List Char} :
    dropTrailingZeros digits = [] ↔ ∀ c ∈ digits, c = '0' := by
  simp [dropTrailingZeros, List.dropWhile_eq_nil_iff]

namespace WrittenClock

variable {c : WrittenClock} {endOfDay : Bool} {clock : Clock} {rest' : List Char}

theorem isEndOfDay_iff : c.isEndOfDay = true ↔ c.hour.val = 24 := beq_iff_eq

/-- If its fraction is read, a time of day is read when it is possible. -/
theorem readClock?_text_iff (hne : c.fraction? ≠ some [])
    (hfraction : readFraction? (pointText c.fraction? ++ rest) =
      some (dropTrailingZeros (c.fraction?.getD []), rest)) :
    readClock? (c.text ++ rest) = some (endOfDay, clock, rest') ↔
      c.IsPossible ∧ c.isEndOfDay = endOfDay ∧ c.clock = clock ∧ rest = rest' := by
  simp only [readClock?, text, List.append_assoc, List.cons_append, readTwoDigits?_twoDigits,
    expect?_cons, hfraction, Option.bind_eq_bind, Option.bind_some]
  split
  case isTrue hlarge =>
    simp only [reduceCtorEq, false_iff, not_and]
    intro h
    have hminute := h.minute
    have hsecond := h.second
    simp only [Bool.or_eq_true, decide_eq_true_eq] at hlarge
    omega
  case isFalse hsmall =>
    simp only [Bool.or_eq_true, decide_eq_true_eq, not_or, not_lt] at hsmall
    split
    case isTrue hhour =>
      have hend : c.isEndOfDay = false := by
        rw [Bool.eq_false_iff, ne_eq, isEndOfDay_iff]
        omega
      have hpossible : c.IsPossible :=
        ⟨hhour.le, hsmall.1, hsmall.2, hne, fun h => absurd h (by rw [hend]; decide)⟩
      simp [hpossible, hend, WrittenClock.clock, Nat.mod_eq_of_lt hhour]
    case isFalse hhour =>
      split
      case isTrue hlast =>
        simp only [Bool.and_eq_true, beq_iff_eq, List.isEmpty_iff] at hlast
        obtain ⟨⟨⟨hhour, hminute⟩, hsecond⟩, hzeros⟩ := hlast
        have hend : c.isEndOfDay = true := isEndOfDay_iff.mpr hhour
        have hpossible : c.IsPossible := ⟨hhour.le, hsmall.1, hsmall.2, hne,
          fun _ => ⟨hminute, hsecond, dropTrailingZeros_eq_nil.mp hzeros⟩⟩
        simp [hpossible, hend, WrittenClock.clock, hhour, hminute, hsecond, hzeros]
      case isFalse hother =>
        simp only [reduceCtorEq, false_iff, not_and]
        intro h
        have hend : c.isEndOfDay = true := isEndOfDay_iff.mpr (by have := h.hour; omega)
        obtain ⟨hminute, hsecond, hzeros⟩ := h.endOfDay hend
        refine absurd ?_ hother
        simp [isEndOfDay_iff.mp hend, hminute, hsecond, dropTrailingZeros_eq_nil.mpr hzeros]

/-- A time of day in front of a text that cannot belong to it is read. -/
theorem readClock?_text (h : c.IsPossible) (hrest : EndsClock rest) :
    readClock? (c.text ++ rest) = some (c.isEndOfDay, c.clock, rest) :=
  (readClock?_text_iff h.fraction (readFraction?_pointText c.isDigit h.fraction hrest)).mpr
    ⟨h, rfl, rfl, rfl⟩

end WrittenClock

/-- Only times of day are read as times of day. -/
theorem exists_writtenClock {endOfDay : Bool} {clock : Clock}
    (h : readClock? text = some (endOfDay, clock, rest)) :
    ∃ c : WrittenClock, text = c.text ++ rest ∧ c.IsPossible ∧ c.isEndOfDay = endOfDay ∧
      c.clock = clock := by
  have hparts := h
  simp only [readClock?, Option.bind_eq_bind, Option.bind_eq_some_iff, Prod.exists,
    expect?_eq_some] at hparts
  obtain ⟨_, _, hhour, _, rfl, _, _, hminute, _, rfl, _, _, hsecond, _, rest', hfraction, -⟩ := hparts
  obtain ⟨hour, rfl, -⟩ := exists_twoDigits hhour
  obtain ⟨minute, rfl, -⟩ := exists_twoDigits hminute
  obtain ⟨second, rfl, -⟩ := exists_twoDigits hsecond
  obtain ⟨fraction?, hdigits, hne, rfl, rfl⟩ := exists_pointText hfraction
  let c : WrittenClock := ⟨hour, minute, second, fraction?, hdigits⟩
  have htext : twoDigits hour ++ ':' :: (twoDigits minute ++ ':' :: (twoDigits second
      ++ (pointText fraction? ++ rest'))) = c.text ++ rest' := by
    simp [WrittenClock.text, c]
  rw [htext] at h ⊢
  obtain ⟨hpossible, hend, hclock, rfl⟩ := (WrittenClock.readClock?_text_iff hne hfraction).mp h
  exact ⟨c, rfl, hpossible, hend, hclock⟩

/-! ## Zones -/

/-- A zone that can exist is read at the end of a text. -/
theorem WrittenZone.readZone?_text {z : WrittenZone} (h : z.IsPossible) :
    readZone? z.text = some z.value := by
  cases z with
  | absent | utc => rfl
  | offset negative hours minutes =>
    obtain ⟨hminutes, hmost⟩ := h
    have hrange : ¬59 < minutes.val ∧ ¬(14 * 60 : Int) < (hours.val : Int) * 60 + minutes.val := by
      omega
    have hread : readTwoDigits? (twoDigits minutes) = some (minutes.val, []) := by
      simpa using readTwoDigits?_twoDigits minutes []
    rw [WrittenZone.text, List.cons_append, readZone?]
    · simp only [readTwoDigits?_twoDigits, expect?_cons, hread, hrange.1, hrange.2,
        Option.bind_eq_bind, Option.bind_some]
      cases negative <;> rfl
    · cases negative <;> simp

/-- Only zones are read as zones. -/
theorem exists_writtenZone {zone : Option Int} (h : readZone? text = some zone) :
    ∃ z : WrittenZone, z.text = text ∧ z.IsPossible ∧ z.value = zone := by
  unfold readZone? at h
  split at h
  case h_1 =>
    obtain rfl := Option.some.inj h
    exact ⟨.absent, rfl, trivial, rfl⟩
  case h_2 =>
    obtain rfl := Option.some.inj h
    exact ⟨.utc, rfl, trivial, rfl⟩
  case h_3 sign tail hutc =>
    simp only [Option.bind_eq_bind, Option.bind_eq_some_iff, Prod.exists, expect?_eq_some,
      Option.ite_none_left_eq_some, Bool.or_eq_true, Bool.and_eq_true, bne_iff_ne, ne_eq,
      decide_eq_true_eq, not_or, not_lt, Option.some.injEq, Bool.not_eq_true',
      List.isEmpty_eq_false_iff, not_and_or, not_not] at h
    obtain ⟨_, _, hhours, _, rfl, _, _, hminutes, ⟨⟨⟨hsign, rfl⟩, hsmall⟩, hmost⟩, rfl⟩ := h
    obtain ⟨hours, rfl, rfl⟩ := exists_twoDigits hhours
    obtain ⟨minutes, rfl, rfl⟩ := exists_twoDigits hminutes
    have hpossible (negative : Bool) : (WrittenZone.offset negative hours minutes).IsPossible :=
      ⟨hsmall, by omega⟩
    rcases hsign with rfl | rfl
    · exact ⟨.offset false hours minutes, by simp [WrittenZone.text], hpossible false, rfl⟩
    · exact ⟨.offset true hours minutes, by simp [WrittenZone.text], hpossible true, rfl⟩

/-- A zone cannot belong to a time of day before it. -/
theorem WrittenZone.endsClock_text (z : WrittenZone) : EndsClock z.text := by
  cases z with
  | absent => exact ⟨not_startsWithDigit_nil, by simp [text]⟩
  | utc => exact ⟨not_startsWithDigit_cons (by rfl), by simp [text]⟩
  | offset negative =>
    cases negative <;> exact ⟨not_startsWithDigit_cons (by rfl), by simp [text]⟩

end Moment

end SimpleTypes
