import SimpleTypes.Proofs.Time.RoundTrip

/-!
# The end of a day

At every year that can be held, a moment is read again from its canonical text. The last
moment of a day is the first one of the next day, so that a text with the hour 24 is read as
if the next day and midnight stood in it.

* `Date.next`: the day after a day, by the lengths of months and without a year zero.
* `IsDay.eq_next_of_addDays?`: a date that is moved by one day becomes the next day.
* `parse?_canonical_eq`: the round trip at every year, and the end of a day.
-/

namespace SimpleTypes

/-! ## The next day -/

namespace Date

variable {date date' : Date}

/-- The day after a day: the next one of its month, or the first of the next month, or the
first of January of the next year. -/
def next (date : Date) : Date :=
  if date.day < daysInMonth (some date.year) date.month then
    ⟨date.year, date.month, date.day + 1⟩
  else if date.month < 12 then ⟨date.year, date.month + 1, 1⟩
  else ⟨nextYear date.year, 1, 1⟩

/-- After the last day before the year 1 there is no year zero. -/
example : next ⟨-1, 12, 31⟩ = ⟨1, 1, 1⟩ := by decide

/-- The first of a month is as far as a walk gets that has one day left. -/
theorem forward?_one (year : Int) {month : Nat} (hm : IsMonth month) :
    forward? year month 1 = some ⟨year, month, 1⟩ := by
  have hlength := daysInMonth_pos (some year) hm
  rw [forward?]
  exact dif_pos (.inl (by omega))

/-- A date that is moved by one day becomes the next day. -/
theorem IsDay.eq_next_of_addDays? (h : date.IsDay) (hmoved : date.addDays? 1 = some date') :
    date' = date.next := by
  have hday := h.day_le
  have hlength := daysInMonth_pos (some date.year) h.month
  have hcount := h.isDayCount_add 1 (by omega) (by omega)
  have htarget : ((date.day : Int) + 1).toNat = date.day + 1 := by omega
  rw [addDays?_of_isDayCount hcount, if_pos (by omega), htarget, forward?] at hmoved
  rw [next]
  split
  case isTrue hbefore =>
    rw [dif_pos (.inl (by omega))] at hmoved
    exact (Option.some.inj hmoved).symm
  case isFalse hlast =>
    -- The day is the last one of its month, so one day is left for the following month.
    have hleft : date.day + 1 - daysInMonth (some date.year) date.month = 1 := by omega
    rw [dif_neg (by omega), followingMonth?] at hmoved
    split
    case isTrue hmonth =>
      have hnext : IsMonth (date.month + 1) := ⟨by omega, by omega⟩
      simp only [if_pos hmonth, hleft, forward?_one _ hnext, Option.some.injEq] at hmoved
      exact hmoved.symm
    case isFalse hmonth =>
      rw [if_neg hmonth] at hmoved
      cases hyear : followingYear? date.year with
      | none =>
        rw [hyear] at hmoved
        cases hmoved
      | some year =>
        obtain ⟨-, rfl⟩ := followingYear?_eq_some h.isYear hyear
        have hjanuary : IsMonth 1 := ⟨le_rfl, by decide⟩
        simp only [hyear, Option.map_some, hleft, forward?_one _ hjanuary,
          Option.some.injEq] at hmoved
        exact hmoved.symm

end Date

namespace Moment

variable {day zone rest : List Char} {kind : TemporalKind} {moment : Moment}

/-! ## The letter between date and time -/

theorem notMem_twoDigits {c : Char} (hc : c.isDigit = false) (n : Nat) : c ∉ twoDigits n :=
  notMem_of_isDigit hc fun _ => isDigit_of_mem_paddedNumeral

theorem WrittenDate.letter_notMem_text (d : WrittenDate) : 'T' ∉ d.text := by
  have hyear : 'T' ∉ d.year.digits := notMem_of_isDigit rfl d.year.isDigit
  cases hnegative : d.year.negative <;>
    simp [text, WrittenYear.text, hnegative, hyear, notMem_twoDigits]

theorem WrittenClock.letter_notMem_text (c : WrittenClock) : 'T' ∉ c.text := by
  have hfraction : 'T' ∉ c.fraction?.getD [] := notMem_of_isDigit rfl c.isDigit
  cases hpoint : c.fraction? with
  | none => simp [text, hpoint, Decimal.pointText, notMem_twoDigits]
  | some digits =>
    rw [hpoint] at hfraction
    simpa [text, hpoint, Decimal.pointText, notMem_twoDigits] using hfraction

theorem WrittenZone.letter_notMem_text (z : WrittenZone) : 'T' ∉ z.text := by
  cases z with
  | absent | utc => decide
  | offset negative hours minutes => cases negative <;> simp [text, notMem_twoDigits]

/-! ## The hour 24 -/

theorem twoDigits_append_inj {a b : Fin 100} {rest rest' : List Char}
    (h : twoDigits a ++ rest = twoDigits b ++ rest') : a = b ∧ rest = rest' := by
  have hread := congrArg readTwoDigits? h
  rw [readTwoDigits?_twoDigits, readTwoDigits?_twoDigits, Option.some.injEq, Prod.mk.injEq] at hread
  exact ⟨Fin.ext hread.1, hread.2⟩

/-- What is written as 24 hours is the hour 24. A fraction may go on after it. -/
theorem WrittenClock.eq_of_text {c : WrittenClock}
    (h : c.text ++ rest = "24:00:00".toList ++ zone) :
    c.hour = 24 ∧ c.minute = 0 ∧ c.second = 0 ∧ Decimal.pointText c.fraction? ++ rest = zone := by
  have htext : "24:00:00".toList
      = twoDigits (24 : Fin 100) ++ ':' :: twoDigits (0 : Fin 100) ++ ':' :: twoDigits (0 : Fin 100) := by
    decide
  simp only [text, htext, List.append_assoc, List.cons_append] at h
  obtain ⟨hhour, h⟩ := twoDigits_append_inj h
  obtain ⟨hminute, h⟩ := twoDigits_append_inj (List.cons.inj h).2
  obtain ⟨hsecond, h⟩ := twoDigits_append_inj (List.cons.inj h).2
  exact ⟨hhour, hminute, hsecond, h⟩

/-- The same time of day with the hour zero. -/
def WrittenClock.atZero (c : WrittenClock) : WrittenClock :=
  { c with hour := ⟨0, by decide⟩ }

/-- The end of a day is the midnight that is written with the hour zero. -/
theorem WrittenClock.IsPossible.atZero {c : WrittenClock} (h : c.IsPossible)
    (hend : c.isEndOfDay = true) :
    c.atZero.IsPossible ∧ c.atZero.isEndOfDay = false ∧ c.clock = ⟨0, 0, 0, []⟩ ∧
      c.atZero.clock = ⟨0, 0, 0, []⟩ := by
  obtain ⟨hminute, hsecond, hzeros⟩ := h.endOfDay hend
  have hfraction := dropTrailingZeros_eq_nil.mpr hzeros
  have hhour := isEndOfDay_iff.mp hend
  refine ⟨⟨Nat.zero_le _, h.minute, h.second, h.fraction, fun h => by cases h⟩, rfl, ?_, ?_⟩
  · simp [WrittenClock.clock, hhour, hminute, hsecond, hfraction]
  · simp [WrittenClock.clock, WrittenClock.atZero, hminute, hsecond, hfraction]

/-- The same time of day with the hour zero is written so. -/
theorem WrittenClock.atZero_text {c : WrittenClock} (hminute : c.minute = 0) (hsecond : c.second = 0) :
    c.atZero.text = "00:00:00".toList ++ Decimal.pointText c.fraction? := by
  simp only [text, atZero, hminute, hsecond]
  rfl

/-- What is read with the hour 24 begins with a date, and it is read like the next day with
the hour zero in its place. -/
theorem exists_next_of_parse?
    (h : parse? .dateTime (day ++ "T24:00:00".toList ++ zone) = some moment) :
    ∃ date : Date, parse? .date day = some ⟨.date date, none⟩ ∧ date.IsDay ∧ date.next.IsDay ∧
      date.next.dayNumber = date.dayNumber + 1 ∧
      moment.fields = .dateTime date.next ⟨0, 0, 0, []⟩ ∧
      parse? .dateTime (dateText date.next ++ "T00:00:00".toList ++ zone) = some moment := by
  obtain ⟨rest, hfields, hzone⟩ := parse?_eq_some h
  obtain ⟨f, hkind, htext, hpossible, hfits, hmeant⟩ := exists_writtenFields hfields
  obtain ⟨z, rfl, -, -⟩ := exists_writtenZone hzone
  cases f with
  | dateTime d c =>
    have hday := WrittenFields.isDay_dateTime hpossible hfits
    have hsplit : d.text ++ 'T' :: (c.text ++ z.text) = day ++ 'T' :: ("24:00:00".toList ++ zone) := by
      simpa [WrittenFields.text] using htext.symm
    obtain ⟨rfl, -, hclock⟩ := (List.append_cons_inj_of_notMem d.letter_notMem_text
      (List.not_mem_append c.letter_notMem_text z.letter_notMem_text)).mp hsplit
    obtain ⟨hhour, hminute, hsecond, rfl⟩ := WrittenClock.eq_of_text hclock
    have hend : c.isEndOfDay = true := WrittenClock.isEndOfDay_iff.mpr (by rw [hhour]; rfl)
    obtain ⟨hzero, hnotEnd, hmidnight, hmidnight'⟩ := (hpossible.clock c rfl).atZero hend
    -- What is meant is the day that the date becomes when it is moved, at midnight.
    rw [WrittenFields.fields?, if_pos hend, hmidnight, Option.map_eq_some_iff] at hmeant
    obtain ⟨next, hmoved, hmeant⟩ := hmeant
    obtain rfl := hday.eq_next_of_addDays? hmoved
    have hnext := hday.addDays?_isDayOf 1 (hday.isDayCount_add 1 (by omega) (by omega))
    rw [hmoved] at hnext
    have hyear : -yearBound < d.date.next.year :=
      parse?_lt_year h (congrArg Fields.year? hmeant.symm)
    refine ⟨d.date, ?_, hday, hnext.1, hnext.2, hmeant.symm, ?_⟩
    · have hread := d.readDate?_text (hpossible.year _ rfl) (hfits _ rfl) hday []
      rw [List.append_nil] at hread
      simp only [parse?, readFields?, hread, readZone?, Option.bind_eq_bind, Option.bind_some]
    · have hsame : "T00:00:00".toList ++ (Decimal.pointText c.fraction? ++ z.text)
          = 'T' :: (c.atZero.text ++ z.text) := by
        rw [WrittenClock.atZero_text hminute hsecond, List.append_assoc]
        rfl
      rw [List.append_assoc, hsame]
      simp only [parse?, readFields?, readDate?_dateText hnext.1 hyear, expect?_cons,
        WrittenClock.readClock?_text hzero z.endsClock_text, hnotEnd, hmidnight', hzone,
        Option.bind_eq_bind, Option.bind_some, Bool.false_eq_true, if_false, hmeant]
  | _ => cases hkind

/-! ## The round trip -/

/-- A moment that is read is read again from its canonical text, field for field and whatever
its year is. A text of a date and the hour 24 is read as the day after the date with the hour
zero in its place. -/
theorem parse?_canonical_eq :
    (∀ kind text moment, parse? kind text = some moment →
      parse? kind moment.canonical = some moment) ∧
    ∀ day zone moment, parse? .dateTime (day ++ "T24:00:00".toList ++ zone) = some moment →
      ∃ date : Date, parse? .date day = some ⟨.date date, none⟩ ∧ date.IsDay ∧ date.next.IsDay ∧
        date.next.dayNumber = date.dayNumber + 1 ∧
        moment.fields = .dateTime date.next ⟨0, 0, 0, []⟩ ∧
        parse? .dateTime (dateText date.next ++ "T00:00:00".toList ++ zone) = some moment :=
  ⟨fun _ _ _ h => (parse?_isProper h).parse?_canonical (parse?_kind h) fun _ => parse?_lt_year h,
    fun _ _ _ => exists_next_of_parse?⟩

/-- The end of the year before the year 1 is the beginning of the year 1. -/
theorem parse?_canonical_eq_endOfFirstYear :
    ∃ moment, parse? .dateTime "-0001-12-31T24:00:00-00:30".toList = some moment ∧
      parse? .dateTime moment.canonical = some moment ∧
      ∃ date : Date, parse? .date "-0001-12-31".toList = some ⟨.date date, none⟩ ∧
        date.next = ⟨1, 1, 1⟩ ∧
        parse? .dateTime "0001-01-01T00:00:00-00:30".toList = some moment := by
  have hread : parse? .dateTime ("-0001-12-31".toList ++ "T24:00:00".toList ++ "-00:30".toList)
      = some ⟨.dateTime ⟨1, 1, 1⟩ ⟨0, 0, 0, []⟩, some (-30)⟩ := by decide +kernel
  obtain ⟨date, hdate, -, -, -, hfields, hsame⟩ := parse?_canonical_eq.2 _ _ _ hread
  obtain ⟨hnext, -⟩ := Fields.dateTime.inj hfields
  rw [← hnext] at hsame
  exact ⟨_, hread, parse?_canonical_eq.1 _ _ _ hread, date, hdate, hnext.symm, hsame⟩

end Moment

end SimpleTypes
