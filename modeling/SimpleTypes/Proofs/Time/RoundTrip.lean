import SimpleTypes.Proofs.Text.Words
import SimpleTypes.Proofs.Time.Reading

/-!
# Moments and back

The canonical text of a moment that was read is read as the same moment.

* `readYear?_yearText`, `readDate?_dateText`, `readClock?_clockText` and
  `readZone?_zoneText`: the parts, whatever stands after them.
* `IsRead.parse?_canonical`: the round trip.
-/

namespace SimpleTypes

namespace Moment

variable {year : Int} {month day : Nat} {date : Date} {clock : Clock} {fields : Fields}
  {zone : Option Int} {moment : Moment} {kind : TemporalKind}

/-! ## Dates -/

/-- The canonical text of a year, as a year that is written. -/
def writtenYear (year : Int) : WrittenYear :=
  ⟨decide (year < 0), paddedNumeral 4 year.natAbs, fun _ => isDigit_of_mem_paddedNumeral⟩

theorem writtenYear_text (year : Int) : (writtenYear year).text = yearText year := by
  simp [WrittenYear.text, writtenYear, yearText]

theorem writtenYear_value (year : Int) : (writtenYear year).value = year := by
  simp only [WrittenYear.value, writtenYear, natOfDigits_paddedNumeral, decide_eq_true_eq]
  split <;> omega

/-- Zeros are put in front of short numerals only. -/
theorem writtenYear_isPossible (hne : year ≠ 0) : (writtenYear year).IsPossible where
  length := by
    have := paddedNumeral_length 4 year.natAbs
    simp only [writtenYear]
    omega
  noLeadingZero hlong := by
    have := paddedNumeral_length 4 year.natAbs
    simp only [writtenYear] at hlong ⊢
    rw [paddedNumeral_of_le (by omega)]
    exact numeral_head_ne_zero (Int.natAbs_pos.mpr hne)
  ne_zero := by rwa [writtenYear_value]

/-- A year in front of a text that does not go on with a digit is read back. -/
theorem readYear?_yearText (hy : Date.IsYear year) (hfirst : -yearBound < year) {rest : List Char}
    (hrest : ¬ StartsWithDigit rest) : readYear? (yearText year ++ rest) = some (year, rest) := by
  have hfits : (writtenYear year).Fits := by
    rw [WrittenYear.Fits, writtenYear_value]
    exact abs_lt.mpr ⟨hfirst, hy.lt⟩
  have hread := WrittenYear.readYear?_text (writtenYear_isPossible hy.ne) hfits hrest
  rwa [writtenYear_text, writtenYear_value] at hread

theorem readDate?_dateText (h : date.IsDay) (hfirst : -yearBound < date.year) (rest : List Char) :
    readDate? (dateText date ++ rest) = some (date, rest) := by
  simp only [readDate?, dateText, List.append_assoc, List.cons_append,
    readYear?_yearText h.isYear hfirst (not_startsWithDigit_hyphen _), expect?_cons,
    readMonth?_twoDigits h.month, readDay?_twoDigits ⟨h.day_pos, h.day_le⟩ (daysInMonth_le _ _),
    Option.bind_eq_bind, Option.bind_some]

/-! ## Times of day -/

/-- The canonical text of a time of day, as one that is written. -/
def writtenClock (clock : Clock) (h : clock.IsTime) : WrittenClock where
  hour := ⟨clock.hour, by have := h.hour; omega⟩
  minute := ⟨clock.minute, by have := h.minute; omega⟩
  second := ⟨clock.second, by have := h.second; omega⟩
  fraction? := if clock.fraction = [] then none else some clock.fraction
  isDigit := by
    split
    · simp
    · exact h.digits

theorem writtenClock_text (h : clock.IsTime) : (writtenClock clock h).text = clockText clock := by
  by_cases hempty : clock.fraction = [] <;>
    simp [WrittenClock.text, writtenClock, clockText, Decimal.pointText, hempty]

theorem writtenClock_clock (h : clock.IsTime) : (writtenClock clock h).clock = clock := by
  have hfraction : (writtenClock clock h).fraction?.getD [] = clock.fraction := by
    by_cases hempty : clock.fraction = [] <;> simp [writtenClock, hempty]
  rw [WrittenClock.clock, hfraction, dropTrailingZeros_eq_self h.noTrailingZero]
  simp only [writtenClock, Nat.mod_eq_of_lt h.hour]

theorem writtenClock_isEndOfDay (h : clock.IsTime) : (writtenClock clock h).isEndOfDay = false :=
  beq_eq_false_iff_ne.mpr h.hour.ne

theorem writtenClock_isPossible (h : clock.IsTime) : (writtenClock clock h).IsPossible where
  hour := h.hour.le
  minute := Nat.le_of_lt_succ h.minute
  second := Nat.le_of_lt_succ h.second
  fraction := by
    by_cases hempty : clock.fraction = [] <;> simp [writtenClock, hempty]
  endOfDay hend := by
    rw [writtenClock_isEndOfDay] at hend
    cases hend

/-- A time of day is read back, and it is not the end of a day. -/
theorem readClock?_clockText (h : clock.IsTime) {rest : List Char} (hrest : EndsClock rest) :
    readClock? (clockText clock ++ rest) = some (false, clock, rest) := by
  rw [← writtenClock_text h, WrittenClock.readClock?_text (writtenClock_isPossible h) hrest,
    writtenClock_isEndOfDay, writtenClock_clock]

/-! ## Zones -/

/-- The canonical text of an offset, as a zone that is written. -/
theorem exists_writtenZone_zoneText {offset : Int} (h : IsZone offset) :
    ∃ z : WrittenZone, z.text = zoneText (some offset) ∧ z.IsPossible ∧ z.value = some offset := by
  obtain ⟨hmin, hmax⟩ := h
  by_cases hzero : offset = 0
  · exact ⟨.utc, by simp [zoneText, hzero, WrittenZone.text], trivial, by rw [hzero]; rfl⟩
  · refine ⟨.offset (decide (offset < 0)) ⟨offset.natAbs / 60, by omega⟩
      ⟨offset.natAbs % 60, by omega⟩, ?_, ⟨by simp only; omega, by simp only; omega⟩, ?_⟩
    · simp [zoneText, hzero, WrittenZone.text]
    · simp only [WrittenZone.value, decide_eq_true_eq, Option.some.injEq]
      split <;> omega

/-- A zone at the end of a text is read back. -/
theorem readZone?_zoneText (h : ∀ offset, zone = some offset → IsZone offset) :
    readZone? (zoneText zone) = some zone := by
  cases zone with
  | none => rfl
  | some offset =>
    obtain ⟨z, htext, hpossible, hvalue⟩ := exists_writtenZone_zoneText (h offset rfl)
    rw [← htext, WrittenZone.readZone?_text hpossible, hvalue]

/-- A zone cannot belong to a time of day before it. -/
theorem endsClock_zoneText (zone : Option Int) : EndsClock (zoneText zone) := by
  unfold EndsClock zoneText
  split
  · exact ⟨not_startsWithDigit_nil, by simp⟩
  · split
    · exact ⟨not_startsWithDigit_cons (by rfl), by simp⟩
    · split
      · exact ⟨not_startsWithDigit_cons (by rfl), by simp⟩
      · exact ⟨not_startsWithDigit_cons (by rfl), by simp⟩

/-! ## Moments -/

theorem readFields?_fieldsText (h : fields.IsProper)
    (hyear : ∀ year, fields.year? = some year → -yearBound < year) {rest : List Char}
    (hrest : EndsClock rest) :
    readFields? fields.kind (fieldsText fields ++ rest) = some (fields, rest) := by
  cases fields with
  | dateTime date clock =>
    simp only [Fields.kind, readFields?, fieldsText, List.append_assoc, List.cons_append,
      readDate?_dateText h.1 (hyear _ rfl), expect?_cons, readClock?_clockText h.2 hrest,
      Option.bind_eq_bind, Option.bind_some]
    rfl
  | time clock =>
    simp only [Fields.kind, readFields?, fieldsText, readClock?_clockText h hrest,
      Option.bind_eq_bind, Option.bind_some]
  | date date =>
    simp only [Fields.kind, readFields?, fieldsText, readDate?_dateText h (hyear _ rfl),
      Option.bind_eq_bind, Option.bind_some]
  | gYearMonth year month =>
    simp only [Fields.kind, readFields?, fieldsText, List.append_assoc, List.cons_append,
      readYear?_yearText h.1 (hyear _ rfl) (not_startsWithDigit_hyphen _), expect?_cons,
      readMonth?_twoDigits h.2, Option.bind_eq_bind, Option.bind_some]
  | gYear year =>
    simp only [Fields.kind, readFields?, fieldsText, readYear?_yearText h (hyear _ rfl) hrest.1,
      Option.bind_eq_bind, Option.bind_some]
  | gMonthDay month day =>
    simp only [Fields.kind, readFields?, fieldsText, List.append_assoc, List.cons_append,
      expect?_cons, readMonth?_twoDigits h.1, readDay?_twoDigits h.2 (daysInMonth_le _ _),
      Option.bind_eq_bind, Option.bind_some]
  | gDay day =>
    simp only [Fields.kind, readFields?, fieldsText, List.cons_append, expect?_cons,
      readDay?_twoDigits h le_rfl, Option.bind_eq_bind, Option.bind_some]
  | gMonth month =>
    simp only [Fields.kind, readFields?, fieldsText, List.append_assoc, List.cons_append,
      List.nil_append, expect?_cons, readMonth?_twoDigits h, Option.bind_eq_bind, Option.bind_some]

/-- A proper moment is read from its canonical text, unless it lies in the first
year, which no digits can name. -/
theorem IsProper.parse?_canonical (h : moment.IsProper) (hkind : moment.kind = kind)
    (hyear : ∀ year, moment.fields.year? = some year → -yearBound < year) :
    parse? kind moment.canonical = some moment := by
  have hfields := readFields?_fieldsText h.fields hyear (endsClock_zoneText moment.zone)
  have hkind : moment.fields.kind = kind := hkind
  rw [hkind] at hfields
  simp only [parse?, canonical, hfields, readZone?_zoneText h.zone, Option.bind_eq_bind,
    Option.bind_some]

/-- A moment that was read under some limits is read again from its canonical
text. -/
theorem IsRead.parse?_canonical (h : moment.IsRead kind) :
    parse? kind moment.canonical = some moment :=
  h.toIsProper.parse?_canonical h.kind fun _ hyear => (h.year_bounds hyear).1

/-! ## The text as a word -/

theorem blankFree_paddedNumeral (width n : Nat) : BlankFree (paddedNumeral width n) :=
  blankFree_of_isDigit fun _ => isDigit_of_mem_paddedNumeral

theorem blankFree_yearText (year : Int) : BlankFree (yearText year) := by
  refine .append ?_ (blankFree_paddedNumeral _ _)
  split
  · exact .cons (by rfl) blankFree_nil
  · exact blankFree_nil

theorem blankFree_dateText (date : Date) : BlankFree (dateText date) :=
  .append (.append (blankFree_yearText _) (.cons (by rfl) (blankFree_paddedNumeral _ _)))
    (.cons (by rfl) (blankFree_paddedNumeral _ _))

theorem blankFree_clockText (h : clock.IsTime) : BlankFree (clockText clock) := by
  refine .append (.append (.append (blankFree_paddedNumeral _ _)
    (.cons (by rfl) (blankFree_paddedNumeral _ _)))
    (.cons (by rfl) (blankFree_paddedNumeral _ _))) ?_
  split
  · exact blankFree_nil
  · exact .cons (by rfl) (blankFree_of_isDigit h.digits)

theorem blankFree_zoneText (zone : Option Int) : BlankFree (zoneText zone) := by
  unfold zoneText
  split
  · exact blankFree_nil
  · split
    · exact .cons (by rfl) blankFree_nil
    · refine .append (.cons ?_ (blankFree_paddedNumeral _ _))
        (.cons (by rfl) (blankFree_paddedNumeral _ _))
      split <;> rfl

theorem blankFree_fieldsText (h : fields.IsProper) : BlankFree (fieldsText fields) := by
  cases fields with
  | dateTime date clock =>
    exact .append (blankFree_dateText date) (.cons (by rfl) (blankFree_clockText h.2))
  | time clock => exact blankFree_clockText h
  | date date => exact blankFree_dateText date
  | gYearMonth year month =>
    exact .append (blankFree_yearText year) (.cons (by rfl) (blankFree_paddedNumeral _ _))
  | gYear year => exact blankFree_yearText year
  | gMonthDay month day =>
    exact .append (.cons (by rfl) (.cons (by rfl) (blankFree_paddedNumeral _ _)))
      (.cons (by rfl) (blankFree_paddedNumeral _ _))
  | gDay day =>
    exact .cons (by rfl) (.cons (by rfl) (.cons (by rfl) (blankFree_paddedNumeral _ _)))
  | gMonth month =>
    exact .append (.cons (by rfl) (.cons (by rfl) (blankFree_paddedNumeral _ _)))
      (.cons (by rfl) (.cons (by rfl) blankFree_nil))

/-- No moment is read from nothing, so the canonical text is a word. -/
theorem IsRead.isWord_canonical (h : moment.IsRead kind) : IsWord moment.canonical := by
  refine ⟨?_, .append (blankFree_fieldsText h.fields) (blankFree_zoneText _)⟩
  intro hnil
  have hparse := h.parse?_canonical
  rw [hnil] at hparse
  cases kind <;> cases hparse

end Moment

end SimpleTypes
