import SimpleTypes.Proofs.Time.Notation

/-!
# Layouts of dates and times

Each of the eight kinds of dates and times has one layout of fields, with a zone behind
it. A text is read if it has the layout, if its fields are possible, and if its year can
be held.

* `WrittenFields` and `Written`: the layouts. `IsPossible` asks for a month and a day of
  the calendar, a time of the day and a zone. `Fits` asks that no year is too large.
  `WrittenFields.fields?` is what is meant.
* `ReadsFields`: what the parts of each kind are read as. Whatever is read is read so
  (`readsFields_of_readFields?`).
* `exists_writtenFields` and `WrittenFields.readFields?_text`: what is read is written so,
  and what is written so is read.
* `isSome_parse?_iff`: which texts are read.
-/

namespace SimpleTypes

namespace Moment

/-! ## Layouts -/

/-- A date as it is written: year, month and day with hyphens between them. -/
structure WrittenDate where
  year : WrittenYear
  month : Fin 100
  day : Fin 100

/-- The characters of a date. -/
def WrittenDate.text (d : WrittenDate) : List Char :=
  d.year.text ++ '-' :: twoDigits d.month ++ '-' :: twoDigits d.day

/-- The date that is meant. -/
def WrittenDate.date (d : WrittenDate) : Date := ⟨d.year.value, d.month, d.day⟩

/-- The fields of a date or a time as they are written, by kind. -/
inductive WrittenFields where
  | dateTime (date : WrittenDate) (clock : WrittenClock)
  | time (clock : WrittenClock)
  | date (date : WrittenDate)
  | gYearMonth (year : WrittenYear) (month : Fin 100)
  | gYear (year : WrittenYear)
  | gMonthDay (month day : Fin 100)
  | gDay (day : Fin 100)
  | gMonth (month : Fin 100)

namespace WrittenFields

/-- The kind that has these fields. -/
def kind : WrittenFields → TemporalKind
  | dateTime _ _ => .dateTime
  | time _ => .time
  | date _ => .date
  | gYearMonth _ _ => .gYearMonth
  | gYear _ => .gYear
  | gMonthDay _ _ => .gMonthDay
  | gDay _ => .gDay
  | gMonth _ => .gMonth

/-- The characters of the fields. -/
def text : WrittenFields → List Char
  | dateTime d clock => d.text ++ 'T' :: clock.text
  | time clock => clock.text
  | date d => d.text
  | gYearMonth year month => year.text ++ '-' :: twoDigits month
  | gYear year => year.text
  | gMonthDay month day => '-' :: '-' :: twoDigits month ++ '-' :: twoDigits day
  | gDay day => '-' :: '-' :: '-' :: twoDigits day
  | gMonth month => '-' :: '-' :: twoDigits month ++ ['-', '-']

/-- The year, of the kinds that have one. -/
def year? : WrittenFields → Option WrittenYear
  | dateTime d _ | date d => some d.year
  | gYearMonth year _ | gYear year => some year
  | _ => none

/-- The month, of the kinds that have one. -/
def month? : WrittenFields → Option (Fin 100)
  | dateTime d _ | date d => some d.month
  | gYearMonth _ month | gMonthDay month _ | gMonth month => some month
  | _ => none

/-- The day of the month, of the kinds that have one. -/
def day? : WrittenFields → Option (Fin 100)
  | dateTime d _ | date d => some d.day
  | gMonthDay _ day | gDay day => some day
  | _ => none

/-- The time of day, of the kinds that have one. -/
def clock? : WrittenFields → Option WrittenClock
  | dateTime _ clock | time clock => some clock
  | _ => none

/-- The fields that are meant. After the end of a day they are those of the next day. -/
def fields? : WrittenFields → Option Fields
  | dateTime d clock =>
    (if clock.isEndOfDay then d.date.addDays? 1 else some d.date).map (.dateTime · clock.clock)
  | time clock => some (.time clock.clock)
  | date d => some (.date d.date)
  | gYearMonth year month => some (.gYearMonth year.value month)
  | gYear year => some (.gYear year.value)
  | gMonthDay month day => some (.gMonthDay month day)
  | gDay day => some (.gDay day)
  | gMonth month => some (.gMonth month)

/-- The greatest day that the year and the month leave room for. Without a year February
has 29 days, and without a month there are 31. -/
def lastDay (f : WrittenFields) : Nat :=
  match f.month? with
  | some month => daysInMonth (f.year?.map WrittenYear.value) month
  | none => 31

/-- The date whose last moment is written, if it is that of a date and a time. -/
def endedDate? : WrittenFields → Option Date
  | dateTime d clock => if clock.isEndOfDay then some d.date else none
  | _ => none

/-- Whether all fields are those of the calendar and of a day. -/
structure IsPossible (f : WrittenFields) : Prop where
  year : ∀ year, f.year? = some year → year.IsPossible
  month : ∀ month, f.month? = some month → IsMonth month
  day : ∀ day, f.day? = some day → 1 ≤ day.val ∧ day.val ≤ f.lastDay
  clock : ∀ clock, f.clock? = some clock → clock.IsPossible

/-- Whether the year can be held, and after the end of a day also that of the next day. -/
structure Fits (f : WrittenFields) : Prop where
  year : ∀ year, f.year? = some year → year.Fits
  nextDay : ∀ date, f.endedDate? = some date → date.yearOfNext < yearBound

end WrittenFields

/-- A date or a time as it is written: its fields, and a zone behind them. -/
structure Written where
  fields : WrittenFields
  zone : WrittenZone

namespace Written

/-- The kind of a date or a time. -/
def kind (w : Written) : TemporalKind := w.fields.kind

/-- The characters of a date or a time. -/
def text (w : Written) : List Char := w.fields.text ++ w.zone.text

/-- Whether a date or a time can exist. -/
def IsPossible (w : Written) : Prop := w.fields.IsPossible ∧ w.zone.IsPossible

/-- Whether the years of a date or a time can be held. -/
def Fits (w : Written) : Prop := w.fields.Fits

end Written

variable {text rest : List Char} {kind : TemporalKind}

/-! ## Dates -/

/-- What makes a date that is written a day of the calendar. -/
theorem WrittenDate.isDay {d : WrittenDate} (hyear : d.year.IsPossible) (hfits : d.year.Fits)
    (hmonth : IsMonth d.month)
    (hday : 1 ≤ d.day.val ∧ d.day.val ≤ daysInMonth (some d.year.value) d.month) :
    d.date.IsDay := by
  have hy := hyear.isYear hfits
  exact ⟨hy.ge, hy.lt, hy.ne, hmonth, hday.1, hday.2⟩

theorem WrittenDate.readDate?_text {d : WrittenDate} (hyear : d.year.IsPossible)
    (hfits : d.year.Fits) (hday : d.date.IsDay) (rest : List Char) :
    readDate? (d.text ++ rest) = some (d.date, rest) := by
  have hmonth : IsMonth d.month := hday.month
  have hlast : 1 ≤ d.day.val ∧ d.day.val ≤ daysInMonth (some d.year.value) d.month :=
    ⟨hday.day_pos, hday.day_le⟩
  simp only [readDate?, WrittenDate.text, List.append_assoc, List.cons_append,
    WrittenYear.readYear?_text hyear hfits (not_startsWithDigit_hyphen _), expect?_cons,
    readMonth?_twoDigits hmonth, readDay?_twoDigits hlast (daysInMonth_le _ _),
    Option.bind_eq_bind, Option.bind_some]
  rfl

theorem exists_writtenDate {date : Date} (h : readDate? text = some (date, rest)) :
    ∃ d : WrittenDate, text = d.text ++ rest ∧ d.date = date ∧ d.year.IsPossible ∧ d.year.Fits ∧
      d.date.IsDay := by
  simp only [readDate?, Option.bind_eq_bind, Option.bind_eq_some_iff, Prod.exists,
    expect?_eq_some, Option.some.injEq, Prod.mk.injEq] at h
  obtain ⟨_, _, hyear, _, rfl, _, _, hmonth, _, rfl, _, _, hday, rfl, rfl⟩ := h
  obtain ⟨year, rfl, rfl, hpossible, hfits⟩ := exists_writtenYear hyear
  obtain ⟨month, rfl, rfl, hm⟩ := exists_month hmonth
  obtain ⟨day, rfl, rfl, hd⟩ := exists_day hday
  exact ⟨⟨year, month, day⟩, by simp [WrittenDate.text], rfl, hpossible, hfits,
    WrittenDate.isDay hpossible hfits hm hd⟩

/-! ## Fields -/

namespace WrittenFields

variable {f : WrittenFields}

theorem isDay_dateTime {d : WrittenDate} {clock : WrittenClock}
    (h : (dateTime d clock).IsPossible)
    (hfits : ∀ year, (dateTime d clock).year? = some year → year.Fits) : d.date.IsDay :=
  d.isDay (h.year _ rfl) (hfits _ rfl) (h.month _ rfl) (h.day _ rfl)

theorem isDay_date {d : WrittenDate} (h : (date d).IsPossible)
    (hfits : ∀ year, (date d).year? = some year → year.Fits) : d.date.IsDay :=
  d.isDay (h.year _ rfl) (hfits _ rfl) (h.month _ rfl) (h.day _ rfl)

/-- What is asked of the parts, by kind. -/
def PartsHold : WrittenFields → Prop
  | dateTime d clock => d.year.IsPossible ∧ d.year.Fits ∧ d.date.IsDay ∧ clock.IsPossible
  | time clock => clock.IsPossible
  | date d => d.year.IsPossible ∧ d.year.Fits ∧ d.date.IsDay
  | gYearMonth year month => year.IsPossible ∧ year.Fits ∧ IsMonth month
  | gYear year => year.IsPossible ∧ year.Fits
  | gMonthDay month day => IsMonth month ∧ 1 ≤ day.val ∧ day.val ≤ daysInMonth none month
  | gDay day => 1 ≤ day.val ∧ day.val ≤ 31
  | gMonth month => IsMonth month

theorem PartsHold.fits (h : f.PartsHold) : ∀ year, f.year? = some year → year.Fits := by
  intro year hyear
  cases f <;> cases hyear
  case dateTime | date | gYearMonth => exact h.2.1
  case gYear => exact h.2

theorem PartsHold.isPossible (h : f.PartsHold) : f.IsPossible := by
  -- In each case only the kinds that have the part are left.
  constructor
  case year =>
    intro year hyear
    cases f <;> cases hyear
    all_goals exact h.1
  case month =>
    intro month hmonth
    cases f <;> cases hmonth
    case dateTime => exact h.2.2.1.month
    case date => exact h.2.2.month
    case gYearMonth => exact h.2.2
    case gMonthDay => exact h.1
    case gMonth => exact h
  case day =>
    intro day hday
    cases f <;> cases hday
    case dateTime => exact ⟨h.2.2.1.day_pos, h.2.2.1.day_le⟩
    case date => exact ⟨h.2.2.day_pos, h.2.2.day_le⟩
    case gMonthDay => exact h.2
    case gDay => exact h
  case clock =>
    intro clock hclock
    cases f <;> cases hclock
    case dateTime => exact h.2.2.2
    case time => exact h

/-- Possible fields mean something unless they end the last day that there is. -/
theorem isSome_fields?_iff (h : f.IsPossible) (hfits : ∀ year, f.year? = some year → year.Fits) :
    f.fields?.isSome = true ↔ f.Fits := by
  cases f with
  | dateTime d clock =>
    have hday := isDay_dateTime h hfits
    rw [fields?, Option.isSome_map]
    constructor
    · intro hsome
      refine ⟨hfits, fun date hended => ?_⟩
      simp only [endedDate?, Option.ite_none_right_eq_some, Option.some.injEq] at hended
      obtain ⟨hend, rfl⟩ := hended
      rw [if_pos hend] at hsome
      exact hday.isSome_addDays?_one_iff.mp hsome
    · intro hall
      split
      case isTrue hend =>
        exact hday.isSome_addDays?_one_iff.mpr (hall.nextDay _ (if_pos hend))
      case isFalse => rfl
  | _ => exact ⟨fun _ => ⟨hfits, fun _ hended => by cases hended⟩, fun _ => rfl⟩

/-- The form in which a date and a time are read: the next day is looked for before there
are any fields. -/
theorem map_fields?_dateTime (d : WrittenDate) (clock : WrittenClock) (rest : List Char) :
    (dateTime d clock).fields?.map (·, rest) =
      if clock.isEndOfDay then
        (d.date.addDays? 1).bind fun date => some (.dateTime date clock.clock, rest)
      else some (.dateTime d.date clock.clock, rest) := by
  rw [fields?]
  split
  · cases d.date.addDays? 1 <;> rfl
  · rfl

/-- Fields that are possible are read as what they mean, in front of a text that cannot
belong to a time of day. -/
theorem readFields?_text (h : f.IsPossible) (hfits : ∀ year, f.year? = some year → year.Fits)
    (hrest : EndsClock rest) :
    readFields? f.kind (f.text ++ rest) = f.fields?.map (·, rest) := by
  cases f with
  | dateTime d clock =>
    simp only [kind, text, readFields?, List.append_assoc, List.cons_append,
      WrittenDate.readDate?_text (h.year _ rfl) (hfits _ rfl) (isDay_dateTime h hfits),
      expect?_cons, WrittenClock.readClock?_text (h.clock _ rfl) hrest, Option.bind_eq_bind,
      Option.bind_some, map_fields?_dateTime]
  | time clock =>
    simp only [kind, text, readFields?, WrittenClock.readClock?_text (h.clock _ rfl) hrest,
      Option.bind_eq_bind, Option.bind_some]
    rfl
  | date d =>
    simp only [kind, text, readFields?,
      WrittenDate.readDate?_text (h.year _ rfl) (hfits _ rfl) (isDay_date h hfits),
      Option.bind_eq_bind, Option.bind_some]
    rfl
  | gYearMonth year month =>
    simp only [kind, text, readFields?, List.append_assoc, List.cons_append,
      WrittenYear.readYear?_text (h.year _ rfl) (hfits _ rfl) (not_startsWithDigit_hyphen _),
      expect?_cons, readMonth?_twoDigits (h.month _ rfl), Option.bind_eq_bind, Option.bind_some]
    rfl
  | gYear year =>
    simp only [kind, text, readFields?,
      WrittenYear.readYear?_text (h.year _ rfl) (hfits _ rfl) hrest.1, Option.bind_eq_bind,
      Option.bind_some]
    rfl
  | gMonthDay month day =>
    have hday : 1 ≤ day.val ∧ day.val ≤ daysInMonth none month := h.day _ rfl
    simp only [kind, text, readFields?, List.append_assoc, List.cons_append, expect?_cons,
      readMonth?_twoDigits (h.month _ rfl), readDay?_twoDigits hday (daysInMonth_le _ _),
      Option.bind_eq_bind, Option.bind_some]
    rfl
  | gDay day =>
    have hday : 1 ≤ day.val ∧ day.val ≤ 31 := h.day _ rfl
    simp only [kind, text, readFields?, List.cons_append, expect?_cons,
      readDay?_twoDigits hday le_rfl, Option.bind_eq_bind, Option.bind_some]
    rfl
  | gMonth month =>
    simp only [kind, text, readFields?, List.append_assoc, List.cons_append, List.nil_append,
      expect?_cons, readMonth?_twoDigits (h.month _ rfl), Option.bind_eq_bind, Option.bind_some]
    rfl

end WrittenFields

/-! ## Reading fields -/

/-- The fields of a kind in front of a rest, by what their parts are read as. -/
inductive ReadsFields : TemporalKind → List Char → Fields → List Char → Prop
  | dateTime {text afterDate rest : List Char} {date moved : Date} {clock : Clock}
      {endOfDay : Bool} (hdate : readDate? text = some (date, 'T' :: afterDate))
      (hclock : readClock? afterDate = some (endOfDay, clock, rest))
      (hmoved : (if endOfDay then date.addDays? 1 else some date) = some moved) :
      ReadsFields .dateTime text (.dateTime moved clock) rest
  | time {text rest : List Char} {clock : Clock} {endOfDay : Bool}
      (hclock : readClock? text = some (endOfDay, clock, rest)) :
      ReadsFields .time text (.time clock) rest
  | date {text rest : List Char} {date : Date} (hdate : readDate? text = some (date, rest)) :
      ReadsFields .date text (.date date) rest
  | gYearMonth {text afterYear rest : List Char} {year : Int} {month : Nat}
      (hyear : readYear? text = some (year, '-' :: afterYear))
      (hmonth : readMonth? afterYear = some (month, rest)) :
      ReadsFields .gYearMonth text (.gYearMonth year month) rest
  | gYear {text rest : List Char} {year : Int} (hyear : readYear? text = some (year, rest)) :
      ReadsFields .gYear text (.gYear year) rest
  | gMonthDay {text afterMonth rest : List Char} {month day : Nat}
      (hmonth : readMonth? text = some (month, '-' :: afterMonth))
      (hday : readDay? (daysInMonth none month) afterMonth = some (day, rest)) :
      ReadsFields .gMonthDay ('-' :: '-' :: text) (.gMonthDay month day) rest
  | gDay {text rest : List Char} {day : Nat} (hday : readDay? 31 text = some (day, rest)) :
      ReadsFields .gDay ('-' :: '-' :: '-' :: text) (.gDay day) rest
  | gMonth {text rest : List Char} {month : Nat}
      (hmonth : readMonth? text = some (month, '-' :: '-' :: rest)) :
      ReadsFields .gMonth ('-' :: '-' :: text) (.gMonth month) rest

theorem readsFields_of_readFields? {fields : Fields}
    (h : readFields? kind text = some (fields, rest)) : ReadsFields kind text fields rest := by
  cases kind <;> simp only [readFields?, Option.bind_eq_bind, Option.bind_eq_some_iff,
    Option.bind_some, Prod.exists, expect?_eq_some, Option.some.injEq, Prod.mk.injEq] at h
  case dateTime =>
    obtain ⟨_, _, hdate, _, rfl, endOfDay, _, _, hclock, hmoved⟩ := h
    split at hmoved
    case isTrue hend =>
      obtain ⟨_, hnext, heq⟩ := Option.bind_eq_some_iff.mp hmoved
      cases heq
      exact .dateTime hdate hclock (by rw [if_pos hend, hnext])
    case isFalse hend =>
      cases hmoved
      exact .dateTime hdate hclock (if_neg hend)
  case time =>
    obtain ⟨_, _, _, hclock, rfl, rfl⟩ := h
    exact .time hclock
  case date =>
    obtain ⟨_, _, hdate, rfl, rfl⟩ := h
    exact .date hdate
  case gYearMonth =>
    obtain ⟨_, _, hyear, _, rfl, _, _, hmonth, rfl, rfl⟩ := h
    exact .gYearMonth hyear hmonth
  case gYear =>
    obtain ⟨_, _, hyear, rfl, rfl⟩ := h
    exact .gYear hyear
  case gMonthDay =>
    obtain ⟨_, rfl, _, rfl, _, _, hmonth, _, rfl, _, _, hday, rfl, rfl⟩ := h
    exact .gMonthDay hmonth hday
  case gDay =>
    obtain ⟨_, rfl, _, rfl, _, rfl, _, _, hday, rfl, rfl⟩ := h
    exact .gDay hday
  case gMonth =>
    obtain ⟨_, rfl, _, rfl, _, _, hmonth, _, rfl, _, rfl, rfl, rfl⟩ := h
    exact .gMonth hmonth

/-- What is read as the parts of a kind is written in the layout of the kind. -/
theorem ReadsFields.exists_parts {fields : Fields} (h : ReadsFields kind text fields rest) :
    ∃ f : WrittenFields, f.kind = kind ∧ text = f.text ++ rest ∧ f.PartsHold ∧
      f.fields? = some fields := by
  cases h with
  | dateTime hdate hclock hmoved =>
    obtain ⟨d, rfl, rfl, hpossible, hfits, hday⟩ := exists_writtenDate hdate
    obtain ⟨clock, rfl, htime, rfl, rfl⟩ := exists_writtenClock hclock
    refine ⟨.dateTime d clock, rfl, by simp [WrittenFields.text],
      ⟨hpossible, hfits, hday, htime⟩, ?_⟩
    rw [WrittenFields.fields?, hmoved, Option.map_some]
  | time hclock =>
    obtain ⟨clock, rfl, htime, -, rfl⟩ := exists_writtenClock hclock
    exact ⟨.time clock, rfl, rfl, htime, rfl⟩
  | date hdate =>
    obtain ⟨d, rfl, rfl, hpossible, hfits, hday⟩ := exists_writtenDate hdate
    exact ⟨.date d, rfl, rfl, ⟨hpossible, hfits, hday⟩, rfl⟩
  | gYearMonth hyear hmonth =>
    obtain ⟨year, rfl, rfl, hpossible, hfits⟩ := exists_writtenYear hyear
    obtain ⟨month, rfl, rfl, hm⟩ := exists_month hmonth
    exact ⟨.gYearMonth year month, rfl, by simp [WrittenFields.text], ⟨hpossible, hfits, hm⟩, rfl⟩
  | gYear hyear =>
    obtain ⟨year, rfl, rfl, hpossible, hfits⟩ := exists_writtenYear hyear
    exact ⟨.gYear year, rfl, rfl, ⟨hpossible, hfits⟩, rfl⟩
  | gMonthDay hmonth hday =>
    obtain ⟨month, rfl, rfl, hm⟩ := exists_month hmonth
    obtain ⟨day, rfl, rfl, hd⟩ := exists_day hday
    exact ⟨.gMonthDay month day, rfl, by simp [WrittenFields.text], ⟨hm, hd⟩, rfl⟩
  | gDay hday =>
    obtain ⟨day, rfl, rfl, hd⟩ := exists_day hday
    exact ⟨.gDay day, rfl, rfl, hd, rfl⟩
  | gMonth hmonth =>
    obtain ⟨month, rfl, rfl, hm⟩ := exists_month hmonth
    exact ⟨.gMonth month, rfl, by simp [WrittenFields.text], hm, rfl⟩

/-- Only fields in the layout of the kind are read, and as what they mean. -/
theorem exists_writtenFields {fields : Fields} (h : readFields? kind text = some (fields, rest)) :
    ∃ f : WrittenFields, f.kind = kind ∧ text = f.text ++ rest ∧ f.IsPossible ∧
      (∀ year, f.year? = some year → year.Fits) ∧ f.fields? = some fields := by
  obtain ⟨f, hkind, htext, hparts, hmeant⟩ := (readsFields_of_readFields? h).exists_parts
  exact ⟨f, hkind, htext, hparts.isPossible, hparts.fits, hmeant⟩

/-! ## Moments -/

theorem parse?_eq_some {moment : Moment} (h : parse? kind text = some moment) :
    ∃ rest, readFields? kind text = some (moment.fields, rest) ∧
      readZone? rest = some moment.zone := by
  simp only [parse?, Option.bind_eq_bind, Option.bind_eq_some_iff, Prod.exists,
    Option.some.injEq] at h
  obtain ⟨fields, rest, hfields, zone, hzone, rfl⟩ := h
  exact ⟨rest, hfields, hzone⟩

/-- A text is read if it has the layout of the kind, if its fields are possible, and if its
year can be held. -/
theorem isSome_parse?_iff : (parse? kind text).isSome = true ↔
    ∃ w : Written, w.kind = kind ∧ w.text = text ∧ w.IsPossible ∧ w.Fits := by
  rw [Option.isSome_iff_exists]
  constructor
  · rintro ⟨moment, h⟩
    obtain ⟨rest, hfields, hzone⟩ := parse?_eq_some h
    obtain ⟨f, hkind, rfl, hpossible, hfits, hmeant⟩ := exists_writtenFields hfields
    obtain ⟨z, rfl, hz, -⟩ := exists_writtenZone hzone
    have hall : f.Fits :=
      (WrittenFields.isSome_fields?_iff hpossible hfits).mp (Option.isSome_of_eq_some hmeant)
    exact ⟨⟨f, z⟩, hkind, rfl, ⟨hpossible, hz⟩, hall⟩
  · rintro ⟨w, rfl, rfl, ⟨hpossible, hz⟩, hfits⟩
    obtain ⟨fields, hmeant⟩ := Option.isSome_iff_exists.mp
      ((WrittenFields.isSome_fields?_iff hpossible hfits.year).mpr hfits)
    refine ⟨⟨fields, w.zone.value⟩, ?_⟩
    simp only [parse?, Written.kind, Written.text, hmeant,
      WrittenFields.readFields?_text hpossible hfits.year w.zone.endsClock_text,
      WrittenZone.readZone?_text hz, Option.map_some, Option.bind_eq_bind, Option.bind_some]

end Moment

end SimpleTypes
