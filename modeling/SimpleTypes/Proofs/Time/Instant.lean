import Mathlib.Algebra.Order.Floor.Ring
import Mathlib.Data.Rat.Floor
import SimpleTypes.Proofs.Number.Fraction
import SimpleTypes.Proofs.Time.Reading

/-!
# Instants

Moments with a time of day as points of one line, in seconds. A moment without
a zone counts as one of UTC.

* `utc?_dateTime` and `utc?_time`: to bring a moment to UTC does not move it on
  the line.
* `order?_eq_compare_instant`: the order of moments is that of the line. Times
  without a day are taken modulo the day.
-/

namespace SimpleTypes

/-! ## Times of day -/

namespace Clock

/-- The seconds since the last full minute. -/
def pastMinute (clock : Clock) : ℚ := clock.second + fractionValue clock.fraction

/-- The seconds since the last full hour. -/
def pastHour (clock : Clock) : ℚ := 60 * clock.minute + clock.pastMinute

/-- The seconds since midnight. -/
def seconds (clock : Clock) : ℚ := 3600 * clock.hour + clock.pastHour

namespace IsTime

variable {clock clock' : Clock}

theorem fraction_mem (h : clock.IsTime) :
    0 ≤ fractionValue clock.fraction ∧ fractionValue clock.fraction < 1 :=
  ⟨fractionValue_nonneg _, fractionValue_lt_one h.digits⟩

theorem pastMinute_mem (h : clock.IsTime) : 0 ≤ clock.pastMinute ∧ clock.pastMinute < 60 := by
  have hsecond : (clock.second : ℚ) + 1 ≤ 60 := by exact_mod_cast h.second
  have hsecond' : (0 : ℚ) ≤ clock.second := Nat.cast_nonneg _
  have hfraction := h.fraction_mem
  simp only [pastMinute]
  constructor <;> linarith

theorem pastHour_mem (h : clock.IsTime) : 0 ≤ clock.pastHour ∧ clock.pastHour < 3600 := by
  have hminute : (clock.minute : ℚ) + 1 ≤ 60 := by exact_mod_cast h.minute
  have hminute' : (0 : ℚ) ≤ clock.minute := Nat.cast_nonneg _
  have hpast := h.pastMinute_mem
  simp only [pastHour]
  constructor <;> linarith

theorem seconds_mem (h : clock.IsTime) : 0 ≤ clock.seconds ∧ clock.seconds < 86400 := by
  have hhour : (clock.hour : ℚ) + 1 ≤ 24 := by exact_mod_cast h.hour
  have hhour' : (0 : ℚ) ≤ clock.hour := Nat.cast_nonneg _
  have hpast := h.pastHour_mem
  simp only [seconds]
  constructor <;> linarith

/-- The order of times of day is that of their seconds: hours, minutes, seconds
and fractions are the parts of one number. -/
theorem clockOrder_eq_compare (h : clock.IsTime) (h' : clock'.IsTime) :
    Moment.clockOrder clock clock' = compare clock.seconds clock'.seconds := by
  have hfraction := compare_fractionValue h.digits h'.digits h.noTrailingZero h'.noTrailingZero
  have hsecond : compare clock.pastMinute clock'.pastMinute
      = (compare clock.second clock'.second).then
        (compare (fractionValue clock.fraction) (fractionValue clock'.fraction)) := by
    have := compare_mixed_nat (n := clock.second) (m := clock'.second) h.fraction_mem
      h'.fraction_mem
    rwa [one_mul, one_mul] at this
  have hminute : compare clock.pastHour clock'.pastHour
      = (compare clock.minute clock'.minute).then (compare clock.pastMinute clock'.pastMinute) :=
    compare_mixed_nat h.pastMinute_mem h'.pastMinute_mem
  have hhour : compare clock.seconds clock'.seconds
      = (compare clock.hour clock'.hour).then (compare clock.pastHour clock'.pastHour) :=
    compare_mixed_nat h.pastHour_mem h'.pastHour_mem
  rw [hhour, hminute, hsecond, hfraction]
  rfl

end IsTime

end Clock

/-! ## Moments in UTC -/

namespace Moment

/-- The seconds from the beginning of 1 January of year 1 in UTC to a moment,
for kinds with a time of day. Times without a day are counted from midnight. -/
def instant (moment : Moment) : ℚ :=
  match moment.fields with
  | .dateTime date clock =>
    86400 * date.dayNumber + clock.seconds - 60 * (moment.zone.getD 0 : Int)
  | .time clock => clock.seconds - 60 * (moment.zone.getD 0 : Int)
  | _ => 0

/-- The number of seconds that a day has passed at an instant. -/
def secondOfDay (instant : ℚ) : ℚ := instant - 86400 * ⌊instant / 86400⌋

variable {clock : Clock} {minute offset : Int}

theorem clockAt_isTime (h : clock.IsTime) (minute : Int) : (clockAt clock minute).IsTime := by
  have hmod := Int.emod_lt_of_pos minute (by decide : (0 : Int) < 1440)
  refine ⟨?_, ?_, h.second, h.digits, h.noTrailingZero⟩
  · simp only [clockAt]
    omega
  · simp only [clockAt]
    omega

/-- The clock at a minute shows the minute of the day, and the days are the
rest of the minutes. -/
theorem clockAt_seconds (clock : Clock) (minute : Int) :
    86400 * (minute / 1440 : Int) + (clockAt clock minute).seconds
      = 60 * (minute : ℚ) + clock.pastMinute := by
  have hparts : minute =
      1440 * (minute / 1440) + 60 * (((minute % 1440).toNat / 60 : Nat) : Int)
        + ((minute % 1440).toNat % 60 : Nat) := by
    omega
  have hcast := congrArg (Int.cast : Int → ℚ) hparts
  simp only [Int.cast_add, Int.cast_mul, Int.cast_ofNat, Int.cast_natCast] at hcast
  simp only [Clock.seconds, Clock.pastHour, Clock.pastMinute, clockAt]
  rw [hcast]
  ring

theorem utcMinute_seconds (clock : Clock) (offset : Int) :
    60 * (utcMinute clock offset : ℚ) + clock.pastMinute = clock.seconds - 60 * offset := by
  simp only [utcMinute, Clock.seconds, Clock.pastHour]
  push_cast
  ring

theorem secondOfDay_eq (days : Int) {seconds : ℚ} (h : 0 ≤ seconds) (h' : seconds < 86400) :
    secondOfDay (86400 * days + seconds) = seconds := by
  have hfloor : ⌊(86400 * days + seconds) / 86400⌋ = days := by
    rw [Int.floor_eq_iff]
    constructor
    · rw [le_div_iff₀ (by norm_num)]
      linarith
    · rw [div_lt_iff₀ (by norm_num)]
      linarith
  rw [secondOfDay, hfloor]
  ring

variable {moment a b : Moment}

/-- A moment of a day that was read can be brought to UTC, and this does not
move it. Its year is far from the ends of the calendar. -/
theorem utc?_dateTime (h : moment.IsRead .dateTime) :
    ∃ date clock, moment.utc? = some (.dateTime date clock) ∧ date.IsDay ∧ clock.IsTime ∧
      moment.instant = 86400 * date.dayNumber + clock.seconds := by
  obtain ⟨fields, zone⟩ := moment
  cases fields with
  | dateTime date clock =>
    obtain ⟨hday, htime⟩ := h.fields
    cases zone with
    | none => exact ⟨date, clock, rfl, hday, htime, by simp [instant]⟩
    | some offset =>
      have hzone := h.zone offset rfl
      have hyear : -yearBound < date.year ∧ date.year + 1 < yearBound := h.year_bounds rfl
      have hhour := htime.hour
      have hminute := htime.minute
      -- A zone moves a time of day by one day at most.
      have hdays : -1 ≤ utcMinute clock offset / 1440 ∧ utcMinute clock offset / 1440 ≤ 1 := by
        simp only [IsZone] at hzone
        simp only [utcMinute]
        omega
      obtain ⟨moved, hmoved, hday', hnumber⟩ := hday.addDays?_eq_some hyear.1 hyear.2
        (utcMinute clock offset / 1440) (by omega) (by omega)
      refine ⟨moved, clockAt clock (utcMinute clock offset), ?_, hday', clockAt_isTime htime _, ?_⟩
      · simp only [utc?, addDays?, Fields.date?, Fields.onDay, hmoved, Option.map_some]
      have hclock := clockAt_seconds clock (utcMinute clock offset)
      rw [utcMinute_seconds] at hclock
      simp only [instant, Option.getD_some, hnumber, Int.cast_add]
      linarith
  | _ => exact absurd h.kind (by simp [kind, Fields.kind])

/-- A time of day that was read can be brought to UTC, and this moves it by
whole days. -/
theorem utc?_time (h : moment.IsRead .time) :
    ∃ clock, moment.utc? = some (.time clock) ∧ clock.IsTime ∧
      secondOfDay moment.instant = clock.seconds := by
  obtain ⟨fields, zone⟩ := moment
  cases fields with
  | time clock =>
    have htime : clock.IsTime := h.fields
    cases zone with
    | none =>
      refine ⟨clock, rfl, htime, ?_⟩
      have := secondOfDay_eq 0 htime.seconds_mem.1 htime.seconds_mem.2
      simpa [instant] using this
    | some offset =>
      have htime' := clockAt_isTime htime (utcMinute clock offset)
      refine ⟨clockAt clock (utcMinute clock offset), rfl, htime', ?_⟩
      have hclock := clockAt_seconds clock (utcMinute clock offset)
      rw [utcMinute_seconds] at hclock
      have := secondOfDay_eq (utcMinute clock offset / 1440) htime'.seconds_mem.1
        htime'.seconds_mem.2
      rw [hclock] at this
      exact this
  | _ => exact absurd h.kind (by simp [kind, Fields.kind])

/-! ## The order of moments -/

theorem order?_dateTime (ha : a.IsRead .dateTime) (hb : b.IsRead .dateTime) :
    a.order? b = some (compare a.instant b.instant) := by
  obtain ⟨date, clock, hutc, hday, htime, hinstant⟩ := utc?_dateTime ha
  obtain ⟨date', clock', hutc', hday', htime', hinstant'⟩ := utc?_dateTime hb
  have hmixed := compare_mixed (n := date.dayNumber) (m := date'.dayNumber) htime.seconds_mem.1
    htime.seconds_mem.2 htime'.seconds_mem.1 htime'.seconds_mem.2
  rw [hinstant, hinstant', hmixed,
    ← hday.isCalendarDay.order_eq_compare_dayNumber hday'.isCalendarDay,
    ← htime.clockOrder_eq_compare htime']
  simp [order?, hutc, hutc', fieldsOrder?]

theorem order?_time (ha : a.IsRead .time) (hb : b.IsRead .time) :
    a.order? b = some (compare (secondOfDay a.instant) (secondOfDay b.instant)) := by
  obtain ⟨clock, hutc, htime, hsecond⟩ := utc?_time ha
  obtain ⟨clock', hutc', htime', hsecond'⟩ := utc?_time hb
  rw [hsecond, hsecond', ← htime.clockOrder_eq_compare htime']
  simp [order?, hutc, hutc', fieldsOrder?]

/-- Whether a moment of a kind is read from some text, under some limits. -/
def IsAccepted (kind : TemporalKind) (moment : Moment) : Prop :=
  ∃ (rule : LexicalRule) (text : String) (bindings? : Option Bindings) (limits : Limits),
    readAtomic (.temporal kind) rule text bindings? limits = .ok (.moment moment)

theorem IsAccepted.isRead {kind : TemporalKind} (h : moment.IsAccepted kind) :
    moment.IsRead kind := by
  obtain ⟨rule, text, bindings?, limits, hread⟩ := h
  exact readAtomic_isRead hread

/-- The order of the moments that are read is the order of their instants, and
that of times without a day is the order of their seconds of the day. No two of
one of these kinds are without an order. -/
theorem order?_eq_compare_instant (a b : Moment) :
    (a.IsAccepted .dateTime → b.IsAccepted .dateTime →
      a.order? b = some (compare a.instant b.instant)) ∧
    (a.IsAccepted .time → b.IsAccepted .time →
      a.order? b = some (compare (secondOfDay a.instant) (secondOfDay b.instant))) :=
  ⟨fun ha hb => order?_dateTime ha.isRead hb.isRead,
    fun ha hb => order?_time ha.isRead hb.isRead⟩

/-- Half past eleven on a leap day, one hour west of UTC. -/
def leapDayEvening : Moment := ⟨.dateTime ⟨2000, 2, 29⟩ ⟨23, 30, 0, ['5']⟩, some (-60)⟩

/-- The same instant in UTC, on the next day. -/
def marchMorning : Moment := ⟨.dateTime ⟨2000, 3, 1⟩ ⟨0, 30, 0, ['5']⟩, some 0⟩

/-- Half past eleven in the evening, one hour west of UTC. -/
def lateEvening : Moment := ⟨.time ⟨23, 30, 0, []⟩, some (-60)⟩

/-- One second after the same time of day in UTC. -/
def afterMidnight : Moment := ⟨.time ⟨0, 30, 1, []⟩, some 0⟩

theorem order?_eq_compare_instant_leapDay :
    (leapDayEvening.IsAccepted .dateTime ∧ marchMorning.IsAccepted .dateTime ∧
      leapDayEvening.order? marchMorning =
        some (compare leapDayEvening.instant marchMorning.instant)) ∧
    (lateEvening.IsAccepted .time ∧ afterMidnight.IsAccepted .time ∧
      lateEvening.order? afterMidnight =
        some (compare (secondOfDay lateEvening.instant) (secondOfDay afterMidnight.instant))) := by
  have ha : leapDayEvening.IsAccepted .dateTime :=
    ⟨.plain, "2000-02-29T23:30:00.5-01:00", none, .standard, by decide +kernel⟩
  have hb : marchMorning.IsAccepted .dateTime :=
    ⟨.plain, "2000-03-01T00:30:00.50Z", none, .standard, by decide +kernel⟩
  have hc : lateEvening.IsAccepted .time :=
    ⟨.plain, "23:30:00-01:00", none, .standard, by decide +kernel⟩
  have hd : afterMidnight.IsAccepted .time :=
    ⟨.plain, "00:30:01Z", none, .standard, by decide +kernel⟩
  exact ⟨⟨ha, hb, (order?_eq_compare_instant _ _).1 ha hb⟩,
    hc, hd, (order?_eq_compare_instant _ _).2 hc hd⟩

end Moment

end SimpleTypes
