import SimpleTypes.Number.Digits
import SimpleTypes.Time.Calendar

/-!
# Moments

The values of the eight date and time types. Each kind has its own fields, and
every kind may carry a time zone, in minutes east of UTC.

* `Moment.parse?` reads a text of a kind. The hour 24 is read only as
  `24:00:00`, as midnight of the next day.
* `Moment.canonical` writes the fields of the kind and the zone.
* `Moment.order?` compares moments of one kind. Kinds with a time of day are
  compared in UTC, and without a zone they count as UTC. Other kinds are
  compared by their fields.
-/

namespace SimpleTypes

/-! ## Kinds and fields -/

/-- The eight date and time types. -/
inductive TemporalKind where
  | dateTime
  | time
  | date
  | gYearMonth
  | gYear
  | gMonthDay
  | gDay
  | gMonth
  deriving DecidableEq, Repr

/-- Whether moments of the kind have a time of day. -/
def TemporalKind.hasClock : TemporalKind → Bool
  | .dateTime | .time => true
  | _ => false

/-- A time of day. The fraction of the second is held as digits without zeros
at the end. -/
structure Clock where
  hour : Nat
  minute : Nat
  second : Nat
  fraction : List Char
  deriving DecidableEq, Repr

/-- The fields of a moment, by kind. -/
inductive Fields where
  | dateTime (date : Date) (clock : Clock)
  | time (clock : Clock)
  | date (date : Date)
  | gYearMonth (year : Int) (month : Nat)
  | gYear (year : Int)
  | gMonthDay (month day : Nat)
  | gDay (day : Nat)
  | gMonth (month : Nat)
  deriving DecidableEq, Repr

/-- The fields of a kind with an optional zone. -/
structure Moment where
  fields : Fields
  zone : Option Int
  deriving DecidableEq, Repr

namespace Fields

/-- The kind that has these fields. -/
def kind : Fields → TemporalKind
  | dateTime _ _ => .dateTime
  | time _ => .time
  | date _ => .date
  | gYearMonth _ _ => .gYearMonth
  | gYear _ => .gYear
  | gMonthDay _ _ => .gMonthDay
  | gDay _ => .gDay
  | gMonth _ => .gMonth

/-- The year, of the kinds that have one. -/
def year? : Fields → Option Int
  | dateTime d _ | date d => some d.year
  | gYearMonth year _ | gYear year => some year
  | _ => none

/-- The month, of the kinds that have one. -/
def month? : Fields → Option Nat
  | dateTime d _ | date d => some d.month
  | gYearMonth _ month | gMonthDay month _ | gMonth month => some month
  | _ => none

/-- The day of the month, of the kinds that have one. -/
def day? : Fields → Option Nat
  | dateTime d _ | date d => some d.day
  | gMonthDay _ day | gDay day => some day
  | _ => none

/-- The time of day, of the kinds that have one. -/
def clock? : Fields → Option Clock
  | dateTime _ clock | time clock => some clock
  | _ => none

/-- The full date, of the kinds that have one. -/
def date? : Fields → Option Date
  | dateTime d _ | date d => some d
  | _ => none

/-- The same fields on another day. Kinds without a full date stay. -/
def onDay (day : Date) : Fields → Fields
  | dateTime _ clock => dateTime day clock
  | date _ => date day
  | fields => fields

end Fields

/-! ## Reading -/

namespace Moment

/-- The text after a given first character. -/
def expect? (c : Char) : List Char → Option (List Char)
  | d :: rest => if d == c then some rest else none
  | [] => none

/-- Whether digits can be the number of a year: four or more, with no zero in
front of more than four. -/
def isYearNumber (digits : List Char) : Bool :=
  4 ≤ digits.length && !(4 < digits.length && digits.head? == some '0')

/-- A year and the rest. The year zero does not exist. -/
def readYear? (text : List Char) : Option (Int × List Char) :=
  let (negative, body) :=
    match text with
    | '-' :: rest => (true, rest)
    | _ => (false, text)
  let (digits, rest) := spanDigits body
  let n := natOfDigits digits
  if isYearNumber digits && n != 0 && (n : Int) < yearBound then
    some (if negative then -n else n, rest)
  else none

/-- A month of two digits and the rest. -/
def readMonth? (text : List Char) : Option (Nat × List Char) := do
  let (month, rest) ← readTwoDigits? text
  if 1 ≤ month && month ≤ 12 then some (month, rest) else none

/-- A day of two digits, not above `length`, and the rest. -/
def readDay? (length : Nat) (text : List Char) : Option (Nat × List Char) := do
  let (day, rest) ← readTwoDigits? text
  if 1 ≤ day && day ≤ length then some (day, rest) else none

/-- Year, month and day with hyphens between them, and the rest. -/
def readDate? (text : List Char) : Option (Date × List Char) := do
  let (year, text) ← readYear? text
  let text ← expect? '-' text
  let (month, text) ← readMonth? text
  let text ← expect? '-' text
  let (day, text) ← readDay? (daysInMonth (some year) month) text
  some (⟨year, month, day⟩, text)

/-- The fraction of a second that a point introduces, without zeros at its end,
and the rest. A point must have a digit after it. -/
def readFraction? : List Char → Option (List Char × List Char)
  | '.' :: rest =>
    let (digits, rest) := spanDigits rest
    if digits.isEmpty then none else some (dropTrailingZeros digits, rest)
  | text => some ([], text)

/-- A time of day and the rest, with true for the end of the day. Then the time
of day is midnight, and it belongs to the next day. -/
def readClock? (text : List Char) : Option (Bool × Clock × List Char) := do
  let (hour, text) ← readTwoDigits? text
  let text ← expect? ':' text
  let (minute, text) ← readTwoDigits? text
  let text ← expect? ':' text
  let (second, text) ← readTwoDigits? text
  let (fraction, text) ← readFraction? text
  if 59 < minute || 59 < second then none
  else if hour < 24 then some (false, ⟨hour, minute, second, fraction⟩, text)
  else if hour == 24 && minute == 0 && second == 0 && fraction.isEmpty then
    some (true, ⟨0, 0, 0, []⟩, text)
  else none

/-- The zone at the end of a text: none, `Z`, or a sign, hours and minutes up to
fourteen hours. -/
def readZone? : List Char → Option (Option Int)
  | [] => some none
  | ['Z'] => some (some 0)
  | sign :: text => do
    let (hours, text) ← readTwoDigits? text
    let text ← expect? ':' text
    let (minutes, text) ← readTwoDigits? text
    let offset : Int := hours * 60 + minutes
    if (sign != '+' && sign != '-') || !text.isEmpty || 59 < minutes || 14 * 60 < offset then none
    else some (some (if sign == '-' then -offset else offset))

/-- The fields of a kind at the front of a text, and the rest. -/
def readFields? : TemporalKind → List Char → Option (Fields × List Char)
  | .dateTime, text => do
    let (date, text) ← readDate? text
    let text ← expect? 'T' text
    let (endOfDay, clock, text) ← readClock? text
    let date ← if endOfDay then date.addDays? 1 else some date
    some (.dateTime date clock, text)
  | .time, text => do
    let (_, clock, text) ← readClock? text
    some (.time clock, text)
  | .date, text => do
    let (date, text) ← readDate? text
    some (.date date, text)
  | .gYearMonth, text => do
    let (year, text) ← readYear? text
    let text ← expect? '-' text
    let (month, text) ← readMonth? text
    some (.gYearMonth year month, text)
  | .gYear, text => do
    let (year, text) ← readYear? text
    some (.gYear year, text)
  | .gMonthDay, text => do
    let text ← expect? '-' text
    let text ← expect? '-' text
    let (month, text) ← readMonth? text
    let text ← expect? '-' text
    let (day, text) ← readDay? (daysInMonth none month) text
    some (.gMonthDay month day, text)
  | .gDay, text => do
    let text ← expect? '-' text
    let text ← expect? '-' text
    let text ← expect? '-' text
    let (day, text) ← readDay? 31 text
    some (.gDay day, text)
  | .gMonth, text => do
    let text ← expect? '-' text
    let text ← expect? '-' text
    let (month, text) ← readMonth? text
    let text ← expect? '-' text
    let text ← expect? '-' text
    some (.gMonth month, text)

/-- Reads a text of a kind. -/
def parse? (kind : TemporalKind) (text : List Char) : Option Moment := do
  let (fields, rest) ← readFields? kind text
  let zone ← readZone? rest
  some ⟨fields, zone⟩

/-! ## Writing -/

/-- A year with at least four digits. -/
def yearText (year : Int) : List Char :=
  (if year < 0 then ['-'] else []) ++ paddedNumeral 4 year.natAbs

/-- A number with at least two digits. -/
def twoDigits (n : Nat) : List Char := paddedNumeral 2 n

/-- Year, month and day. -/
def dateText (date : Date) : List Char :=
  yearText date.year ++ '-' :: twoDigits date.month ++ '-' :: twoDigits date.day

/-- Hour, minute, second, and the fraction unless it is zero. -/
def clockText (clock : Clock) : List Char :=
  twoDigits clock.hour ++ ':' :: twoDigits clock.minute ++ ':' :: twoDigits clock.second
    ++ (if clock.fraction.isEmpty then [] else '.' :: clock.fraction)

/-- The fields of a kind. -/
def fieldsText : Fields → List Char
  | .dateTime date clock => dateText date ++ 'T' :: clockText clock
  | .time clock => clockText clock
  | .date date => dateText date
  | .gYearMonth year month => yearText year ++ '-' :: twoDigits month
  | .gYear year => yearText year
  | .gMonthDay month day => '-' :: '-' :: twoDigits month ++ '-' :: twoDigits day
  | .gDay day => '-' :: '-' :: '-' :: twoDigits day
  | .gMonth month => '-' :: '-' :: twoDigits month ++ ['-', '-']

/-- A zone, `Z` for UTC. -/
def zoneText : Option Int → List Char
  | none => []
  | some offset =>
    if offset = 0 then ['Z']
    else
      (if offset < 0 then '-' else '+') ::
        twoDigits (offset.natAbs / 60) ++ ':' :: twoDigits (offset.natAbs % 60)

/-- The canonical text. -/
def canonical (moment : Moment) : List Char :=
  fieldsText moment.fields ++ zoneText moment.zone

/-! ## Order -/

/-- The kind of a moment. -/
def kind (moment : Moment) : TemporalKind := moment.fields.kind

/-- The minute of the day that a clock shows in UTC, counted from the day in
which it is read, so below zero before that day. -/
def utcMinute (clock : Clock) (offset : Int) : Int :=
  clock.hour * 60 + clock.minute - offset

/-- The moment moved by a number of days, with its time of day and its zone. A
moment without a full date stays. -/
def addDays? (moment : Moment) (days : Int) : Option Moment :=
  match moment.fields.date? with
  | some date =>
    (date.addDays? days).map fun moved => { moment with fields := moment.fields.onDay moved }
  | none => some moment

/-- A clock at a minute, taken modulo the day. -/
def clockAt (clock : Clock) (minute : Int) : Clock :=
  let inDay := (minute % 1440).toNat
  { clock with hour := inDay / 60, minute := inDay % 60 }

/-- The fields in UTC. Only kinds with a time of day change, and without a zone
they count as UTC. It fails if the year leaves its range. -/
def utc? (moment : Moment) : Option Fields :=
  match moment.zone, moment.fields with
  | some offset, .dateTime date clock =>
    let minute := utcMinute clock offset
    let shown : Moment := ⟨.dateTime date (clockAt clock minute), some 0⟩
    (shown.addDays? (minute / 1440)).map Moment.fields
  | some offset, .time clock => some (.time (clockAt clock (utcMinute clock offset)))
  | _, fields => some fields

/-- The order of times of day. -/
def clockOrder (a b : Clock) : Ordering :=
  (compare a.hour b.hour).then ((compare a.minute b.minute).then
    ((compare a.second b.second).then (compare a.fraction b.fraction)))

/-- The order of fields of one kind, from the largest field to the smallest. -/
def fieldsOrder? : Fields → Fields → Option Ordering
  | .dateTime d c, .dateTime d' c' => some ((d.order d').then (clockOrder c c'))
  | .time c, .time c' => some (clockOrder c c')
  | .date d, .date d' => some (d.order d')
  | .gYearMonth y m, .gYearMonth y' m' => some ((compare y y').then (compare m m'))
  | .gYear y, .gYear y' => some (compare y y')
  | .gMonthDay m d, .gMonthDay m' d' => some ((compare m m').then (compare d d'))
  | .gDay d, .gDay d' => some (compare d d')
  | .gMonth m, .gMonth m' => some (compare m m')
  | _, _ => none

/-- The order of moments of one kind. -/
def order? (a b : Moment) : Option Ordering := do
  let x ← a.utc?
  let y ← b.utc?
  fieldsOrder? x y

/-- Whether two moments are the same value: equal in the order, and both with a
zone or both without. Kinds without a time of day must agree in the zone. -/
def valueEq (a b : Moment) : Bool :=
  a.zone.isSome == b.zone.isSome && (a.kind.hasClock || a.zone == b.zone)
    && order? a b == some .eq

/-! ## Civil time -/

/-- The years of a calendar of 32 bits. -/
def isCivilYear (year : Int) : Bool := -262143 ≤ year && year ≤ 262142

/-- The date of a moment that has one, in the years of a calendar of 32 bits. -/
def civilDate? (moment : Moment) : Option Date :=
  match moment.fields with
  | .dateTime date _ | .date date => if isCivilYear date.year then some date else none
  | _ => none

/-- The nanoseconds of a fraction, further digits cut off. -/
def nanoseconds (fraction : List Char) : Nat :=
  let digits := fraction.take 9
  natOfDigits (digits ++ List.replicate (9 - digits.length) '0')

/-- The date and time of day of a moment that has both, with the nanoseconds.
The zone is left out. -/
def civilDateTime? (moment : Moment) : Option (Date × Clock × Nat) :=
  match moment.civilDate?, moment.fields with
  | some date, .dateTime _ clock => some (date, clock, nanoseconds clock.fraction)
  | _, _ => none

end Moment

end SimpleTypes
