/-!
# Calendar

Days of the Gregorian calendar in years of 64 bits. There is no year zero: the
year after `-1` is `1`. Whether a year is a leap year is decided by its number
as written, so `-4` is one and `-1` is not.

* `daysInMonth` is the length of a month.
* `Date.addDays?` moves a date by a number of days, month by month, and fails
  if the year or the count of days leaves its range.
-/

namespace SimpleTypes

/-! ## Years and months -/

/-- Years lie below `2 ^ 63`, and not below its negative. -/
def yearBound : Int := 9223372036854775808

/-- Every fourth year, but of the centuries only every fourth. -/
def isLeapYear (year : Int) : Bool :=
  year % 4 == 0 && (year % 100 != 0 || year % 400 == 0)

/-- The number of days of a month, zero for a number that is no month. Without
a year February has 29 days. -/
def daysInMonth (year : Option Int) (month : Nat) : Nat :=
  match month with
  | 1 | 3 | 5 | 7 | 8 | 10 | 12 => 31
  | 4 | 6 | 9 | 11 => 30
  | 2 =>
    match year with
    | some year => if isLeapYear year then 29 else 28
    | none => 29
  | _ => 0

/-- The year after a year, if it is in range. -/
def followingYear? (year : Int) : Option Int :=
  let next := if year = -1 then 1 else year + 1
  if next < yearBound then some next else none

/-- The year before a year, if it is in range. -/
def precedingYear? (year : Int) : Option Int :=
  let previous := if year = 1 then -1 else year - 1
  if -yearBound ≤ previous then some previous else none

/-- The month after a month, with its year. -/
def followingMonth? (year : Int) (month : Nat) : Option (Int × Nat) :=
  if month < 12 then some (year, month + 1)
  else (followingYear? year).map fun next => (next, 1)

/-- The month before a month, with its year. -/
def precedingMonth? (year : Int) (month : Nat) : Option (Int × Nat) :=
  if 1 < month then some (year, month - 1)
  else (precedingYear? year).map fun previous => (previous, 12)

/-! ## Dates -/

/-- A day of the calendar. -/
structure Date where
  year : Int
  month : Nat
  day : Nat
  deriving DecidableEq, Repr

namespace Date

/-- Whether the numbers name a day of the calendar. -/
def isValid (date : Date) : Bool :=
  -yearBound ≤ date.year && date.year < yearBound && date.year != 0
    && 1 ≤ date.month && date.month ≤ 12
    && 1 ≤ date.day && date.day ≤ daysInMonth (some date.year) date.month

/-- Whether a count of days fits 64 bits, which is the range of years too. It is
irreducible, since the unary subtractions behind it must not be unfolded. -/
@[irreducible]
def isDayCount (count : Int) : Bool := -yearBound ≤ count && count < yearBound

/-- The order of days: by year, month and day. -/
def order (a b : Date) : Ordering :=
  (compare a.year b.year).then ((compare a.month b.month).then (compare a.day b.day))

/-- The day that comes `day - 1` days after the first of a month. -/
def forward? (year : Int) (month day : Nat) : Option Date :=
  let length := daysInMonth (some year) month
  if _h : day ≤ length ∨ length = 0 then some ⟨year, month, day⟩
  else
    match followingMonth? year month with
    | some (year, month) => forward? year month (day - length)
    | none => none
termination_by day
decreasing_by omega

/-- The day that comes `days` days before the last of the preceding month. -/
def backward? (year : Int) (month days : Nat) : Option Date :=
  match precedingMonth? year month with
  | some (year, month) =>
    let length := daysInMonth (some year) month
    if _h : days < length ∨ length = 0 then some ⟨year, month, length - days⟩
    else backward? year month (days - length)
  | none => none
termination_by days
decreasing_by omega

/-- The date moved by a number of days. The days are counted from the first of
the month, and the count must fit the range. -/
def addDays? (date : Date) (days : Int) : Option Date :=
  let target := date.day + days
  if !isDayCount target then none
  else if 1 ≤ target then forward? date.year date.month target.toNat
  else backward? date.year date.month (-target).toNat

end Date

end SimpleTypes
