import SimpleTypes.Number.Scaled
import SimpleTypes.Time.Calendar

/-!
# Durations

The values of `xs:duration`: a sign, a number of months and a number of seconds.
Years are counted in months, and days, hours and minutes in seconds.

* `Duration.parse?` reads the components in their order. A sum that does not
  fit fails like any other text.
* `Duration.canonical` takes the largest whole number of each unit in turn. Its
  quotients are those of `Scaled.wholeQuotient`.
* `Duration.order?` compares lengths in seconds, with months of average length.
-/

namespace SimpleTypes

/-- A signed number of months and seconds. -/
structure Duration where
  negative : Bool
  months : Nat
  seconds : Scaled
  deriving DecidableEq, Repr

namespace Duration

/-- The number of months stays below `2 ^ 64`. -/
def monthsBound : Nat := 18446744073709551616

/-- The seconds of a day, an hour and a minute. -/
def perDay : Nat := 86400
def perHour : Nat := 3600
def perMinute : Nat := 60

/-- The seconds of a month of average length. -/
def perMonth : Nat := 2629746

/-! ## Reading -/

/-- The digits of the components that a text has, by unit. -/
structure Components where
  years : Option (List Char)
  months : Option (List Char)
  days : Option (List Char)
  hours : Option (List Char)
  minutes : Option (List Char)
  seconds : Option (List Char × List Char)
  deriving DecidableEq, Repr

/-- The digits in front of a unit letter, if the text begins so, and the rest.
Otherwise nothing is read. -/
def readComponent (unit : Char) (text : List Char) : Option (List Char) × List Char :=
  let (digits, rest) := spanDigits text
  match rest with
  | c :: rest => if c == unit && !digits.isEmpty then (some digits, rest) else (none, text)
  | [] => (none, text)

/-- The whole and fractional digits in front of the letter `S`, if the text
begins so, and the rest. A point needs a digit before it but none after it. -/
def readSeconds (text : List Char) : Option (List Char × List Char) × List Char :=
  let (whole, rest) := spanDigits text
  let (fraction, rest) :=
    match rest with
    | '.' :: rest => spanDigits rest
    | _ => ([], rest)
  match rest with
  | 'S' :: rest => if whole.isEmpty then (none, text) else (some (whole, fraction), rest)
  | _ => (none, text)

/-- The components of a text after the sign: `P`, the components of the date,
and after `T` those of the time. There must be a component, and one after `T`. -/
def readComponents? : List Char → Option Components
  | 'P' :: text =>
    let (years, text) := readComponent 'Y' text
    let (months, text) := readComponent 'M' text
    let (days, text) := readComponent 'D' text
    match text with
    | [] =>
      if years.isSome || months.isSome || days.isSome then
        some ⟨years, months, days, none, none, none⟩
      else none
    | 'T' :: text =>
      let (hours, text) := readComponent 'H' text
      let (minutes, text) := readComponent 'M' text
      let (seconds, text) := readSeconds text
      if text.isEmpty && (hours.isSome || minutes.isSome || seconds.isSome) then
        some ⟨years, months, days, hours, minutes, seconds⟩
      else none
    | _ => none
  | _ => none

/-- A component of months or years. An absent one counts as zero. -/
def countOf? (digits : Option (List Char)) : Option Nat :=
  let n := (digits.map natOfDigits).getD 0
  if n < monthsBound then some n else none

/-- A component in seconds. An absent one counts as zero. -/
def secondsOf? (digits : Option (List Char)) (factor : Nat) : Option Scaled := do
  let n ← Scaled.ofNat? ((digits.map natOfDigits).getD 0)
  n.mulWhole? factor

/-- The months of a text. -/
def totalMonths? (components : Components) : Option Nat := do
  let years ← countOf? components.years
  let months ← countOf? components.months
  let total := years * 12 + months
  if total < monthsBound then some total else none

/-- The seconds of a text, added from the largest unit to the smallest. -/
def totalSeconds? (components : Components) : Option Scaled := do
  let days ← secondsOf? components.days perDay
  let hours ← secondsOf? components.hours perHour
  let minutes ← secondsOf? components.minutes perMinute
  let (whole, fraction) := components.seconds.getD ([], [])
  let seconds ← Scaled.ofDigits? whole fraction
  let sum ← days.add? hours
  let sum ← sum.add? minutes
  sum.add? seconds

/-- Reads a duration with an optional minus sign. Zero has no sign. -/
def parse? (text : List Char) : Option Duration := do
  let (negative, body) :=
    match text with
    | '-' :: rest => (true, rest)
    | _ => (false, text)
  let components ← readComponents? body
  let months ← totalMonths? components
  let seconds ← totalSeconds? components
  some ⟨negative && !(months == 0 && seconds.isZero), months, seconds⟩

/-! ## Writing -/

/-- A component, unless it is zero. -/
def componentText (n : Int) (unit : Char) : List Char :=
  if n = 0 then [] else (if n < 0 then ['-'] else []) ++ numeral n.natAbs ++ [unit]

/-- What is left of some seconds after whole units are taken away. -/
def remainder (seconds : Scaled) (units : Int) (perUnit : Nat) : Scaled :=
  (seconds.sub? ⟨units * perUnit, 0⟩).getD Scaled.zero

/-- The days, hours and minutes of some seconds, and the seconds left. -/
def split (seconds : Scaled) : Int × Int × Int × Scaled :=
  let days := seconds.wholeQuotient perDay
  let afterDays := remainder seconds days perDay
  let hours := afterDays.wholeQuotient perHour
  let afterHours := remainder afterDays hours perHour
  let minutes := afterHours.wholeQuotient perMinute
  (days, hours, minutes, remainder afterHours minutes perMinute)

/-- The canonical text: components that are not zero, in their order. -/
def canonical (duration : Duration) : List Char :=
  if duration.months = 0 && duration.seconds.isZero then "PT0S".toList
  else
    let (days, hours, minutes, rest) := split duration.seconds
    let timePart :=
      componentText hours 'H' ++ componentText minutes 'M'
        ++ (if rest.isZero then [] else rest.text ++ ['S'])
    let datePart :=
      componentText (duration.months / 12 : Nat) 'Y'
        ++ componentText (duration.months % 12 : Nat) 'M' ++ componentText days 'D'
    (if duration.negative then ['-'] else []) ++ 'P' :: datePart
      ++ (if timePart.isEmpty then [] else 'T' :: timePart)

/-! ## Order -/

/-- The length in seconds, if its months fit a signed number of 64 bits. -/
def length? (duration : Duration) : Option Scaled := do
  if (yearBound : Int) ≤ duration.months then none
  else
    let months ← (⟨duration.months, 0⟩ : Scaled).mulWhole? perMonth
    let total ← months.add? duration.seconds
    some (if duration.negative then total.neg else total)

/-- The order of two lengths. -/
def order? (a b : Duration) : Option Ordering := do
  let x ← a.length?
  let y ← b.length?
  some (x.order y)

/-- Whether two durations have the same sign, months and seconds. -/
def valueEq (a b : Duration) : Bool :=
  a.negative == b.negative && a.months == b.months && a.seconds.order b.seconds == .eq

end Duration

end SimpleTypes
