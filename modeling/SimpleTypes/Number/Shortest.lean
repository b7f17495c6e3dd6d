import SimpleTypes.Number.Floating

/-!
# Shortest decimal text

The canonical text of a binary floating point number has the fewest digits that
read back as the number. Of two such numerals with the same number of digits it
has the nearer one, and of two equally near ones the larger.

A finite number is a whole number of units of `10 ^ -leastUnit`
(`Format.decimalUnits`). The search looks at its two neighbours on finer and
finer decimal grids and takes the first that `Format.round` reads back as the
number. On the finest grid, that of the unit, the number is its own neighbour,
so the search always finds one.
-/

namespace SimpleTypes

namespace Format

/-- A finite number in units of `10 ^ -leastUnit`. -/
def decimalUnits (format : Format) (code : Nat) : Nat :=
  format.units code * Nat.pow 5 format.leastUnit

/-- Whether a number of decimal units reads back as the number of a code. -/
def readsAs (format : Format) (code units : Nat) : Bool :=
  format.round units (Nat.pow 10 format.leastUnit) == code

/-- The neighbour of `units` on the grid of step `10 ^ power` that reads as the
code, counted in grid steps. If both do it is the nearer one, else the upper. -/
def neighbour? (format : Format) (code units power : Nat) : Option Nat :=
  let step := Nat.pow 10 power
  let lower := units / step
  let upper := lower + 1
  let lowerReads := format.readsAs code (lower * step)
  let upperReads := format.readsAs code (upper * step)
  if lowerReads && (!upperReads || units - lower * step < upper * step - units) then some lower
  else if upperReads then some upper
  else none

/-- The digits of the shortest numeral, as a number, and the power of the grid
that they count, not above the given power. -/
def shortestFrom (format : Format) (code units : Nat) : Nat → Nat × Nat
  | 0 => (units, 0)
  | power + 1 =>
    match format.neighbour? code units (power + 1) with
    | some digits => (digits, power + 1)
    | none => shortestFrom format code units power

/-- The digits of the shortest numeral of a code, as a number, and the power of
ten behind them. -/
def shortest (format : Format) (code : Nat) : Nat × Int :=
  let units := format.decimalUnits code
  let (digits, power) := format.shortestFrom code units (numeral units).length
  (digits, (power : Int) - format.leastUnit)

/-- Whether a number is written without an exponent: zero, and from `10 ^ -4` up
to `10 ^ 16`, with both bounds rounded to the format. -/
def isPositional (format : Format) (code : Nat) : Bool :=
  code == 0 || (format.round 1 10000 ≤ code && code < format.round 10000000000000000 1)

/-- Digits with a point before the power of ten `exponent`, which has at least
one digit on each side. -/
def positionalText (digits : List Char) (exponent : Int) : List Char :=
  if 0 ≤ exponent then digits ++ List.replicate exponent.toNat '0' ++ ['.', '0']
  else
    let places := (-exponent).toNat
    let filled := List.replicate (places + 1 - digits.length) '0' ++ digits
    filled.take (filled.length - places) ++ '.' :: filled.drop (filled.length - places)

/-- Digits with a point after the first of several, and an exponent. -/
def scientificText (digits : List Char) (exponent : Int) : List Char :=
  let shown :=
    match digits with
    | first :: second :: rest => first :: '.' :: second :: rest
    | _ => digits
  let power := exponent + digits.length - 1
  shown ++ 'E' :: (if power < 0 then ['-'] else []) ++ numeral power.natAbs

end Format

namespace Floating

/-- The canonical text of a value. -/
def canonical (format : Format) : Floating → List Char
  | nan => "NaN".toList
  | number negative code =>
    let magnitude :=
      if code = format.infinity then "INF".toList
      else
        let (digits, exponent) := format.shortest code
        if code = 0 then "0.0".toList
        else if format.isPositional code then Format.positionalText (numeral digits) exponent
        else Format.scientificText (numeral digits) exponent
    if negative then '-' :: magnitude else magnitude

end Floating

end SimpleTypes
