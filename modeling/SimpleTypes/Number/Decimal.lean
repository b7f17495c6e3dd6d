import SimpleTypes.Number.Digits
import SimpleTypes.Number.Scaled

/-!
# Decimals

The values of `xs:decimal`, of any length, held as digits. The whole digits
have no zeros at the front and the fractional digits none at the end, so a
number has one representation, apart from the count of the zeros that its text
had at its end. That count is kept because the digit facets of a text such as
`1.200` are judged by its value and the zeros are reported beside it.
-/

namespace SimpleTypes

/-- A decimal number: a sign, its digits before and after the point, and the
number of zeros at the end of the text it was read from. -/
structure Decimal where
  negative : Bool
  whole : List Char
  fraction : List Char
  trailingZeros : Nat
  deriving DecidableEq, Repr

namespace Decimal

/-- Digits are counted in 32 bits. -/
def countBound : Nat := 4294967296

/-! ## Reading -/

/-- The sign in front of a numeral, true for minus, and the rest. -/
def readSign : List Char → Bool × List Char
  | '-' :: rest => (true, rest)
  | '+' :: rest => (false, rest)
  | text => (false, text)

/-- The parts of a text before and after its first point. Without a point the
second part is empty. -/
def splitAtPoint (text : List Char) : List Char × List Char :=
  (text.takeWhile (· != '.'), (text.dropWhile (· != '.')).drop 1)

/-- The number with the given sign and digits. Zero has no sign. -/
def ofDigits (negative : Bool) (whole fraction : List Char) : Decimal :=
  let whole' := dropLeadingZeros whole
  let fraction' := dropTrailingZeros fraction
  { negative := negative && !(whole'.isEmpty && fraction'.isEmpty)
    whole := whole'
    fraction := fraction'
    trailingZeros := fraction.length - fraction'.length }

/-- Reads an optional sign and digits with at most one point, which must have a
digit beside it. The zeros at the end must be few enough to be counted. -/
def parse? (text : List Char) : Option Decimal :=
  let (negative, body) := readSign text
  let (whole, fraction) := splitAtPoint body
  let value := ofDigits negative whole fraction
  if (whole.isEmpty && fraction.isEmpty) || !whole.all Char.isDigit || !fraction.all Char.isDigit
  then none
  else if value.trailingZeros < countBound then some value else none

/-- A whole number. -/
def ofInt (n : Int) : Decimal :=
  { negative := n < 0
    whole := if n = 0 then [] else numeral n.natAbs
    fraction := []
    trailingZeros := 0 }

/-! ## Properties -/

/-- Whether the number is zero. -/
def isZero (a : Decimal) : Bool := a.whole.isEmpty && a.fraction.isEmpty

/-- Whether the number is whole. -/
def isIntegral (a : Decimal) : Bool := a.fraction.isEmpty

/-- The number of digits after the point, zeros at the end not counted. A count
that is out of range starts again from zero. -/
def fractionDigits (a : Decimal) : Nat := a.fraction.length % countBound

/-- The number of digits, zeros at the front and at the end not counted. Zero
has one digit. A count that is out of range starts again from zero. -/
def totalDigits (a : Decimal) : Nat := max 1 ((a.whole.length + a.fraction.length) % countBound)

/-- The canonical text: no plus sign, one zero before the point if there is no
other digit, and a point only before digits. -/
def canonical (a : Decimal) : List Char :=
  (if a.negative then ['-'] else [])
    ++ (if a.whole.isEmpty then ['0'] else a.whole)
    ++ (if a.fraction.isEmpty then [] else '.' :: a.fraction)

/-- The number in 96 bits, if it is exact there. -/
def toScaled? (a : Decimal) : Option Scaled :=
  let magnitude := natOfDigits (a.whole ++ a.fraction)
  if a.fraction.length ≤ Scaled.maxScale ∧ magnitude < Scaled.bound then
    some (Scaled.ofMagnitude a.negative magnitude a.fraction.length)
  else none

/-! ## Order -/

/-- The order of the magnitudes: by the number of whole digits, then by the
digits themselves. -/
def orderMagnitude (a b : Decimal) : Ordering :=
  (compare a.whole.length b.whole.length).then
    ((compare a.whole b.whole).then (compare a.fraction b.fraction))

/-- The order of the numbers. -/
def order (a b : Decimal) : Ordering :=
  match a.negative, b.negative with
  | false, true => .gt
  | true, false => .lt
  | false, false => orderMagnitude a b
  | true, true => orderMagnitude b a

/-- Whether two decimals are the same number. -/
def valueEq (a b : Decimal) : Bool := order a b == .eq

end Decimal

end SimpleTypes
