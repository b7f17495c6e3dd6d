import SimpleTypes.Number.Digits

/-!
# Binary floating point

The values of `xs:float` and `xs:double`. A format fixes the precision and the
range. Its non-negative numbers are multiples of one least unit, and they are
counted by codes: code `0` is zero, and the next code is the next larger number
up to infinity. So the order of the numbers is the order of their codes.

* `Format.units` is the number of least units of a code.
* `Format.round` is the code of the number nearest to a fraction. Of two nearest
  numbers it takes the one with the even code.
* `Numeral.parse?` reads the numerals of both types.
-/

namespace SimpleTypes

/-! ## Formats -/

/-- A binary format: the binary digits of a significand, the least unit as the
exponent of `1 / 2`, and the exponent field of infinity. -/
structure Format where
  precision : Nat
  leastUnit : Nat
  infiniteExponent : Nat
  deriving DecidableEq, Repr

namespace Format

/-- The format of 32 bits. -/
def single : Format := ⟨24, 149, 255⟩

/-- The format of 64 bits. -/
def double : Format := ⟨53, 1074, 2047⟩

/-- The number of codes with the same exponent field. -/
def block (format : Format) : Nat := Nat.pow 2 (format.precision - 1)

/-- The code of infinity, above the codes of all numbers. -/
def infinity (format : Format) : Nat := format.infiniteExponent * format.block

/-- The number of least units in the number of a code. The codes of the first
two exponent fields count units. After that each field doubles the step. -/
def units (format : Format) (code : Nat) : Nat :=
  if code < format.block then code
  else (format.block + code % format.block) * Nat.pow 2 (code / format.block - 1)

/-- The binary digits by which a number of units is longer than a significand. -/
def excess (format : Format) (units : Nat) : Nat :=
  if units < Nat.pow 2 format.precision then 0 else units.log2 + 1 - format.precision

/-- The code of the number nearest to `num / den`, the even one of two. Numbers
above all codes become infinity. -/
def round (format : Format) (num den : Nat) : Nat :=
  let scaled := num * Nat.pow 2 format.leastUnit
  let shift := format.excess (scaled / den)
  let step := den * Nat.pow 2 shift
  let quotient := scaled / step
  let twice := 2 * (scaled % step)
  let nearest :=
    if twice < step then quotient
    else if step < twice then quotient + 1
    else quotient + quotient % 2
  min (shift * format.block + nearest) format.infinity

end Format

/-! ## Values -/

/-- A value of a binary format: not a number, or a sign and a code. -/
inductive Floating where
  | nan
  | number (negative : Bool) (code : Nat)
  deriving DecidableEq, Repr

namespace Floating

/-- The order of the values. Both zeros are the same number, and a value that
is not a number has no place in the order. -/
def order? : Floating → Floating → Option Ordering
  | number n a, number m b =>
    some (compare (if n then -(a : Int) else a) (if m then -(b : Int) else b))
  | _, _ => none

/-- Whether two values are the same number or both not a number. -/
def valueEq : Floating → Floating → Bool
  | nan, nan => true
  | a, b => order? a b == some .eq

/-- The bit pattern. Values that are not a number have many, so none is given. -/
def bits? (format : Format) : Floating → Option Nat
  | nan => none
  | number negative code =>
    some (if negative then (format.infiniteExponent + 1) * format.block + code else code)

end Floating

/-! ## Reading -/

/-- A numeral: its sign, its digits before and after the point, and the power
of ten behind it. -/
structure Numeral where
  negative : Bool
  whole : List Char
  fraction : List Char
  exponent : Int
  deriving DecidableEq, Repr

namespace Numeral

/-- The sign in front of a text, true for minus, and the rest. -/
def sign : List Char → Bool × List Char
  | '-' :: rest => (true, rest)
  | '+' :: rest => (false, rest)
  | text => (false, text)

/-- The fractional digits that a point introduces, and the rest. -/
def fractionPart : List Char → List Char × List Char
  | '.' :: rest => spanDigits rest
  | text => ([], text)

/-- The exponent at the end of a text. Without one it is zero. -/
def exponentPart? : List Char → Option Int
  | [] => some 0
  | c :: rest =>
    let (negative, digits) := sign rest
    if (c == 'e' || c == 'E') && !digits.isEmpty && digits.all Char.isDigit then
      let n := natOfDigits digits
      some (if negative then -n else n)
    else none

/-- Reads an optional sign, digits with an optional point, and an optional
exponent. There must be a digit before the exponent. -/
def parse? (text : List Char) : Option Numeral :=
  let (negative, afterSign) := sign text
  let (whole, afterWhole) := spanDigits afterSign
  let (fraction, afterFraction) := fractionPart afterWhole
  if whole.isEmpty && fraction.isEmpty then none
  else (exponentPart? afterFraction).map fun exponent => ⟨negative, whole, fraction, exponent⟩

/-- Numbers from `10 ^ exponentRange` on are infinite in every format, and
numbers below `10 ^ -exponentRange` are zero. -/
def exponentRange : Nat := 2000

/-- The code of the number nearest to a numeral. The number of digits before the
point, were the numeral written without an exponent, decides numerals far out of
range, so that no large power is computed. -/
def code (format : Format) (n : Numeral) : Nat :=
  let digits := dropLeadingZeros (n.whole ++ n.fraction)
  let exponent := n.exponent - n.fraction.length
  let magnitude := exponent + digits.length
  if digits.isEmpty then 0
  else if (exponentRange : Int) < magnitude then format.infinity
  else if magnitude < -(exponentRange : Int) then 0
  else if 0 ≤ exponent then format.round (natOfDigits digits * Nat.pow 10 exponent.toNat) 1
  else format.round (natOfDigits digits) (Nat.pow 10 (-exponent).toNat)

end Numeral

namespace Floating

/-- Reads a value: the words for infinity and not a number, or a numeral. Only
infinity below zero has a sign. -/
def parse? (format : Format) (text : List Char) : Option Floating :=
  if text = "INF".toList then some (number false format.infinity)
  else if text = "-INF".toList then some (number true format.infinity)
  else if text = "NaN".toList then some nan
  else (Numeral.parse? text).map fun n => number n.negative (n.code format)

end Floating

end SimpleTypes
