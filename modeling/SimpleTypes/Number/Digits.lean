/-!
# Digits

Digit sequences of decimal numerals, the most significant digit first. A digit
is one of the ten ASCII digits.
-/

namespace SimpleTypes

/-- The value of a digit sequence. The empty one stands for zero. -/
def natOfDigits (digits : List Char) : Nat := Nat.ofDigitChars 10 digits 0

/-- The numeral of a number, without leading zeros. -/
def numeral (n : Nat) : List Char := Nat.toDigits 10 n

/-- The numeral of a number, filled up with zeros to at least `width` digits. -/
def paddedNumeral (width n : Nat) : List Char :=
  List.replicate (width - (numeral n).length) '0' ++ numeral n

/-- The digits without the zeros at the front. -/
def dropLeadingZeros (digits : List Char) : List Char := digits.dropWhile (· == '0')

/-- The digits without the zeros at the end. -/
def dropTrailingZeros (digits : List Char) : List Char :=
  (digits.reverse.dropWhile (· == '0')).reverse

/-- The digits at the front of a text, and the rest. -/
def spanDigits (text : List Char) : List Char × List Char :=
  (text.takeWhile Char.isDigit, text.dropWhile Char.isDigit)

/-- The value of exactly two digits at the front of a text, and the rest. -/
def readTwoDigits? : List Char → Option (Nat × List Char)
  | a :: b :: rest => if a.isDigit && b.isDigit then some (natOfDigits [a, b], rest) else none
  | _ => none

end SimpleTypes
