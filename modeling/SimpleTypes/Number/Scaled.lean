import SimpleTypes.Number.Digits

/-!
# Scaled decimals

Signed decimal fractions in 96 bits: a coefficient below `2 ^ 96` in magnitude,
over a power of ten of at most 28. The sums of a duration are kept in them.

* Products here have whole factors and are exact or fail.
* A sum is exact if it fits. Else the fewest digits are dropped from its end
  that let it fit, and what is left is rounded half to even.
* A quotient has the most fractional digits that fit, rounded half to even.
-/

namespace SimpleTypes

/-- The number `coefficient / 10 ^ scale`. -/
structure Scaled where
  coefficient : Int
  scale : Nat
  deriving DecidableEq, Repr

namespace Scaled

/-- Coefficients stay below `2 ^ 96` in magnitude. -/
def bound : Nat := 79228162514264337593543950336

/-- The largest number of fractional digits. -/
def maxScale : Nat := 28

/-- Half to even: the natural number nearest to `num / den`. -/
def roundHalfEven (num den : Nat) : Nat :=
  let quotient := num / den
  let twice := 2 * (num % den)
  if twice < den then quotient
  else if den < twice then quotient + 1
  else quotient + quotient % 2

/-- The number with a sign and a magnitude. -/
def ofMagnitude (negative : Bool) (magnitude scale : Nat) : Scaled :=
  ⟨if negative then -magnitude else magnitude, scale⟩

/-- A whole number, if it fits. -/
def ofNat? (n : Nat) : Option Scaled := if n < bound then some ⟨n, 0⟩ else none

/-- The number zero. -/
def zero : Scaled := ⟨0, 0⟩

/-- Whether the number is zero, at any scale. -/
def isZero (a : Scaled) : Bool := a.coefficient == 0

/-- The opposite number. -/
def neg (a : Scaled) : Scaled := ⟨-a.coefficient, a.scale⟩

/-- The order of the numbers, whatever their scales. -/
def order (a b : Scaled) : Ordering :=
  compare (a.coefficient * Nat.pow 10 b.scale) (b.coefficient * Nat.pow 10 a.scale)

/-! ## Reading -/

/-- Takes fractional digits while they fit. The first digit that does not fit
decides the rounding: five and more round up. A coefficient that rounds up to
the bound gives up its last digit, or fails if it has no fractional digit. -/
def appendFraction (coefficient scale : Nat) : List Char → Option Scaled
  | [] => some ⟨coefficient, scale⟩
  | digit :: rest =>
    let value := natOfDigits [digit]
    if scale < maxScale ∧ coefficient * 10 + value < bound then
      appendFraction (coefficient * 10 + value) (scale + 1) rest
    else
      let rounded := if 5 ≤ value then coefficient + 1 else coefficient
      if rounded < bound then some ⟨rounded, scale⟩
      else if scale = 0 then none
      else some ⟨((rounded + 4) / 10 : Nat), scale - 1⟩

/-- The number with the given whole and fractional digits. It fails if the
whole part does not fit. -/
def ofDigits? (whole fraction : List Char) : Option Scaled :=
  let n := natOfDigits whole
  if n < bound then appendFraction n 0 fraction else none

/-! ## Arithmetic -/

/-- The product of two whole numbers, if it fits. -/
def mulWhole? (a : Scaled) (factor : Nat) : Option Scaled :=
  let product := a.coefficient * factor
  if product.natAbs < bound then some ⟨product, a.scale⟩ else none

/-- A magnitude with the fewest digits dropped from its end so that it fits. -/
def fit? (negative : Bool) (magnitude scale : Nat) : Option Scaled :=
  (List.range (scale + 1)).findSome? fun dropped =>
    let rounded := roundHalfEven magnitude (Nat.pow 10 dropped)
    if rounded < bound then some (ofMagnitude negative rounded (scale - dropped)) else none

/-- The sum, if it fits. Zero is neutral and leaves the other number as it is,
scale included. -/
def add? (a b : Scaled) : Option Scaled :=
  if a.isZero then some b
  else if b.isZero then some a
  else
    let scale := max a.scale b.scale
    let first := a.coefficient * Nat.pow 10 (scale - a.scale)
    let second := b.coefficient * Nat.pow 10 (scale - b.scale)
    fit? (first + second < 0) (first + second).natAbs scale

/-- The difference, if it fits. -/
def sub? (a b : Scaled) : Option Scaled := a.add? b.neg

/-- The magnitude of a quotient at the largest scale, not above the given one,
at which it fits. -/
def quotientAt (num den : Nat) : Nat → Nat × Nat
  | 0 => (roundHalfEven num den, 0)
  | scale + 1 =>
    let rounded := roundHalfEven (num * Nat.pow 10 (scale + 1)) den
    if rounded < bound then (rounded, scale + 1) else quotientAt num den scale

/-- The whole part of a magnitude and its scale. -/
def wholePart (quotient : Nat × Nat) : Nat := quotient.1 / Nat.pow 10 quotient.2

/-- The quotient by a whole number, rounded to a scaled decimal and then cut to
its whole part. The rounding may reach the next whole number. -/
def wholeQuotient (a : Scaled) (divisor : Nat) : Int :=
  let whole := wholePart (quotientAt a.coefficient.natAbs (divisor * Nat.pow 10 a.scale) maxScale)
  if a.coefficient < 0 then -whole else whole

/-! ## Writing -/

/-- The digits before the point, and those after it, of a magnitude. -/
def splitDigits (magnitude scale : Nat) : List Char × List Char :=
  let digits := paddedNumeral (scale + 1) magnitude
  (digits.take (digits.length - scale), digits.drop (digits.length - scale))

/-- The decimal fraction without zeros at its end. -/
def text (a : Scaled) : List Char :=
  let (whole, fraction) := splitDigits a.coefficient.natAbs a.scale
  let shown := dropTrailingZeros fraction
  (if a.coefficient < 0 then ['-'] else []) ++ whole
    ++ (if shown.isEmpty then [] else '.' :: shown)

end Scaled

end SimpleTypes
