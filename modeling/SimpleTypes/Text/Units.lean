/-!
# UTF-16 units

Texts that arrive as 16-bit units. A unit below `0xD800` or from `0xE000` on is
a character. A high surrogate and a low surrogate that follows it make one
character. Every other surrogate is unpaired, and the first one is the fault.
-/

namespace SimpleTypes.Units

/-- A unit that stands for the upper ten bits of a character. -/
def isHigh (unit : UInt16) : Bool := 0xD800 ≤ unit && unit ≤ 0xDBFF

/-- A unit that stands for the lower ten bits of a character. -/
def isLow (unit : UInt16) : Bool := 0xDC00 ≤ unit && unit ≤ 0xDFFF

/-- The character of a surrogate pair. -/
def combine (high low : UInt16) : Char :=
  Char.ofNat (0x10000 + (high.toNat - 0xD800) * 0x400 + (low.toNat - 0xDC00))

/-- The first unpaired surrogate and the number of characters before it. -/
structure Unpaired where
  unit : UInt16
  position : Nat
  deriving DecidableEq, Repr

/-- The characters that units stand for, when `position` characters stand
before them. -/
def decodeFrom (position : Nat) : List UInt16 → Except Unpaired (List Char)
  | [] => .ok []
  | unit :: rest =>
    if isHigh unit then
      match rest with
      | [] => .error ⟨unit, position⟩
      | low :: rest' =>
        if isLow low then (decodeFrom (position + 1) rest').map (combine unit low :: ·)
        else .error ⟨unit, position⟩
    else if isLow unit then .error ⟨unit, position⟩
    else (decodeFrom (position + 1) rest).map (Char.ofNat unit.toNat :: ·)

/-- The characters that the units stand for. -/
def decode (units : List UInt16) : Except Unpaired (List Char) :=
  decodeFrom 0 units

/-- The units of one character: itself below `0x10000`, else a pair. -/
def encodeChar (c : Char) : List UInt16 :=
  if c.toNat < 0x10000 then [UInt16.ofNat c.toNat]
  else
    let n := c.toNat - 0x10000
    [UInt16.ofNat (0xD800 + n / 0x400), UInt16.ofNat (0xDC00 + n % 0x400)]

/-- The units of a text. -/
def encode (text : List Char) : List UInt16 := text.flatMap encodeChar

end SimpleTypes.Units
