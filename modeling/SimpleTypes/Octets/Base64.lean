import SimpleTypes.Octets.Fault

/-!
# Octets in base 64

Four characters for three octets. A last group of two octets or one is filled up
with one `=` or two. Decoding is strict: it passes over nothing, takes padding
only at the end, and refuses a last character with bits that encode nothing.

The faults of a text are looked for in this order, each in the whole text: a
character outside the alphabet, a length that is no multiple of four, padding
that is not at the end, and bits after the last octet that are not zero.
-/

namespace SimpleTypes.Base64

/-- The value of a character of the alphabet. -/
def digitValue? (c : Char) : Option Nat :=
  if 'A' ≤ c && c ≤ 'Z' then some (c.toNat - 65)
  else if 'a' ≤ c && c ≤ 'z' then some (c.toNat - 71)
  else if '0' ≤ c && c ≤ '9' then some (c.toNat + 4)
  else if c = '+' then some 62
  else if c = '/' then some 63
  else none

/-- Whether a character may stand in an encoding. -/
def isAllowed (c : Char) : Bool := c == '=' || (digitValue? c).isSome

/-- The first character that may not stand in an encoding, and its position. -/
def firstForeign? (text : List Char) : Option (Char × Nat) :=
  text.zipIdx.find? (fun (c, _) => !isAllowed c)

/-- The first padding of a text at `position` that is neither its last character
nor the last but one with padding after it. -/
def firstMisplaced? (position : Nat) : List Char → Option Nat
  | [] => none
  | [_] => none
  | [c, d] => if c == '=' && d != '=' then some position else none
  | c :: rest => if c == '=' then some position else firstMisplaced? (position + 1) rest

/-- The value of a character, zero if it has none. -/
def digitValue (c : Char) : Nat := (digitValue? c).getD 0

/-- The first octet of a group, from its first two digits. -/
def firstOctet (a b : Nat) : UInt8 := UInt8.ofNat (a * 4 + b / 16)

/-- The second octet of a group, from the digits in its middle. -/
def secondOctet (b c : Nat) : UInt8 := UInt8.ofNat (b % 16 * 16 + c / 4)

/-- The third octet of a group, from its last two digits. -/
def thirdOctet (c d : Nat) : UInt8 := UInt8.ofNat (c % 4 * 64 + d)

/-- The octets of whole groups, of which only the last may be padded. -/
def decodeGroups : List Char → List UInt8
  | [a, b, '=', '='] => [firstOctet (digitValue a) (digitValue b)]
  | [a, b, c, '='] =>
    [firstOctet (digitValue a) (digitValue b), secondOctet (digitValue b) (digitValue c)]
  | a :: b :: c :: d :: rest =>
    firstOctet (digitValue a) (digitValue b) :: secondOctet (digitValue b) (digitValue c)
      :: thirdOctet (digitValue c) (digitValue d) :: decodeGroups rest
  | _ => []

/-- The bits of the last digit that belong to no octet. -/
def trailingBits (text : List Char) : Nat :=
  match text.reverse with
  | '=' :: '=' :: b :: _ => digitValue b % 16
  | '=' :: c :: _ => digitValue c % 4
  | _ => 0

/-- The octets that a text encodes. -/
def decode (text : List Char) : Except OctetFault (List UInt8) :=
  match firstForeign? text with
  | some (c, position) => .error (.invalidCharacter c position)
  | none =>
    if text.length % 4 ≠ 0 then .error (.invalidLength text.length)
    else
      match firstMisplaced? 0 text with
      | some position => .error (.misplacedPadding position)
      | none =>
        if trailingBits text = 0 then .ok (decodeGroups text) else .error .trailingBits

/-- The character of a value below sixty-four. -/
def digit (value : Nat) : Char :=
  if value < 26 then Char.ofNat (65 + value)
  else if value < 52 then Char.ofNat (71 + value)
  else if value < 62 then Char.ofNat (value - 4)
  else if value = 62 then '+'
  else '/'

/-- The characters of octets, three at a time. -/
def encode : List UInt8 → List Char
  | [] => []
  | [x] => [digit (x.toNat / 4), digit (x.toNat % 4 * 16), '=', '=']
  | [x, y] =>
    [digit (x.toNat / 4), digit (x.toNat % 4 * 16 + y.toNat / 16), digit (y.toNat % 16 * 4), '=']
  | x :: y :: z :: rest =>
    digit (x.toNat / 4) :: digit (x.toNat % 4 * 16 + y.toNat / 16)
      :: digit (y.toNat % 16 * 4 + z.toNat / 64) :: digit (z.toNat % 64) :: encode rest

end SimpleTypes.Base64
