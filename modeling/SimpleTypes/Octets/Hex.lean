import SimpleTypes.Octets.Fault
import SimpleTypes.Text.WhiteSpace

/-!
# Octets in hexadecimal

Two hexadecimal digits for each octet, the upper four bits first. Encoding
writes upper-case digits. Decoding reads a text in one pass. It takes digits of
both cases and passes over blanks, even between the two digits of an octet.
-/

namespace SimpleTypes.Hex

/-! ## Digits -/

/-- The value of a hexadecimal digit of either case. -/
def digitValue? (c : Char) : Option Nat :=
  if '0' ≤ c && c ≤ '9' then some (c.toNat - 48)
  else if 'A' ≤ c && c ≤ 'F' then some (c.toNat - 55)
  else if 'a' ≤ c && c ≤ 'f' then some (c.toNat - 87)
  else none

/-- The upper-case digit of a value below sixteen. -/
def digit (value : Nat) : Char :=
  if value < 10 then Char.ofNat (48 + value) else Char.ofNat (55 + value)

/-! ## Decoding -/

/-- What is known of a text that was read up to some place: the complete octets
with the last one first, the digit that waits for the second one of its octet,
and the number of digits. -/
structure Progress where
  octets : List UInt8 := []
  pending : Option Nat := none
  digits : Nat := 0
  deriving DecidableEq, Repr

namespace Progress

/-- Takes the value of a digit. It completes an octet if a digit is pending. -/
def push (progress : Progress) (value : Nat) : Progress :=
  match progress.pending with
  | some high => ⟨UInt8.ofNat (high * 16 + value) :: progress.octets, none, progress.digits + 1⟩
  | none => ⟨progress.octets, some value, progress.digits + 1⟩

/-- Takes a character and its position. Blanks change nothing. -/
def step (progress : Progress) (next : Char × Nat) : Except OctetFault Progress :=
  if isBlank next.1 then .ok progress
  else match digitValue? next.1 with
    | some value => .ok (progress.push value)
    | none => .error (.invalidCharacter next.1 next.2)

/-- The octets of a text that was read to its end. No digit may be pending. -/
def finish (progress : Progress) : Except OctetFault (List UInt8) :=
  match progress.pending with
  | some _ => .error (.invalidLength progress.digits)
  | none => .ok progress.octets.reverse

end Progress

/-- The octets that a text encodes. -/
def decode (text : List Char) : Except OctetFault (List UInt8) := do
  let progress ← text.zipIdx.foldlM Progress.step {}
  progress.finish

/-! ## Encoding -/

/-- The two digits of an octet. -/
def encodeOctet (octet : UInt8) : List Char :=
  [digit (octet.toNat / 16), digit (octet.toNat % 16)]

/-- The digits of octets. -/
def encode (octets : List UInt8) : List Char := octets.flatMap encodeOctet

end SimpleTypes.Hex
