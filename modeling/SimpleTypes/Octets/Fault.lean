import SimpleTypes.Text.Quoted

/-!
# Faults of encoded octets

Why a text is no encoding of octets, in hexadecimal digits or in base 64.
Positions count the characters of the text from zero.
-/

namespace SimpleTypes

/-- Why a text cannot be decoded. -/
inductive OctetFault where
  | invalidCharacter (character : Char) (position : Nat)
  | invalidLength (length : Nat)
  | misplacedPadding (position : Nat)
  | trailingBits
  deriving DecidableEq, Repr

/-- The message of a fault. -/
def OctetFault.message : OctetFault → String
  | invalidCharacter character position =>
    "invalid character " ++ Quoted.char character ++ " at position " ++ toString position
  | invalidLength length => "invalid length " ++ toString length
  | misplacedPadding position => "misplaced padding at position " ++ toString position
  | trailingBits => "non-zero trailing bits"

end SimpleTypes
