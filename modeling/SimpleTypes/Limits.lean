/-!
# Limits

Bounds on the work that one text may cause. A limit withholds an answer: a text
beyond it is neither valid nor invalid.
-/

namespace SimpleTypes

/-- The largest number of characters of a text, of items of a list, of digits
of a decimal, and of digits of one field of a date, a time or a duration. -/
structure Limits where
  lexicalLength : Nat
  listItems : Nat
  decimalDigits : Nat
  temporalDigits : Nat
  deriving DecidableEq, Repr

/-- A limit that was exceeded, with the number that exceeded it and the limit. -/
inductive LimitFault where
  | lexicalLength (count most : Nat)
  | listItems (count most : Nat)
  | decimalDigits (count most : Nat)
  | temporalDigits (count most : Nat)
  deriving DecidableEq, Repr

namespace LimitFault

/-- The message of a fault. -/
def message : LimitFault → String
  | lexicalLength count most => s!"lexical value of {count} characters exceeds maximum {most}"
  | listItems count most => s!"list of {count} items exceeds maximum {most}"
  | decimalDigits count most => s!"decimal with {count} digits exceeds maximum {most}"
  | temporalDigits count most => s!"temporal field of {count} digits exceeds maximum {most}"

end LimitFault

namespace Limits

/-- Fields of more digits are never read, whatever the limits say. -/
def temporalCeiling : Nat := 18

/-- The largest number of 64 bits. -/
def unlimited : Nat := 18446744073709551615

/-- The limits that hold where none are given. -/
def standard : Limits := ⟨16777216, 1000000, 4096, temporalCeiling⟩

/-- Limits for texts from strangers. -/
def strict : Limits := ⟨65536, 10000, 128, 9⟩

/-- Limits that hardly bind. -/
def permissive : Limits := ⟨unlimited, unlimited, 1048576, temporalCeiling⟩

/-- Tests the number of characters of a text. -/
def checkLexicalLength (limits : Limits) (count : Nat) : Except LimitFault Unit :=
  if limits.lexicalLength < count then .error (.lexicalLength count limits.lexicalLength)
  else .ok ()

/-- Tests the number of items of a list. -/
def checkListItems (limits : Limits) (count : Nat) : Except LimitFault Unit :=
  if limits.listItems < count then .error (.listItems count limits.listItems) else .ok ()

/-- Tests the number of digits of a decimal. -/
def checkDecimalDigits (limits : Limits) (count : Nat) : Except LimitFault Unit :=
  if limits.decimalDigits < count then .error (.decimalDigits count limits.decimalDigits)
  else .ok ()

/-- Tests the number of digits of a field of a date, a time or a duration. -/
def checkTemporalDigits (limits : Limits) (count : Nat) : Except LimitFault Unit :=
  let most := min limits.temporalDigits temporalCeiling
  if most < count then .error (.temporalDigits count most) else .ok ()

end Limits

end SimpleTypes
