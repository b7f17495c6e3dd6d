import SimpleTypes.Error.Definition
import SimpleTypes.Limits

/-!
# Errors

Everything that can go wrong. A text can be invalid (`Invalid`), a handle can
address the wrong component (`Misuse`), a definition can be faulty
(`DefinitionError`), and a limit can be exceeded (`LimitFault`).
-/

namespace SimpleTypes

/-! ## Misuse -/

/-- A handle that does not address what an entry point needs. -/
inductive Misuse where
  | absentHandle (handle : Handle)
  | notASimpleType (handle : Handle)
  | notAnElement (handle : Handle)
  | notSimpleContent (handle : Handle)
  | notAnAttribute (handle : Handle)
  | missingValue (handle : Handle)
  deriving DecidableEq, Repr

/-- The message of a misuse. -/
def Misuse.message : Misuse → String
  | absentHandle handle =>
    "handle " ++ handle.reference ++ " does not address a schema component"
  | notASimpleType handle => "component " ++ handle.reference ++ " is not a simple type"
  | notAnElement handle => "component " ++ handle.reference ++ " is not an element declaration"
  | notSimpleContent handle => "element " ++ handle.reference ++ " does not have simple content"
  | notAnAttribute handle =>
    "component " ++ handle.reference ++ " is neither an attribute nor an attribute use"
  | missingValue handle =>
    "no value supplied for " ++ handle.reference ++ " and no fixed or default value is declared"

/-! ## All errors -/

/-- Everything that can go wrong. -/
inductive Error where
  | invalid (cause : Invalid)
  | misuse (cause : Misuse)
  | definition (error : DefinitionError)
  | limit (fault : LimitFault)
  deriving DecidableEq, Repr

namespace Error

/-- The message of an error. -/
def message : Error → String
  | invalid cause => "validation error: " ++ cause.message
  | misuse cause => "usage error: " ++ cause.message
  | definition error => "parse error: " ++ error.message
  | limit fault => "limit exceeded: " ++ fault.message

/-- The kind of an invalid text. Other errors have none. -/
def kind? : Error → Option ErrorKind
  | invalid cause => some cause.kind
  | _ => none

/-- A test of a value as a part of a larger task. -/
def ofInvalid {α : Type} (result : Except Invalid α) : Except Error α := result.mapError invalid

/-- A test of a limit as a part of a larger task. -/
def ofLimit {α : Type} (result : Except LimitFault α) : Except Error α := result.mapError limit

/-- A look-up as a part of a larger task. -/
def ofMisuse {α : Type} (result : Except Misuse α) : Except Error α := result.mapError misuse

end Error

end SimpleTypes
