import SimpleTypes.Error.Invalid
import SimpleTypes.Text.WhiteSpace

/-!
# Faulty definitions

Why a component cannot be added to a schema, by cause, and the wording of each
cause.
-/

namespace SimpleTypes

/-- The part of a definition that a text is the value of. -/
inductive ValueRole where
  | bound (kind : RangeKind)
  | enumeration
  | default
  | fixed
  deriving DecidableEq, Repr

/-- The name of a part. -/
def ValueRole.name : ValueRole → String
  | bound kind => kind.name
  | enumeration => Facet.enumeration.name
  | default => "default"
  | fixed => "fixed"

/-- Why a component cannot be defined. -/
inductive DefinitionFault where
  | unknownWhiteSpace (word : String)
  | baseNotSimple (base : Handle)
  | facetNotAdmitted (facet : Facet) (base : String)
  | whiteSpaceWeakened (mode : WhiteSpace)
  | lengthsCross (least most : Nat)
  | digitsCross (fraction total : Nat)
  | boundOfList (kind : RangeKind)
  | invalidValue (role : ValueRole) (text : String) (cause : Invalid)
  | itemNotSimple (item : Handle)
  | itemIsList
  | noMembers
  | memberNotSimple (member : Handle)
  | contentNotSimple
  | attributeTypeNotSimple (type : Handle)
  | notAnAttribute (handle : Handle)
  | elementTypeNotAType (type : Handle)
  | valueWithoutSimpleContent
  deriving DecidableEq, Repr

namespace DefinitionFault

/-- What a fault says about the definition. -/
def summary : DefinitionFault → String
  | unknownWhiteSpace word =>
    "Invalid whiteSpace value: '" ++ word ++ "'. Must be 'preserve', 'replace', or 'collapse'"
  | baseNotSimple base => "base " ++ base.display ++ " is not a simple type"
  | facetNotAdmitted facet base =>
    "facet '" ++ facet.name ++ "' is not admitted by base type " ++ base
  | whiteSpaceWeakened mode =>
    "whiteSpace '" ++ mode.name ++ "' is less restrictive than the inherited value"
  | lengthsCross least most => s!"minLength {least} is greater than maxLength {most}"
  | digitsCross fraction total => s!"fractionDigits {fraction} is greater than totalDigits {total}"
  | boundOfList kind => kind.name ++ " requires an atomic base type"
  | invalidValue role text _ => "invalid " ++ role.name ++ " value '" ++ text ++ "'"
  | itemNotSimple item => "item type " ++ item.display ++ " is not a simple type"
  | itemIsList => "the item type of a list cannot be a list"
  | noMembers => "a union needs at least one member type"
  | memberNotSimple member => "member type " ++ member.display ++ " is not a simple type"
  | contentNotSimple => "simple content requires a simple type"
  | attributeTypeNotSimple type => "attribute type " ++ type.display ++ " is not a simple type"
  | notAnAttribute handle => handle.display ++ " is not an attribute declaration"
  | elementTypeNotAType type => "element type " ++ type.display ++ " is not a type"
  | valueWithoutSimpleContent => "a default or fixed value requires simple content"

/-- The invalid text behind a fault. -/
def cause? : DefinitionFault → Option Invalid
  | invalidValue _ _ cause => some cause
  | _ => none

end DefinitionFault

/-- A fault and the name of the component that was to be defined. -/
structure DefinitionError where
  fault : DefinitionFault
  component : Option String
  deriving DecidableEq, Repr

/-- The message of a faulty definition. -/
def DefinitionError.message (error : DefinitionError) : String :=
  error.fault.summary
    ++ (match error.component with
      | some component => "\n\nComponent: " ++ component
      | none => "")
    ++ (match error.fault.cause? with
      | some cause => "\n\nCause: " ++ cause.message
      | none => "")

end SimpleTypes
