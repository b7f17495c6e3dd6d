import SimpleTypes.Schema.Component

/-!
# Definitions

What one can ask a builder to add to a schema. Values in definitions are still
texts: they are read when the component is added.
-/

namespace SimpleTypes

/-! ## Restrictions -/

/-- The facets that a derived type states itself. -/
structure Restriction where
  name : Option QName := none
  whiteSpace : Option WhiteSpace := none
  length : Option Nat := none
  minLength : Option Nat := none
  maxLength : Option Nat := none
  totalDigits : Option Nat := none
  fractionDigits : Option Nat := none
  ranges : List (RangeKind × String) := []
  enumeration : List String := []
  patterns : List String := []
  deriving DecidableEq, Repr

namespace Restriction

/-- States a bound. An earlier bound of the same kind is forgotten. -/
def setRange (restriction : Restriction) (kind : RangeKind) (text : String) : Restriction :=
  { restriction with
    ranges := restriction.ranges.filter (fun range => range.1 != kind) ++ [(kind, text)] }

/-- The facets that a restriction states, in the order in which they are
tested. -/
def stated (restriction : Restriction) : List Facet :=
  [(restriction.whiteSpace.isSome, Facet.whiteSpace), (restriction.length.isSome, .length),
    (restriction.minLength.isSome, .minLength), (restriction.maxLength.isSome, .maxLength),
    (restriction.totalDigits.isSome, .totalDigits),
    (restriction.fractionDigits.isSome, .fractionDigits)].filterMap
      (fun (isStated, facet) => if isStated then some facet else none)
  ++ restriction.ranges.map (fun range => .range range.1)
  ++ (if restriction.enumeration.isEmpty then [] else [.enumeration])
  ++ (if restriction.patterns.isEmpty then [] else [.pattern])

end Restriction

/-! ## Definitions -/

/-- A value to be declared, as a text. -/
structure DeclaredValue where
  kind : ConstraintKind
  text : String
  deriving DecidableEq, Repr

/-- The part of a definition in which a declared value stands. -/
def ConstraintKind.role : ConstraintKind → ValueRole
  | default => .default
  | fixed => .fixed

/-- A request for a new component. -/
inductive Definition where
  | restriction (base : Handle) (restriction : Restriction)
  | list (name : Option QName) (item : Handle)
  | union (name : Option QName) (members : List Handle)
  | complexType (name : Option QName) (content : Content)
  | attribute (name : QName) (type : Handle) (value : Option DeclaredValue)
  | attributeUse (decl : Handle) (required : Bool) (value : Option DeclaredValue)
  | element (name : QName) (type : Handle) (value : Option DeclaredValue)
  deriving DecidableEq, Repr

end SimpleTypes
