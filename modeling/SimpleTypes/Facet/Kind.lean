import SimpleTypes.Value.Primitive

/-!
# Kinds of facets

The names of the constraining facets, and which of them a derivation from a
type may use.
-/

namespace SimpleTypes

/-- The four bounds of an ordered value. -/
inductive RangeKind where
  | minInclusive
  | maxInclusive
  | minExclusive
  | maxExclusive
  deriving DecidableEq, Repr

namespace RangeKind

/-- The bounds in the order in which they are tested. -/
def all : List RangeKind := [minInclusive, maxInclusive, minExclusive, maxExclusive]

/-- The name of a bound in a schema. -/
def name : RangeKind → String
  | minInclusive => "minInclusive"
  | maxInclusive => "maxInclusive"
  | minExclusive => "minExclusive"
  | maxExclusive => "maxExclusive"

/-- The relation that a value must have to a bound. -/
def relation : RangeKind → String
  | minInclusive => ">="
  | maxInclusive => "<="
  | minExclusive => ">"
  | maxExclusive => "<"

/-- Whether a value with the given order to a bound satisfies it. -/
def accepts : RangeKind → Ordering → Bool
  | minInclusive, order => order != .lt
  | maxInclusive, order => order != .gt
  | minExclusive, order => order == .gt
  | maxExclusive, order => order == .lt

end RangeKind

/-- The constraining facets. -/
inductive Facet where
  | whiteSpace
  | length
  | minLength
  | maxLength
  | totalDigits
  | fractionDigits
  | range (kind : RangeKind)
  | enumeration
  | pattern
  deriving DecidableEq, Repr

namespace Facet

/-- The name of a facet in a schema. -/
def name : Facet → String
  | whiteSpace => "whiteSpace"
  | length => "length"
  | minLength => "minLength"
  | maxLength => "maxLength"
  | totalDigits => "totalDigits"
  | fractionDigits => "fractionDigits"
  | range kind => kind.name
  | enumeration => "enumeration"
  | pattern => "pattern"

/-- The four bounds. -/
def ranges : List Facet := RangeKind.all.map range

/-- The facets of lists, and of values with a length. -/
def ofLists : List Facet := [whiteSpace, length, minLength, maxLength, enumeration, pattern]

/-- The facets of values with an order. -/
def ofOrdered : List Facet := [whiteSpace, enumeration, pattern] ++ ranges

/-- The facets of unions. -/
def ofUnions : List Facet := [enumeration, pattern]

/-- The facets of atomic types that lead back to a primitive type. -/
def ofPrimitive : Primitive → List Facet
  | .boolean => [whiteSpace, pattern]
  | .decimal => [totalDigits, fractionDigits] ++ ofOrdered
  | .float | .double | .duration | .temporal _ => ofOrdered
  | .string | .hexBinary | .base64Binary | .anyUri | .qName | .notationName => ofLists

end Facet

end SimpleTypes
