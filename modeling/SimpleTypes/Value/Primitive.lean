import SimpleTypes.Time.Moment

/-!
# Primitive types

The nineteen primitive types, to one of which every atomic type leads back.
-/

namespace SimpleTypes

/-- The primitive types. -/
inductive Primitive where
  | string
  | boolean
  | decimal
  | float
  | double
  | duration
  | temporal (kind : TemporalKind)
  | hexBinary
  | base64Binary
  | anyUri
  | qName
  | notationName
  deriving DecidableEq, Repr

/-- The local name of a date or time type. -/
def TemporalKind.name : TemporalKind → String
  | dateTime => "dateTime"
  | time => "time"
  | date => "date"
  | gYearMonth => "gYearMonth"
  | gYear => "gYear"
  | gMonthDay => "gMonthDay"
  | gDay => "gDay"
  | gMonth => "gMonth"

namespace Primitive

/-- All primitive types, in the order of the standard. -/
def all : List Primitive := [
  string, boolean, decimal, float, double, duration, temporal .dateTime, temporal .time,
  temporal .date, temporal .gYearMonth, temporal .gYear, temporal .gMonthDay, temporal .gDay,
  temporal .gMonth, hexBinary, base64Binary, anyUri, qName, notationName]

/-- The local name of a primitive type. -/
def name : Primitive → String
  | string => "string"
  | boolean => "boolean"
  | decimal => "decimal"
  | float => "float"
  | double => "double"
  | duration => "duration"
  | temporal kind => kind.name
  | hexBinary => "hexBinary"
  | base64Binary => "base64Binary"
  | anyUri => "anyURI"
  | qName => "QName"
  | notationName => "NOTATION"

/-- The primitive type of a local name. -/
def ofName? (name : String) : Option Primitive := all.find? (fun p => p.name == name)

/-- The kind of a date or time type. -/
def temporalKind? : Primitive → Option TemporalKind
  | temporal kind => some kind
  | _ => none

/-- Whether the values have an order. -/
def isOrdered : Primitive → Bool
  | decimal | float | double | duration | temporal _ => true
  | _ => false

end Primitive

end SimpleTypes
