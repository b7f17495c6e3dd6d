import SimpleTypes.Facet.Set
import SimpleTypes.Lexical
import SimpleTypes.Name.Qualified

/-!
# Built-in types

The simple types that every schema holds from the start: the type of all simple
values, the primitive types, the strings of a restricted form, the three lists
and the integers.

Every built-in type states its facets in full, so none has to be inherited. The
handle of a built-in type is its place in `Builtin.all`, and a base stands
before the types derived from it.
-/

namespace SimpleTypes

/-- The namespace of the built-in types. -/
def schemaNamespace : String := "http://www.w3.org/2001/XMLSchema"

/-- The built-in simple types. -/
inductive Builtin where
  | anySimpleType
  | primitive (type : Primitive)
  | normalizedString
  | token
  | language
  | name
  | ncName
  | id
  | idRef
  | entity
  | nmtoken
  | nmtokens
  | idRefs
  | entities
  | integer
  | nonPositiveInteger
  | negativeInteger
  | long
  | int
  | short
  | byte
  | nonNegativeInteger
  | unsignedLong
  | unsignedInt
  | unsignedShort
  | unsignedByte
  | positiveInteger
  deriving DecidableEq, Repr

/-- Whether a built-in type has single values or lists of them. -/
inductive Shape where
  | atomic (primitive : Primitive)
  | list (item : Builtin)
  deriving DecidableEq, Repr

namespace Builtin

/-- The strings of a restricted form. -/
def strings : List Builtin :=
  [normalizedString, token, language, name, ncName, id, idRef, entity, nmtoken]

/-- The lists. -/
def lists : List Builtin := [nmtokens, idRefs, entities]

/-- The integers. -/
def integers : List Builtin := [
  integer, nonPositiveInteger, negativeInteger, long, int, short, byte, nonNegativeInteger,
  unsignedLong, unsignedInt, unsignedShort, unsignedByte, positiveInteger]

/-- All built-in types, each base before its derivations. -/
def all : List Builtin :=
  anySimpleType :: Primitive.all.map primitive ++ strings ++ lists ++ integers

/-- The local name. -/
def localName : Builtin → String
  | anySimpleType => "anySimpleType"
  | primitive type => type.name
  | normalizedString => "normalizedString"
  | token => "token"
  | language => "language"
  | name => "Name"
  | ncName => "NCName"
  | id => "ID"
  | idRef => "IDREF"
  | entity => "ENTITY"
  | nmtoken => "NMTOKEN"
  | nmtokens => "NMTOKENS"
  | idRefs => "IDREFS"
  | entities => "ENTITIES"
  | integer => "integer"
  | nonPositiveInteger => "nonPositiveInteger"
  | negativeInteger => "negativeInteger"
  | long => "long"
  | int => "int"
  | short => "short"
  | byte => "byte"
  | nonNegativeInteger => "nonNegativeInteger"
  | unsignedLong => "unsignedLong"
  | unsignedInt => "unsignedInt"
  | unsignedShort => "unsignedShort"
  | unsignedByte => "unsignedByte"
  | positiveInteger => "positiveInteger"

/-- The name in the namespace of the built-in types. -/
def qName (type : Builtin) : QName := ⟨some schemaNamespace, type.localName⟩

/-- The name with the usual prefix. -/
def display (type : Builtin) : String := "xs:" ++ type.localName

/-- The type of a local name. -/
def ofName? (localName : String) : Option Builtin :=
  all.find? (fun type => type.localName == localName)

/-- The handle in every schema. -/
def handle (type : Builtin) : Handle := ⟨all.idxOf type⟩

/-- The type from which a type is derived. -/
def base? : Builtin → Option Builtin
  | anySimpleType => none
  | primitive _ | nmtokens | idRefs | entities => some anySimpleType
  | normalizedString => some (primitive .string)
  | token => some normalizedString
  | language | name | nmtoken => some token
  | ncName => some name
  | id | idRef | entity => some ncName
  | integer => some (primitive .decimal)
  | nonPositiveInteger | long | nonNegativeInteger => some integer
  | negativeInteger => some nonPositiveInteger
  | int => some long
  | short => some int
  | byte => some short
  | unsignedLong | positiveInteger => some nonNegativeInteger
  | unsignedInt => some unsignedLong
  | unsignedShort => some unsignedInt
  | unsignedByte => some unsignedShort

/-- The item type of a list, or the primitive type of single values. -/
def shape (type : Builtin) : Shape :=
  match type with
  | anySimpleType => .atomic .string
  | primitive type => .atomic type
  | nmtokens => .list nmtoken
  | idRefs => .list idRef
  | entities => .list entity
  | _ => if type ∈ integers then .atomic .decimal else .atomic .string

/-- How blanks are treated: not at all by the type of all simple values. -/
def whiteSpace? : Builtin → Option WhiteSpace
  | anySimpleType => none
  | primitive .string => some .preserve
  | normalizedString => some .replace
  | _ => some .collapse

/-- What the type demands beyond the grammar of its primitive type. -/
def rule (type : Builtin) : LexicalRule :=
  match type with
  | normalizedString => .normalizedString
  | token => .token
  | language => .language
  | name => .name
  | ncName | id | idRef | entity => .ncName
  | nmtoken => .nmtoken
  | _ => if type ∈ integers then .integer else .plain

/-- The least integer. -/
def least? : Builtin → Option Int
  | long => some (-9223372036854775808)
  | int => some (-2147483648)
  | short => some (-32768)
  | byte => some (-128)
  | nonNegativeInteger | unsignedLong | unsignedInt | unsignedShort | unsignedByte => some 0
  | positiveInteger => some 1
  | _ => none

/-- The greatest integer. -/
def greatest? : Builtin → Option Int
  | nonPositiveInteger => some 0
  | negativeInteger => some (-1)
  | long => some 9223372036854775807
  | int => some 2147483647
  | short => some 32767
  | byte => some 127
  | unsignedLong => some 18446744073709551615
  | unsignedInt => some 4294967295
  | unsignedShort => some 65535
  | unsignedByte => some 255
  | _ => none

/-- A bound of the type, as one of its own values. -/
def boundAtom (type : Builtin) (value : Int) : Atom :=
  ⟨.decimal (Decimal.ofInt value), type.handle, .decimal⟩

/-- The facets in force on the type. A list has at least one item. -/
def facets (type : Builtin) : FacetSet :=
  match type.shape with
  | .atomic _ =>
    { whiteSpace := type.whiteSpace?
      fractionDigits := if type.rule = .integer then some 0 else none
      minInclusive := type.least?.map (⟨.minInclusive, type.boundAtom ·⟩)
      maxInclusive := type.greatest?.map (⟨.maxInclusive, type.boundAtom ·⟩) }
  | .list _ => { whiteSpace := type.whiteSpace?, minLength := some 1 }

/-! ## Families -/

/-- Whether the values are numbers. -/
def isNumeric (type : Builtin) : Bool :=
  type.shape == .atomic .decimal || type.shape == .atomic .float || type.shape == .atomic .double

/-- Whether the values are integers. -/
def isInteger (type : Builtin) : Bool := type.rule == .integer

/-- Whether the values are strings. -/
def isString (type : Builtin) : Bool := type.shape == .atomic .string

/-- Whether the values are dates, times or durations. -/
def isTemporal (type : Builtin) : Bool :=
  match type.shape with
  | .atomic .duration | .atomic (.temporal _) => true
  | _ => false

end Builtin

end SimpleTypes
