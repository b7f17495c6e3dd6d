import SimpleTypes.Builtin

/-!
# Components

What a schema is made of: simple and complex types, declarations of attributes
and elements, and uses of attributes. Components refer to each other by handle.
-/

namespace SimpleTypes

/-- The text that stands for a name in messages. -/
def nameText : Option QName → String
  | some name => name.display
  | none => "(anonymous)"

/-! ## Types -/

/-- What the values of a simple type are: values of a primitive type, lists of
items, or values of one of several types. -/
inductive Variety where
  | atomic (primitive : Primitive)
  | list (item : Handle)
  | union (members : List Handle)
  deriving DecidableEq, Repr

/-- The facets that a restriction of a variety may use. -/
def Variety.admittedFacets : Variety → List Facet
  | atomic primitive => Facet.ofPrimitive primitive
  | list _ => Facet.ofLists
  | union _ => Facet.ofUnions

/-- A simple type with all the facets in force on it. Only the type of all
simple values has no base. -/
structure SimpleType where
  name : Option QName
  base : Option Handle
  variety : Variety
  builtin : Option Builtin
  rule : LexicalRule
  facets : FacetSet
  deriving DecidableEq, Repr

namespace SimpleType

/-- The name in messages. -/
def displayName (type : SimpleType) : String := nameText type.name

/-- The primitive type of single values. -/
def primitive? (type : SimpleType) : Option Primitive :=
  match type.variety with
  | .atomic primitive => some primitive
  | _ => none

end SimpleType

/-- What stands between the tags of an element of a complex type. -/
inductive Content where
  | empty
  | simple (type : Handle)
  | elementOnly
  | mixed
  deriving DecidableEq, Repr

/-- A complex type, as far as simple values depend on it. -/
structure ComplexType where
  name : Option QName
  content : Content
  deriving DecidableEq, Repr

/-! ## Declarations -/

/-- Whether a declared value replaces a missing one, or also binds a given
one. -/
inductive ConstraintKind where
  | default
  | fixed
  deriving DecidableEq, Repr

/-- A declared value: the text of the declaration and the value it stands
for. -/
structure ValueConstraint where
  kind : ConstraintKind
  lexical : String
  value : TypedValue
  deriving DecidableEq, Repr

/-- The declaration of an attribute. -/
structure AttributeDecl where
  name : QName
  type : Handle
  constraint : Option ValueConstraint
  deriving DecidableEq, Repr

/-- The use of a declared attribute, which may declare a value of its own. -/
structure AttributeUse where
  decl : Handle
  required : Bool
  constraint : Option ValueConstraint
  deriving DecidableEq, Repr

/-- The declaration of an element. -/
structure ElementDecl where
  name : QName
  type : Handle
  constraint : Option ValueConstraint
  deriving DecidableEq, Repr

/-- A component of a schema. -/
inductive Component where
  | simpleType (type : SimpleType)
  | complexType (type : ComplexType)
  | attribute (decl : AttributeDecl)
  | attributeUse (attributeUse : AttributeUse)
  | element (decl : ElementDecl)
  deriving DecidableEq, Repr

/-- A built-in type as a component. A new built-in type can refer to the others
by their handles, which are the same in every schema. -/
def Builtin.simpleType (type : Builtin) : SimpleType where
  name := some type.qName
  base := type.base?.map handle
  variety := match type.shape with
    | .atomic source => .atomic source
    | .list item => .list item.handle
  builtin := some type
  rule := type.rule
  facets := type.facets

end SimpleTypes
