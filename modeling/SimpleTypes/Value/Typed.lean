import SimpleTypes.Number.Decimal
import SimpleTypes.Number.Shortest
import SimpleTypes.Octets.Base64
import SimpleTypes.Octets.Hex
import SimpleTypes.Time.Duration
import SimpleTypes.Value.Primitive

/-!
# Typed values

What a text stands for. A `Native` value is one of the nine value spaces. An
`Atom` is a native value with the type that accepted it. A `TypedValue` is an
atom or a list of atoms.

Equality is equality of values, not of texts. Values of different primitive
types are never equal and have no order. A value that is not a number is equal
to itself, so that it can be enumerated, but it has no order.
-/

namespace SimpleTypes

/-! ## Handles -/

/-- The place of a component in a schema. The index is meant to be held in 32 bits. Here it
has no bound, which makes no difference as long as a schema has fewer than `2 ^ 32 - 1`
components. -/
structure Handle where
  index : Nat
  deriving DecidableEq, Repr

namespace Handle

/-- The handle that addresses no component: the largest number of 32 bits, which is no place
among fewer than `2 ^ 32 - 1` components. -/
def absent : Handle := ⟨4294967295⟩

/-- The handle in messages about a definition. -/
def display (handle : Handle) : String :=
  if handle = absent then "#absent" else "#" ++ toString handle.index

/-- The handle in messages about a use. -/
def reference (handle : Handle) : String := "Handle(" ++ toString handle.index ++ ")"

end Handle

/-! ## Native values -/

/-- A qualified name with the prefix it was written with. -/
structure QNameValue where
  uri : Option String
  localPart : String
  prefixPart : Option String
  deriving DecidableEq, Repr

namespace QNameValue

/-- The name as it was written. -/
def text (name : QNameValue) : String :=
  match name.prefixPart with
  | some before => before ++ ":" ++ name.localPart
  | none => name.localPart

/-- Whether two names have the same namespace and local part. -/
def valueEq (a b : QNameValue) : Bool := a.uri == b.uri && a.localPart == b.localPart

end QNameValue

/-- A value of one of the nine value spaces. -/
inductive Native where
  | string (text : String)
  | boolean (value : Bool)
  | decimal (value : Decimal)
  | float (value : Floating)
  | double (value : Floating)
  | duration (value : Duration)
  | moment (value : Moment)
  | octets (value : List UInt8)
  | qName (value : QNameValue)
  deriving DecidableEq, Repr

namespace Native

/-- Whether two values are the same. -/
def valueEq : Native → Native → Bool
  | string a, string b => a == b
  | boolean a, boolean b => a == b
  | decimal a, decimal b => a.valueEq b
  | float a, float b => a.valueEq b
  | double a, double b => a.valueEq b
  | duration a, duration b => a.valueEq b
  | moment a, moment b => a.valueEq b
  | octets a, octets b => a == b
  | qName a, qName b => a.valueEq b
  | _, _ => false

/-- The order of two values, if they have one. -/
def order? : Native → Native → Option Ordering
  | decimal a, decimal b => some (a.order b)
  | float a, float b => a.order? b
  | double a, double b => a.order? b
  | duration a, duration b => a.order? b
  | moment a, moment b => a.order? b
  | _, _ => none

/-- The canonical text of a value of a primitive type. Octets are written in
base 64 or else in hexadecimal digits. -/
def canonical (primitive : Primitive) : Native → String
  | string text => text
  | boolean value => if value then "true" else "false"
  | decimal value => String.ofList value.canonical
  | float value => String.ofList (value.canonical .single)
  | double value => String.ofList (value.canonical .double)
  | duration value => String.ofList value.canonical
  | moment value => String.ofList value.canonical
  | octets value =>
    String.ofList (if primitive = .base64Binary then Base64.encode value else Hex.encode value)
  | qName value => value.text

/-- The length that the length facets measure: characters, or octets. Other
values have none. -/
def length? : Native → Option Nat
  | string text => some text.length
  | octets value => some value.length
  | qName value => some value.text.length
  | _ => none

end Native

/-! ## Atoms, lists and typed values -/

/-- A native value, the type that accepted it, and its primitive type. -/
structure Atom where
  native : Native
  type : Handle
  primitive : Primitive
  deriving DecidableEq, Repr

namespace Atom

/-- Whether two atoms have the same value of the same primitive type. -/
def valueEq (a b : Atom) : Bool := a.primitive == b.primitive && a.native.valueEq b.native

/-- The order of two atoms of one primitive type. -/
def order? (a b : Atom) : Option Ordering :=
  if a.primitive = b.primitive then a.native.order? b.native else none

/-- The canonical text. -/
def canonical (a : Atom) : String := a.native.canonical a.primitive

/-- The length that the length facets measure. -/
def length? (a : Atom) : Option Nat := a.native.length?

/-- The value of a decimal. -/
def decimal? (a : Atom) : Option Decimal :=
  match a.native with
  | .decimal value => some value
  | _ => none

end Atom

/-- The items of a list and their type. -/
structure ListValue where
  itemType : Handle
  items : List Atom
  deriving DecidableEq, Repr

namespace ListValue

/-- Whether two lists have the same length and the same values in order. -/
def valueEq (a b : ListValue) : Bool :=
  a.items.length == b.items.length
    && (a.items.zip b.items).all (fun (x, y) => x.valueEq y)

/-- The canonical texts of the items with single spaces between them. -/
def canonical (a : ListValue) : String := String.intercalate " " (a.items.map Atom.canonical)

end ListValue

/-- The value of a text: an atom, or a list if the type is one. -/
inductive TypedValue where
  | atomic (value : Atom)
  | list (value : ListValue)
  deriving DecidableEq, Repr

namespace TypedValue

/-- Whether two values are the same. An atom is never a list. -/
def valueEq : TypedValue → TypedValue → Bool
  | atomic a, atomic b => a.valueEq b
  | list a, list b => a.valueEq b
  | _, _ => false

/-- The canonical text. -/
def canonical : TypedValue → String
  | atomic a => a.canonical
  | list a => a.canonical

/-- The items of a list, or the one atom. -/
def atoms : TypedValue → List Atom
  | atomic a => [a]
  | list a => a.items

end TypedValue

end SimpleTypes
