import SimpleTypes.Schema.Graph

/-!
# Validating against simple types

A text becomes the typed value that it has under a simple type, or fails.

* An atomic type treats blanks, reads the text, and tests its facets.
* A list type cuts the text into words and reads each as an item.
* A union type asks its members in order. The first one that accepts the text
  gives the value. Only an invalid text sends the question on: a limit that is
  exceeded ends it.

`Graph.readValue` does this for any handle. `Graph.validate` tests the length
of the text first.
-/

namespace SimpleTypes

/-! ## The three varieties -/

/-- Reads a text as a value of an atomic type. -/
def readAtom (limits : Limits) (bindings? : Option Bindings) (handle : Handle) (type : SimpleType)
    (primitive : Primitive) (text : String) : Except Error Atom := do
  let normalized := normalizeText type.facets.whiteSpace text
  let native ← readAtomic primitive type.rule normalized bindings? limits
  let value : Atom := ⟨native, handle, primitive⟩
  Error.ofInvalid (type.facets.checkAtom value)
  Error.ofInvalid (type.facets.checkEnumeration (.atomic value))
  return value

/-- Reads a text as a list. The number of words is tested before any word is
read. -/
def readList (limits : Limits) (type : SimpleType) (item : Handle)
    (readItem : String → Except Error TypedValue) (text : String) : Except Error ListValue := do
  let pieces := words (normalizeText type.facets.whiteSpace text).toList
  Error.ofLimit (limits.checkListItems pieces.length)
  Error.ofInvalid (type.facets.checkLength pieces.length)
  let values ← pieces.mapM (fun piece => readItem (String.ofList piece))
  let value : ListValue := ⟨item, values.flatMap TypedValue.atoms⟩
  Error.ofInvalid (type.facets.checkEnumeration (.list value))
  return value

/-- The value under the first member that accepts. Members that find the text
invalid are passed over. -/
def firstAccepting? (readMember : Handle → Except Error TypedValue) :
    List Handle → Except Error (Option TypedValue)
  | [] => .ok none
  | member :: rest =>
    match readMember member with
    | .ok value => .ok (some value)
    | .error (.invalid _) => firstAccepting? readMember rest
    | .error other => .error other

/-- Reads a text as a value of a union. The enumeration of the union is tested
on the value of the first member that accepts, and no other member is asked
then. -/
def readUnion (type : SimpleType) (members : List Handle)
    (readMember : Handle → Except Error TypedValue) (text : String) : Except Error TypedValue := do
  match ← firstAccepting? readMember members with
  | some value =>
    Error.ofInvalid (type.facets.checkEnumeration value)
    return value
  | none => throw (.invalid (.union type.displayName text))

namespace Graph

/-! ## All simple types -/

/-- Reads a text as a value of a simple type. An item or a member stands before
the type that refers to it, so the handles go down. -/
def readValue (graph : Graph) (limits : Limits) (bindings? : Option Bindings) (handle : Handle)
    (text : String) : Except Error TypedValue :=
  match graph.requireSimpleType handle with
  | .error cause => .error (.misuse cause)
  | .ok type =>
    let readPart (part : Handle) (text : String) : Except Error TypedValue :=
      if part.index < handle.index then graph.readValue limits bindings? part text
      else .error (.misuse (.absentHandle part))
    match type.variety with
    | .atomic primitive => .atomic <$> readAtom limits bindings? handle type primitive text
    | .list item => .list <$> readList limits type item (readPart item) text
    | .union members => readUnion type members (fun member => readPart member text) text
termination_by handle.index

/-- Validates a text against a simple type. -/
def validate (graph : Graph) (limits : Limits) (bindings? : Option Bindings) (handle : Handle)
    (text : String) : Except Error TypedValue := do
  Error.ofLimit (limits.checkLexicalLength text.length)
  graph.readValue limits bindings? handle text

/-- Validates a text that is given in UTF-16 units. Units that stand for no
text fail whatever the type is. -/
def validateUnits (graph : Graph) (limits : Limits) (bindings? : Option Bindings)
    (handle : Handle) (units : List UInt16) : Except Error TypedValue := do
  let text ← Error.ofInvalid ((Units.decode units).mapError .surrogatePair)
  graph.validate limits bindings? handle (String.ofList text)

/-- Whether a text has a value under a simple type. -/
def isValid (graph : Graph) (limits : Limits) (bindings? : Option Bindings) (handle : Handle)
    (text : String) : Bool :=
  (graph.validate limits bindings? handle text).isOk

end Graph

end SimpleTypes
