import SimpleTypes.Validation.Simple

/-!
# Validating against declarations

A text is validated against the simple type of an attribute or an element. If
the declaration fixes the value, the value of the text must be the fixed one.
Values are compared, not texts. Where there is no text, the declared value
stands in for it.
-/

namespace SimpleTypes

namespace Graph

/-- Tests a value against a declared one. -/
def checkFixed (site : Site) (constraint? : Option ValueConstraint) (value : TypedValue) :
    Except Invalid Unit :=
  match constraint? with
  | some ⟨.fixed, _, required⟩ =>
    if value.valueEq required then .ok () else .error (.fixed site required value)
  | _ => .ok ()

/-- Validates a text, or its absence, against a type and a declared value. -/
def validateDeclared (graph : Graph) (limits : Limits) (bindings? : Option Bindings) (site : Site)
    (handle type : Handle) (constraint? : Option ValueConstraint) (text? : Option String) :
    Except Error TypedValue :=
  match text? with
  | none =>
    match constraint? with
    | some constraint => .ok constraint.value
    | none => .error (.misuse (.missingValue handle))
  | some text => do
    let value ← graph.validate limits bindings? type text
    Error.ofInvalid (checkFixed site constraint? value)
    return value

/-- Validates the value of an attribute or of a use of one. -/
def validateAttribute (graph : Graph) (limits : Limits) (bindings? : Option Bindings)
    (handle : Handle) (text? : Option String) : Except Error TypedValue := do
  let (type, constraint?) ← Error.ofMisuse (graph.attributeTarget handle)
  graph.validateDeclared limits bindings? .attribute handle type constraint? text?

/-- Validates the simple content of an element. -/
def validateElement (graph : Graph) (limits : Limits) (bindings? : Option Bindings)
    (handle : Handle) (text? : Option String) : Except Error TypedValue := do
  let (type, constraint?) ← Error.ofMisuse (graph.elementTarget handle)
  graph.validateDeclared limits bindings? .element handle type constraint? text?

end Graph

end SimpleTypes
