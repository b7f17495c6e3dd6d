import SimpleTypes.Schema.Definition
import SimpleTypes.Validation.Simple

/-!
# Builders

A builder holds a graph under construction and the namespace bindings in which
the next definitions are read. It starts with the built-in types.

`Builder.component` turns a definition into a component or finds its fault. The
values that a definition states are read at once, against the types that are
already there, so a component in the graph can always be used.
`Builder.define` adds the component, and `Builder.run` takes a list of steps. A
step that fails leaves the builder as it was.
-/

namespace SimpleTypes

/-- A graph under construction, and the bindings for the next definitions. -/
structure Builder where
  graph : Graph
  bindings : Bindings
  deriving DecidableEq, Repr

namespace Builder

/-- A builder with the built-in types and without bindings. -/
def start : Builder := ⟨Graph.builtins, Bindings.empty⟩

/-- Fails with a fault in the definition of a named component. -/
def refuse {α : Type} (component : String) (fault : DefinitionFault) : Except Error α :=
  .error (.definition ⟨fault, some component⟩)

/-- Fails if there is a fault. -/
def refuseIf (component : String) : Option DefinitionFault → Except Error Unit
  | some fault => refuse component fault
  | none => .ok ()

/-- Reads a text that a definition states as a value of a type. An invalid text
is a fault of the definition. -/
def readStated (builder : Builder) (component : String) (role : ValueRole) (type : Handle)
    (text : String) : Except Error TypedValue :=
  match builder.graph.readValue .standard (some builder.bindings) type text with
  | .error (.invalid cause) => refuse component (.invalidValue role text cause)
  | result => result

/-! ## Restrictions -/

/-- A stated white space mode that is weaker than the inherited one. -/
def weakening? (inherited stated : Option WhiteSpace) : Option DefinitionFault :=
  match inherited, stated with
  | some old, some new =>
    if new.strength < old.strength then some (.whiteSpaceWeakened new) else none
  | _, _ => none

/-- The inherited facets with the stated modes and numbers in their place. -/
def restrictNumbers (facets : FacetSet) (restriction : Restriction) : FacetSet :=
  { facets with
    whiteSpace := restriction.whiteSpace.or facets.whiteSpace
    length := restriction.length.or facets.length
    minLength := restriction.minLength.or facets.minLength
    maxLength := restriction.maxLength.or facets.maxLength
    totalDigits := restriction.totalDigits.or facets.totalDigits
    fractionDigits := restriction.fractionDigits.or facets.fractionDigits }

/-- Reads a stated bound against the base and puts it in place. -/
def addBound (builder : Builder) (component : String) (base : Handle) (facets : FacetSet)
    (range : RangeKind × String) : Except Error FacetSet := do
  match ← builder.readStated component (.bound range.1) base range.2 with
  | .atomic bound => return facets.setBound range.1 bound
  | .list _ => refuse component (.boundOfList range.1)

/-- Reads the stated enumeration against the base. It replaces an inherited
one. -/
def addEnumeration (builder : Builder) (component : String) (base : Handle) (facets : FacetSet)
    (texts : List String) : Except Error FacetSet :=
  if texts.isEmpty then return facets
  else do
    let values ← texts.mapM (builder.readStated component .enumeration base)
    return { facets with enumeration := some values }

/-- The facets of a type derived from `base`. -/
def restrictFacets (builder : Builder) (component : String) (handle : Handle) (base : SimpleType)
    (restriction : Restriction) : Except Error FacetSet := do
  refuseIf component
    ((restriction.stated.find? (fun facet => facet ∉ base.variety.admittedFacets)).map
      (.facetNotAdmitted · base.displayName))
  refuseIf component (weakening? base.facets.whiteSpace restriction.whiteSpace)
  let facets := restrictNumbers base.facets restriction
  refuseIf component facets.contradiction?
  let facets ← restriction.ranges.foldlM (builder.addBound component handle) facets
  let facets ← builder.addEnumeration component handle facets restriction.enumeration
  return { facets with patterns := facets.patterns ++ restriction.patterns }

/-- The type derived from a base by restriction. It keeps the variety and the
lexical rule of the base. -/
def restrictionType (builder : Builder) (handle : Handle) (restriction : Restriction) :
    Except Error SimpleType := do
  let component := nameText restriction.name
  match builder.graph.simpleType? handle with
  | none => refuse component (.baseNotSimple handle)
  | some base =>
    let facets ← builder.restrictFacets component handle base restriction
    return ⟨restriction.name, some handle, base.variety, none, base.rule, facets⟩

/-! ## Lists and unions -/

/-- Whether a list stands in a type, as the type itself or as a member. -/
def containsList (graph : Graph) (handle : Handle) : Bool :=
  match graph.simpleType? handle with
  | some { variety := .list _, .. } => true
  | some { variety := .union members, .. } =>
    members.any (fun member =>
      if member.index < handle.index then containsList graph member else false)
  | _ => false
termination_by handle.index

/-- The type of lists of items. -/
def listType (builder : Builder) (name : Option QName) (item : Handle) :
    Except Error SimpleType :=
  if (builder.graph.simpleType? item).isNone then refuse (nameText name) (.itemNotSimple item)
  else if containsList builder.graph item then refuse (nameText name) .itemIsList
  else return {
    name := name, base := some Builtin.anySimpleType.handle, variety := .list item, builtin := none,
    rule := .plain, facets := { whiteSpace := some .collapse } }

/-- The union of member types. -/
def unionType (builder : Builder) (name : Option QName) (members : List Handle) :
    Except Error SimpleType :=
  if members.isEmpty then refuse (nameText name) .noMembers
  else match members.find? (fun member => (builder.graph.simpleType? member).isNone) with
    | some member => refuse (nameText name) (.memberNotSimple member)
    | none => return {
      name := name, base := some Builtin.anySimpleType.handle, variety := .union members,
      builtin := none, rule := .plain, facets := {} }

/-! ## Complex types and declarations -/

/-- A complex type. Simple content must have a simple type. -/
def complexType (builder : Builder) (name : Option QName) (content : Content) :
    Except Error ComplexType :=
  match content with
  | .simple type =>
    if (builder.graph.simpleType? type).isSome then return ⟨name, content⟩
    else refuse (nameText name) .contentNotSimple
  | _ => return ⟨name, content⟩

/-- Reads a value to be declared. -/
def constraintOf (builder : Builder) (component : String) (type : Handle)
    (value? : Option DeclaredValue) : Except Error (Option ValueConstraint) :=
  match value? with
  | some declared => do
    let value ← builder.readStated component declared.kind.role type declared.text
    return some ⟨declared.kind, declared.text, value⟩
  | none => return none

/-- The declaration of an attribute of a simple type. -/
def attributeDecl (builder : Builder) (name : QName) (type : Handle)
    (value? : Option DeclaredValue) : Except Error AttributeDecl :=
  if (builder.graph.simpleType? type).isNone then
    refuse name.display (.attributeTypeNotSimple type)
  else do
    let constraint? ← builder.constraintOf name.display type value?
    return ⟨name, type, constraint?⟩

/-- The use of a declared attribute. Its own value is of the declared type. -/
def attributeUse (builder : Builder) (handle : Handle) (required : Bool)
    (value? : Option DeclaredValue) : Except Error AttributeUse :=
  match builder.graph.attribute? handle with
  | none => .error (.definition ⟨.notAnAttribute handle, none⟩)
  | some decl => do
    let constraint? ← builder.constraintOf decl.name.display decl.type value?
    return ⟨handle, required, constraint?⟩

/-- Whether a handle addresses a type. -/
def isType (graph : Graph) (handle : Handle) : Bool :=
  (graph.simpleType? handle).isSome || (graph.complexType? handle).isSome

/-- The declaration of an element. A value needs simple content. -/
def elementDecl (builder : Builder) (name : QName) (type : Handle)
    (value? : Option DeclaredValue) : Except Error ElementDecl :=
  if !isType builder.graph type then refuse name.display (.elementTypeNotAType type)
  else match builder.graph.contentType? type with
    | some content => do
      let constraint? ← builder.constraintOf name.display content value?
      return ⟨name, type, constraint?⟩
    | none =>
      if value?.isSome then refuse name.display .valueWithoutSimpleContent
      else return ⟨name, type, none⟩

/-! ## Steps -/

/-- The component that a definition asks for. -/
def component (builder : Builder) : Definition → Except Error Component
  | .restriction base restriction => .simpleType <$> builder.restrictionType base restriction
  | .list name item => .simpleType <$> builder.listType name item
  | .union name members => .simpleType <$> builder.unionType name members
  | .complexType name content => .complexType <$> builder.complexType name content
  | .attribute name type value? => .attribute <$> builder.attributeDecl name type value?
  | .attributeUse decl required value? =>
    .attributeUse <$> builder.attributeUse decl required value?
  | .element name type value? => .element <$> builder.elementDecl name type value?

/-- Adds the component that a definition asks for. Its handle is that of the
next component of the graph. -/
def define (builder : Builder) (definition : Definition) : Except Error Builder := do
  let component ← builder.component definition
  return { builder with graph := builder.graph.add component }

/-- One step of a construction. -/
inductive Step where
  | setBindings (bindings : Bindings)
  | define (definition : Definition)
  deriving DecidableEq, Repr

/-- Takes a step. -/
def step (builder : Builder) : Step → Builder
  | .setBindings bindings => { builder with bindings := bindings }
  | .define definition =>
    match builder.define definition with
    | .ok next => next
    | .error _ => builder

/-- Takes steps in order. -/
def run (builder : Builder) (steps : List Step) : Builder := steps.foldl step builder

end Builder

end SimpleTypes
