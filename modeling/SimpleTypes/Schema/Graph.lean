import SimpleTypes.Schema.Component

/-!
# Schema graphs

A graph holds components in the order in which they were defined. A handle is a
place in this order, and a component refers only to components before it. So a
walk along references goes strictly down and ends.

A directory holds the named components of one sort in the order in which their
names first appeared. To register a name again changes its component, not its
place.
-/

namespace SimpleTypes

/-! ## Directories -/

/-- Named components in the order of their names. -/
structure Directory where
  entries : List (QName × Handle)
  deriving DecidableEq, Repr

namespace Directory

/-- The component of a name. -/
def find? (directory : Directory) (name : QName) : Option Handle := directory.entries.lookup name

/-- The names in the order in which they first appeared. -/
def names (directory : Directory) : List QName := directory.entries.map Prod.fst

/-- Gives a name to a component. -/
def register (directory : Directory) (name : QName) (handle : Handle) : Directory :=
  if (directory.find? name).isSome then
    ⟨directory.entries.map (fun entry => if entry.1 = name then (name, handle) else entry)⟩
  else ⟨directory.entries ++ [(name, handle)]⟩

end Directory

/-! ## Graphs -/

/-- The components of a schema and the directories of their names. -/
structure Graph where
  components : Array Component
  types : Directory
  attributes : Directory
  elements : Directory
  deriving DecidableEq, Repr

namespace Graph

/-- The graph without components. -/
def empty : Graph := ⟨#[], ⟨[]⟩, ⟨[]⟩, ⟨[]⟩⟩

/-- The number of components. -/
def size (graph : Graph) : Nat := graph.components.size

/-- The handle of the next component. The number of components is not cut to 32 bits: this is
the next handle as long as there are fewer than `2 ^ 32 - 1` components, and then it is not
the absent one. -/
def next (graph : Graph) : Handle := ⟨graph.size⟩

/-- Enters the name of a component, if it has one, into the directory of its
sort. Uses of attributes have no names. -/
def register (graph : Graph) (handle : Handle) : Component → Graph
  | .simpleType { name := some name, .. } =>
    { graph with types := graph.types.register name handle }
  | .complexType { name := some name, .. } =>
    { graph with types := graph.types.register name handle }
  | .attribute decl => { graph with attributes := graph.attributes.register decl.name handle }
  | .element decl => { graph with elements := graph.elements.register decl.name handle }
  | _ => graph

/-- Adds a component. Its handle is `graph.next`. -/
def add (graph : Graph) (component : Component) : Graph :=
  { graph with components := graph.components.push component }.register graph.next component

/-- The graph of the built-in types. -/
def builtins : Graph :=
  Builtin.all.foldl (fun graph type => graph.add (.simpleType type.simpleType)) empty

/-! ## Looking up components -/

/-- The component of a handle. -/
def component? (graph : Graph) (handle : Handle) : Option Component :=
  graph.components[handle.index]?

/-- The simple type of a handle. -/
def simpleType? (graph : Graph) (handle : Handle) : Option SimpleType :=
  match graph.component? handle with
  | some (.simpleType type) => some type
  | _ => none

/-- The complex type of a handle. -/
def complexType? (graph : Graph) (handle : Handle) : Option ComplexType :=
  match graph.component? handle with
  | some (.complexType type) => some type
  | _ => none

/-- The declared attribute of a handle. -/
def attribute? (graph : Graph) (handle : Handle) : Option AttributeDecl :=
  match graph.component? handle with
  | some (.attribute decl) => some decl
  | _ => none

/-- The use of an attribute of a handle. -/
def attributeUse? (graph : Graph) (handle : Handle) : Option AttributeUse :=
  match graph.component? handle with
  | some (.attributeUse attributeUse) => some attributeUse
  | _ => none

/-- The declared element of a handle. -/
def element? (graph : Graph) (handle : Handle) : Option ElementDecl :=
  match graph.component? handle with
  | some (.element decl) => some decl
  | _ => none

/-- The simple type of a handle, or why there is none. -/
def requireSimpleType (graph : Graph) (handle : Handle) : Except Misuse SimpleType :=
  match graph.component? handle with
  | some (.simpleType type) => .ok type
  | some _ => .error (.notASimpleType handle)
  | none => .error (.absentHandle handle)

/-! ## Relations -/

/-- Whether a simple type is `ancestor` or is derived from it. The walk along
the bases goes down the handles. -/
def derivesFrom (graph : Graph) (handle ancestor : Handle) : Bool :=
  match graph.simpleType? handle with
  | none => false
  | some type =>
    handle == ancestor ||
      match type.base with
      | none => false
      | some base => if base.index < handle.index then graph.derivesFrom base ancestor else false
termination_by handle.index

/-- The simple type between the tags of an element of a type. -/
def contentType? (graph : Graph) (type : Handle) : Option Handle :=
  match graph.component? type with
  | some (.simpleType _) => some type
  | some (.complexType { content := .simple content, .. }) => some content
  | _ => none

/-- The type of an attribute or of a use of one, and the declared value in
force: that of the use comes before that of the declaration. -/
def attributeTarget (graph : Graph) (handle : Handle) :
    Except Misuse (Handle × Option ValueConstraint) :=
  match graph.component? handle with
  | some (.attribute decl) => .ok (decl.type, decl.constraint)
  | some (.attributeUse attributeUse) =>
    match graph.attribute? attributeUse.decl with
    | some decl => .ok (decl.type, attributeUse.constraint.or decl.constraint)
    | none => .error (.notAnAttribute handle)
  | some _ => .error (.notAnAttribute handle)
  | none => .error (.absentHandle handle)

/-- The simple type of the content of an element, and its declared value. -/
def elementTarget (graph : Graph) (handle : Handle) :
    Except Misuse (Handle × Option ValueConstraint) :=
  match graph.component? handle with
  | some (.element decl) =>
    match graph.contentType? decl.type with
    | some type => .ok (type, decl.constraint)
    | none => .error (.notSimpleContent handle)
  | some _ => .error (.notAnElement handle)
  | none => .error (.absentHandle handle)

end Graph

end SimpleTypes
