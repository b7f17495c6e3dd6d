import Mathlib.Logic.Relation
import SimpleTypes.Proofs.Validation.Varieties
import SimpleTypes.Schema.Builder

/-!
# References

What it means that the components of a graph refer to each other properly.

* `Handle.induction`: what goes from all handles before a handle to the handle
  holds of every handle.
* `Graph.ReachesMember` and `Graph.Reaches`: the types that stand in a type, as
  members only, or as members and items.
* `Graph.WellFormed`: every reference addresses a component of the required
  sort before the component that refers, and the facets of every simple type
  agree with each other and with its primitive type.
* `Graph.WellFormed.add`: a graph stays well-formed if the component that is
  added to it is admitted. Components that are there stay admitted.
-/

namespace SimpleTypes

/-! ## Induction along handles -/

/-- Parts stand before the whole, so what the parts hand on to the whole holds of
every handle. -/
@[elab_as_elim]
theorem Handle.induction {P : Handle → Prop}
    (whole : ∀ handle, (∀ part : Handle, part.index < handle.index → P part) → P handle)
    (handle : Handle) : P handle := by
  induction hn : handle.index using Nat.strongRecOn generalizing handle with
  | _ n ih => exact whole handle fun part hpart => ih part.index (hn ▸ hpart) part rfl

/-! ## Facets -/

/-- Whether the numbers of a facet set agree, and every place for a bound holds
one of its own kind and of the given primitive type. -/
structure FacetSet.IsConsistent (facets : FacetSet) (primitive? : Option Primitive) : Prop where
  lengths : ∀ least most, facets.minLength = some least → facets.maxLength = some most →
    least ≤ most
  digits : ∀ fraction total, facets.fractionDigits = some fraction →
    facets.totalDigits = some total → fraction ≤ total
  bounds : ∀ kind bound, facets.slot kind = some bound →
    bound.kind = kind ∧ primitive? = some bound.value.primitive

/-! ## Lists behind unions -/

/-- Whether a list stands in a type, as the type itself or as a member at any
depth. -/
inductive ReachesList (graph : Graph) : Handle → Prop
  | list {handle item : Handle} {type : SimpleType} :
      graph.simpleType? handle = some type → type.variety = .list item → ReachesList graph handle
  | union {handle member : Handle} {type : SimpleType} {members : List Handle} :
      graph.simpleType? handle = some type → type.variety = .union members → member ∈ members →
        ReachesList graph member → ReachesList graph handle

/-- The handle of the simple type of the content. Without one it is absent. -/
def ComplexType.contentHandle (type : ComplexType) : Handle :=
  match type.content with
  | .simple content => content
  | _ => .absent

namespace Graph

/-! ## Parts of types -/

/-- Whether a type is a union with a given member. -/
def HasMember (graph : Graph) (handle member : Handle) : Prop :=
  ∃ type members, graph.simpleType? handle = some type ∧ type.variety = .union members ∧
    member ∈ members

/-- Whether a type is a list of given items. -/
def HasItem (graph : Graph) (handle item : Handle) : Prop :=
  ∃ type, graph.simpleType? handle = some type ∧ type.variety = .list item

/-- Whether a type is another one or stands in it as a member at any depth. -/
def ReachesMember (graph : Graph) : Handle → Handle → Prop :=
  Relation.ReflTransGen graph.HasMember

/-- Whether a type is another one or stands in it as a member or an item at any
depth. -/
def Reaches (graph : Graph) : Handle → Handle → Prop :=
  Relation.ReflTransGen fun handle part => graph.HasMember handle part ∨ graph.HasItem handle part

/-! ## Well-formed graphs -/

/-- Whether a handle addresses a simple type that stands before another
component. -/
def IsSimpleBefore (graph : Graph) (part whole : Handle) : Prop :=
  part.index < whole.index ∧ (graph.simpleType? part).isSome = true

/-- Whether the parts of a variety stand before a handle. Unions have members,
and no list stands in the item type of a list. -/
def AdmitsVariety (graph : Graph) (handle : Handle) : Variety → Prop
  | .atomic _ => True
  | .list item => graph.IsSimpleBefore item handle ∧ ¬ ReachesList graph item
  | .union members => members ≠ [] ∧ ∀ member ∈ members, graph.IsSimpleBefore member handle

/-- What makes a simple type at a handle well-formed. Only the type of all
simple values has no base. -/
structure AdmitsSimple (graph : Graph) (handle : Handle) (type : SimpleType) : Prop where
  base_none : type.base = none → handle = Builtin.anySimpleType.handle
  base : ∀ base, type.base = some base → graph.IsSimpleBefore base handle
  variety : graph.AdmitsVariety handle type.variety
  facets : type.facets.IsConsistent type.primitive?

/-- Whether a component at a handle is well-formed. -/
def Admits (graph : Graph) (handle : Handle) : Component → Prop
  | .simpleType type => graph.AdmitsSimple handle type
  | .complexType type =>
    match type.content with
    | .simple _ => graph.IsSimpleBefore type.contentHandle handle
    | _ => type.contentHandle = Handle.absent
  | .attribute decl => graph.IsSimpleBefore decl.type handle
  | .attributeUse attributeUse =>
    attributeUse.decl.index < handle.index ∧ (graph.attribute? attributeUse.decl).isSome = true
  | .element decl => decl.type.index < handle.index ∧ Builder.isType graph decl.type = true

/-- Whether a graph has the built-in types in their places, and only well-formed
components. -/
structure WellFormed (graph : Graph) : Prop where
  builtins : ∀ type : Builtin, graph.simpleType? type.handle = some type.simpleType
  admits : ∀ handle component, graph.component? handle = some component →
    graph.Admits handle component

variable {graph later : Graph} {handle : Handle} {component : Component} {type : SimpleType}

/-! ## Look-ups -/

theorem simpleType?_eq_some :
    graph.simpleType? handle = some type ↔ graph.component? handle = some (.simpleType type) := by
  unfold simpleType?
  split <;> simp_all

theorem attribute?_eq_some {decl : AttributeDecl} :
    graph.attribute? handle = some decl ↔ graph.component? handle = some (.attribute decl) := by
  unfold attribute?
  split <;> simp_all

theorem not_reachesList_of_atomic {primitive : Primitive} (h : graph.simpleType? handle = some type)
    (hvariety : type.variety = .atomic primitive) : ¬ ReachesList graph handle := by
  rintro (⟨htype, hlist⟩ | ⟨htype, hunion, -, -⟩)
  · rw [h, Option.some.injEq] at htype
    rw [← htype, hvariety] at hlist
    cases hlist
  · rw [h, Option.some.injEq] at htype
    rw [← htype, hvariety] at hunion
    cases hunion

/-- A list that stands in a type as a member is found there. -/
theorem reachesList_of_reachesMember {whole item : Handle}
    (hreach : graph.ReachesMember handle whole)
    (htype : graph.simpleType? whole = some type) (hvariety : type.variety = .list item) :
    ReachesList graph handle := by
  induction hreach using Relation.ReflTransGen.head_induction_on with
  | refl => exact .list htype hvariety
  | head hmember _ ih =>
    obtain ⟨union, members, hunion, hmembers, hmem⟩ := hmember
    exact .union hunion hmembers hmem ih

/-- What stands in a type is the type itself or stands in one of its members. -/
theorem reachesMember_iff {part : Handle} (htype : graph.simpleType? handle = some type) :
    graph.ReachesMember handle part ↔ handle = part ∨
      ∃ members, type.variety = .union members ∧ ∃ member ∈ members,
        graph.ReachesMember member part := by
  rw [ReachesMember, Relation.ReflTransGen.cases_head_iff]
  refine or_congr_right ⟨?_, ?_⟩
  · rintro ⟨member, ⟨type', members, htype', hvariety, hmember⟩, hrest⟩
    obtain rfl : type = type' := Option.some.inj (htype.symm.trans htype')
    exact ⟨members, hvariety, member, hmember, hrest⟩
  · rintro ⟨members, hvariety, member, hmember, hrest⟩
    exact ⟨member, ⟨type, members, htype, hvariety, hmember⟩, hrest⟩

theorem ReachesMember.reaches {part : Handle} (h : graph.ReachesMember handle part) :
    graph.Reaches handle part :=
  Relation.ReflTransGen.mono (fun _ _ => Or.inl) _ _ h

theorem requireSimpleType_eq_ok :
    graph.requireSimpleType handle = .ok type ↔ graph.simpleType? handle = some type := by
  rw [simpleType?_eq_some, requireSimpleType]
  split <;> simp_all

theorem index_lt_of_component? (h : graph.component? handle = some component) :
    handle.index < graph.size :=
  (Array.getElem?_eq_some_iff.mp h).1

theorem index_lt_of_simpleType? (h : (graph.simpleType? handle).isSome = true) :
    handle.index < graph.size := by
  obtain ⟨type, htype⟩ := Option.isSome_iff_exists.mp h
  exact index_lt_of_component? (simpleType?_eq_some.mp htype)

theorem index_lt_of_attribute? {decl : AttributeDecl} (h : graph.attribute? handle = some decl) :
    handle.index < graph.size :=
  index_lt_of_component? (attribute?_eq_some.mp h)

theorem index_lt_of_isType (h : Builder.isType graph handle = true) :
    handle.index < graph.size := by
  simp only [Builder.isType, Bool.or_eq_true] at h
  rcases h with hsimple | hcomplex
  · exact index_lt_of_simpleType? hsimple
  · unfold complexType? at hcomplex
    split at hcomplex
    · exact index_lt_of_component? ‹_›
    · cases hcomplex

theorem components_register (graph : Graph) (handle : Handle) (component : Component) :
    (graph.register handle component).components = graph.components := by
  unfold register
  split <;> rfl

theorem component?_add (graph : Graph) (component : Component) (handle : Handle) :
    (graph.add component).component? handle =
      if handle.index = graph.size then some component else graph.component? handle := by
  rw [component?, add, components_register, Array.getElem?_push]
  rfl

/-! ## Growing graphs -/

/-- Whether a graph has all components of another one in their places. -/
def Extends (later graph : Graph) : Prop :=
  ∀ handle component, graph.component? handle = some component →
    later.component? handle = some component

theorem Extends.refl (graph : Graph) : graph.Extends graph := fun _ _ h => h

theorem Extends.trans {latest : Graph} (hlatest : latest.Extends later) (hlater : later.Extends graph) :
    latest.Extends graph :=
  fun handle component h => hlatest handle component (hlater handle component h)

theorem extends_add (graph : Graph) (component : Component) : (graph.add component).Extends graph := by
  intro handle old hold
  have := index_lt_of_component? hold
  rw [component?_add, if_neg (by omega)]
  exact hold

theorem Extends.simpleType? (hext : later.Extends graph) (h : graph.simpleType? handle = some type) :
    later.simpleType? handle = some type :=
  simpleType?_eq_some.mpr (hext _ _ (simpleType?_eq_some.mp h))

theorem Extends.isSimple (hext : later.Extends graph)
    (h : (graph.simpleType? handle).isSome = true) : (later.simpleType? handle).isSome = true := by
  obtain ⟨type, htype⟩ := Option.isSome_iff_exists.mp h
  exact Option.isSome_iff_exists.mpr ⟨type, hext.simpleType? htype⟩

theorem Extends.isSimpleBefore (hext : later.Extends graph) {part whole : Handle}
    (h : graph.IsSimpleBefore part whole) : later.IsSimpleBefore part whole :=
  ⟨h.1, hext.isSimple h.2⟩

/-- A simple type of the smaller graph is the same in the larger one. -/
theorem Extends.simpleType?_of_isSome (hext : later.Extends graph)
    (h : (graph.simpleType? handle).isSome = true) (hlater : later.simpleType? handle = some type) :
    graph.simpleType? handle = some type := by
  obtain ⟨type', htype'⟩ := Option.isSome_iff_exists.mp h
  have := hext.simpleType? htype'
  rw [hlater] at this
  rw [htype', ← this]

/-- A type that is there reaches no further after the graph has grown, since
its members are there too. -/
theorem WellFormed.reachesList_of_extends (wf : graph.WellFormed) (hext : later.Extends graph)
    (h : ReachesList later handle) (hsimple : (graph.simpleType? handle).isSome = true) :
    ReachesList graph handle := by
  induction h with
  | list htype hvariety => exact .list (hext.simpleType?_of_isSome hsimple htype) hvariety
  | @union handle member type members htype hvariety hmember _ ih =>
    -- The type is an old one, so its members are old ones as well.
    have hold := hext.simpleType?_of_isSome hsimple htype
    have hadmits : graph.AdmitsSimple handle type := wf.admits _ _ (simpleType?_eq_some.mp hold)
    have hparts := hadmits.variety
    rw [hvariety] at hparts
    exact .union hold hvariety hmember (ih (hparts.2 member hmember).2)

theorem WellFormed.admitsVariety_of_extends (wf : graph.WellFormed) (hext : later.Extends graph)
    {variety : Variety} (h : graph.AdmitsVariety handle variety) :
    later.AdmitsVariety handle variety := by
  cases variety with
  | atomic => exact trivial
  | list item =>
    exact ⟨hext.isSimpleBefore h.1, fun hreach => h.2 (wf.reachesList_of_extends hext hreach h.1.2)⟩
  | union members => exact ⟨h.1, fun member hmember => hext.isSimpleBefore (h.2 member hmember)⟩

theorem Extends.isType (hext : later.Extends graph) (h : Builder.isType graph handle = true) :
    Builder.isType later handle = true := by
  simp only [Builder.isType, Bool.or_eq_true] at h ⊢
  rcases h with hsimple | hcomplex
  · exact .inl (hext.isSimple hsimple)
  · right
    unfold complexType? at hcomplex ⊢
    split at hcomplex
    · rw [hext _ _ ‹_›]
      rfl
    · cases hcomplex

theorem Extends.attribute_eq_some (hext : later.Extends graph) {decl : AttributeDecl}
    (h : graph.attribute? handle = some decl) : later.attribute? handle = some decl :=
  attribute?_eq_some.mpr (hext _ _ (attribute?_eq_some.mp h))

theorem Extends.isAttribute (hext : later.Extends graph)
    (h : (graph.attribute? handle).isSome = true) : (later.attribute? handle).isSome = true := by
  obtain ⟨decl, hdecl⟩ := Option.isSome_iff_exists.mp h
  exact Option.isSome_of_eq_some (hext.attribute_eq_some hdecl)

/-- An admitted component stays so after the graph has grown. -/
theorem WellFormed.admits_of_extends (wf : graph.WellFormed) (hext : later.Extends graph)
    (h : graph.Admits handle component) : later.Admits handle component := by
  match component, h with
  | .simpleType type, h =>
    exact ⟨h.base_none, fun base hbase => hext.isSimpleBefore (h.base base hbase),
      wf.admitsVariety_of_extends hext h.variety, h.facets⟩
  | .complexType type, h =>
    simp only [Admits] at h ⊢
    cases hcontent : type.content with
    | simple content =>
      simp only [hcontent] at h ⊢
      exact hext.isSimpleBefore h
    | _ =>
      simp only [hcontent] at h ⊢
      exact h
  | .attribute decl, h => exact hext.isSimpleBefore h
  | .attributeUse attributeUse, h => exact ⟨h.1, hext.isAttribute h.2⟩
  | .element decl, h => exact ⟨h.1, hext.isType h.2⟩

theorem IsSimpleBefore.mono {part whole whole' : Handle} (h : graph.IsSimpleBefore part whole)
    (hle : whole.index ≤ whole'.index) : graph.IsSimpleBefore part whole' :=
  ⟨Nat.lt_of_lt_of_le h.1 hle, h.2⟩

theorem AdmitsVariety.mono {variety : Variety} {handle' : Handle}
    (h : graph.AdmitsVariety handle variety) (hle : handle.index ≤ handle'.index) :
    graph.AdmitsVariety handle' variety := by
  cases variety with
  | atomic => exact trivial
  | list item => exact ⟨h.1.mono hle, h.2⟩
  | union members => exact ⟨h.1, fun member hmember => (h.2 member hmember).mono hle⟩

/-- A well-formed graph stays so if the component that is added is admitted. -/
theorem WellFormed.add (wf : graph.WellFormed) (h : graph.Admits graph.next component) :
    (graph.add component).WellFormed := by
  have hext := extends_add graph component
  refine ⟨fun type => hext.simpleType? (wf.builtins type), ?_⟩
  intro handle stored hstored
  rw [component?_add] at hstored
  split at hstored
  case isTrue hindex =>
    obtain rfl : component = stored := by simpa using hstored
    obtain rfl : handle = graph.next := by
      cases handle
      simp only at hindex
      rw [hindex]
      rfl
    exact wf.admits_of_extends hext h
  case isFalse => exact wf.admits_of_extends hext (wf.admits _ _ hstored)

end Graph

end SimpleTypes
