import SimpleTypes.Proofs.Schema.Runs

/-!
# Where simple types come from

Every simple type of a run is a built-in type, or a step has made it by restriction, as a
list or as a union.

* `IsRestrictionOf`: what a restriction takes over from its base, and what the step that
  made it has checked.
* `SimpleTypeOrigin`: the four origins. Every simple type of a run has one
  (`simpleType_origin`).
* `simpleType_induction`: what built-in types, lists and unions have, and restrictions
  take over from their base, every simple type of the run has.
-/

namespace SimpleTypes

/-- Whether a type is a list that nothing restricts. -/
structure SimpleType.IsPlainList (type : SimpleType) : Prop where
  base : type.base = some Builtin.anySimpleType.handle
  variety : ∃ item, type.variety = .list item
  rule : type.rule = .plain
  facets : type.facets = { whiteSpace := some .collapse }

/-- Whether a type is a union that nothing restricts. -/
structure SimpleType.IsPlainUnion (type : SimpleType) : Prop where
  base : type.base = some Builtin.anySimpleType.handle
  variety : ∃ members, type.variety = .union members
  rule : type.rule = .plain
  facets : type.facets = {}

namespace Builder

variable {steps : List Step} {builder : Builder} {handle baseHandle : Handle}
  {base type : SimpleType} {restriction : Restriction}

/-! ## Restrictions of a run -/

/-- Whether a step of a run makes a type from a base by restriction. The builder is the one
that the step starts from. -/
structure IsRestrictionOf (steps : List Step) (builder : Builder) (baseHandle : Handle)
    (base : SimpleType) (restriction : Restriction) (type : SimpleType) : Prop where
  makes : Makes steps builder (.restriction baseHandle restriction) (.simpleType type)
  simpleType?_base : builder.graph.simpleType? baseHandle = some base
  base_eq : type.base = some baseHandle
  variety : type.variety = base.variety
  rule : type.rule = base.rule
  facets : builder.restrictFacets (nameText restriction.name) baseHandle base restriction
    = .ok type.facets

theorem Makes.exists_isRestrictionOf
    (h : Makes steps builder (.restriction baseHandle restriction) (.simpleType type)) :
    ∃ base, IsRestrictionOf steps builder baseHandle base restriction type := by
  obtain ⟨made, hmade, heq⟩ := map_eq_ok.mp h.component_eq_ok
  obtain rfl : made = type := by simpa using heq
  obtain ⟨base, facets, hbase, hfacets, rfl⟩ := restrictionType_eq_ok hmade
  exact ⟨base, h, hbase, rfl, rfl, rfl, hfacets⟩

namespace IsRestrictionOf

theorem wellFormed (h : IsRestrictionOf steps builder baseHandle base restriction type) :
    builder.graph.WellFormed :=
  h.makes.wellFormed

theorem simpleType?_next (h : IsRestrictionOf steps builder baseHandle base restriction type) :
    (start.run steps).graph.simpleType? builder.graph.next = some type :=
  Graph.simpleType?_eq_some.mpr h.makes.component?_next

/-- The base stays in its place until the end of the run. -/
theorem simpleType?_base_run
    (h : IsRestrictionOf steps builder baseHandle base restriction type) :
    (start.run steps).graph.simpleType? baseHandle = some base :=
  h.makes.extends.simpleType? h.simpleType?_base

theorem index_lt (h : IsRestrictionOf steps builder baseHandle base restriction type) :
    baseHandle.index < builder.graph.next.index :=
  Graph.index_lt_of_simpleType? (Option.isSome_of_eq_some h.simpleType?_base)

theorem whiteSpace (h : IsRestrictionOf steps builder baseHandle base restriction type) :
    type.facets.whiteSpace = restriction.whiteSpace.or base.facets.whiteSpace :=
  (congrArg FacetSet.whiteSpace (numbers_restrictFacets h.facets) :)

/-- A stated bound has passed the facets of the base. -/
theorem checkAtom_of_states (h : IsRestrictionOf steps builder baseHandle base restriction type)
    {bound : Bound} (hstates : builder.States baseHandle restriction bound) :
    base.facets.checkAtom bound.value = .ok () :=
  hstates.checkAtom h.wellFormed h.simpleType?_base h.facets

end IsRestrictionOf

/-! ## Origins -/

/-- Where a simple type at a handle of a run comes from. -/
inductive SimpleTypeOrigin (steps : List Step) : Handle → SimpleType → Prop
  | builtin (source : Builtin) : SimpleTypeOrigin steps source.handle source.simpleType
  | restriction {builder : Builder} {baseHandle : Handle} {base : SimpleType}
      {restriction : Restriction} {type : SimpleType} :
      IsRestrictionOf steps builder baseHandle base restriction type →
        SimpleTypeOrigin steps builder.graph.next type
  | list {handle : Handle} {type : SimpleType} : type.IsPlainList → SimpleTypeOrigin steps handle type
  | union {handle : Handle} {type : SimpleType} : type.IsPlainUnion → SimpleTypeOrigin steps handle type

theorem Makes.simpleType_origin {definition : Definition}
    (h : Makes steps builder definition (.simpleType type)) :
    SimpleTypeOrigin steps builder.graph.next type := by
  match definition, h with
  | .restriction handle restriction, h =>
    obtain ⟨base, hrestriction⟩ := h.exists_isRestrictionOf
    exact .restriction hrestriction
  | .list name item, h =>
    obtain ⟨list, hlist, ⟨⟩⟩ := map_eq_ok.mp h.component_eq_ok
    obtain ⟨-, -, rfl⟩ := listType_eq_ok hlist
    exact .list ⟨rfl, ⟨item, rfl⟩, rfl, rfl⟩
  | .union name members, h =>
    obtain ⟨union, hunion, ⟨⟩⟩ := map_eq_ok.mp h.component_eq_ok
    obtain ⟨-, -, rfl⟩ := unionType_eq_ok.mp hunion
    exact .union ⟨rfl, ⟨members, rfl⟩, rfl, rfl⟩
  | .complexType _ _, h | .attribute _ _ _, h | .attributeUse _ _ _, h | .element _ _ _, h =>
    obtain ⟨_, -, ⟨⟩⟩ := map_eq_ok.mp h.component_eq_ok

/-- Every simple type of a run has an origin. -/
theorem simpleType_origin (h : (start.run steps).graph.simpleType? handle = some type) :
    SimpleTypeOrigin steps handle type := by
  have hcomponent := Graph.simpleType?_eq_some.mp h
  by_cases hnew : Graph.builtins.size ≤ handle.index
  · obtain ⟨builder, definition, hmakes, rfl⟩ := exists_makes hcomponent hnew
    exact hmakes.simpleType_origin
  · -- The built-in types keep their places in every run.
    obtain ⟨source, hsource⟩ : ∃ source, Graph.builtins.component? handle = some source :=
      ⟨_, Array.getElem?_eq_getElem (Nat.lt_of_not_le hnew)⟩
    have hsame := run_extends start steps handle source hsource
    rw [hcomponent, Option.some.injEq] at hsame
    rw [← hsame, Graph.builtins_component?] at hsource
    obtain ⟨builtin, hbuiltin, heq⟩ := Option.map_eq_some_iff.mp hsource
    obtain rfl : builtin.simpleType = type := by simpa using heq
    obtain rfl : builtin.handle = handle := Builtin.handle_eq_of_all_getElem? hbuiltin
    exact .builtin builtin

/-- What built-in types, lists and unions have, and restrictions take over from their base,
every simple type of a run has. The induction goes along the handles. -/
theorem simpleType_induction {P : Handle → SimpleType → Prop}
    (builtin : ∀ source : Builtin, P source.handle source.simpleType)
    (restriction : ∀ {builder : Builder} {baseHandle : Handle} {base : SimpleType}
      {restriction : Restriction} {type : SimpleType},
      IsRestrictionOf steps builder baseHandle base restriction type → P baseHandle base →
        P builder.graph.next type)
    (list : ∀ {handle : Handle} {type : SimpleType}, type.IsPlainList → P handle type)
    (union : ∀ {handle : Handle} {type : SimpleType}, type.IsPlainUnion → P handle type)
    (h : (start.run steps).graph.simpleType? handle = some type) : P handle type := by
  induction handle using Handle.induction generalizing type with
  | whole handle ih =>
    cases simpleType_origin h with
    | builtin source => exact builtin source
    | restriction hrestriction =>
      exact restriction hrestriction (ih _ hrestriction.index_lt hrestriction.simpleType?_base_run)
    | list hlist => exact list hlist
    | union hunion => exact union hunion

end Builder

end SimpleTypes
