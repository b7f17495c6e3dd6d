import SimpleTypes.Proofs.Facet.Checks
import SimpleTypes.Proofs.Schema.Walks

/-!
# Definitions

What a definition that succeeds has checked, and what it makes.

* `restrictFacets_eq_ok` and `restrictionType_eq_ok`: the parts of a restriction.
* `listType_eq_ok` and `unionType_eq_ok`: the parts of a list and of a union.
* `attributeDecl_eq_ok`, `attributeUse_eq_ok` and `elementDecl_eq_ok`: the parts of
  a declaration.
* `component_admitted`: a well-formed graph admits every component that is made
  from a definition.
-/

namespace SimpleTypes

/-! ## Facet sets -/

namespace FacetSet

variable {facets : FacetSet} {primitive : Primitive} {primitive? : Option Primitive}

/-- Facets without a contradiction are consistent if their bounds are. -/
theorem isConsistent_of_contradiction? (hfree : facets.contradiction? = none)
    (hbounds : ∀ kind bound, facets.slot kind = some bound →
      bound.kind = kind ∧ primitive? = some bound.value.primitive) :
    facets.IsConsistent primitive? := by
  simp only [contradiction?, Option.or_eq_none_iff] at hfree
  refine ⟨?_, ?_, hbounds⟩
  · intro least most hleast hmost
    have := hfree.1
    simpa [lengthsFault?, hleast, hmost] using this
  · intro fraction total hfraction htotal
    have := hfree.2
    simpa [digitsFault?, hfraction, htotal] using this

end FacetSet

/-- Only types with an order admit bounds. -/
theorem Variety.atomic_of_admits_range {variety : Variety} {kind : RangeKind}
    (h : Facet.range kind ∈ variety.admittedFacets) : ∃ primitive, variety = .atomic primitive := by
  cases variety with
  | atomic primitive => exact ⟨primitive, rfl⟩
  | list => simp [admittedFacets, Facet.ofLists] at h
  | union => simp [admittedFacets, Facet.ofUnions] at h

namespace Builder

variable {builder : Builder} {component : String} {handle : Handle} {base type : SimpleType}
  {facets facets' : FacetSet} {restriction : Restriction}

/-! ## Stated values -/

theorem refuseIf_eq_ok {fault? : Option DefinitionFault} {done : Unit} :
    refuseIf component fault? = .ok done ↔ fault? = none := by
  cases fault? <;> simp [refuseIf, refuse]

theorem readStated_eq_ok {role : ValueRole} {text : String} {value : TypedValue} :
    builder.readStated component role handle text = .ok value ↔
      builder.graph.readValue .standard (some builder.bindings) handle text = .ok value := by
  unfold readStated
  split
  · simp_all [refuse]
  · rfl

theorem addBound_eq_ok {range : RangeKind × String} :
    builder.addBound component handle facets range = .ok facets' ↔
      ∃ atom, builder.graph.readValue .standard (some builder.bindings) handle range.2
          = .ok (.atomic atom) ∧ facets' = facets.setBound range.1 atom := by
  simp only [addBound, bind_eq_ok, readStated_eq_ok]
  constructor
  · rintro ⟨value, hvalue, h⟩
    cases value with
    | atomic atom => exact ⟨atom, hvalue, by simpa [pure, Except.pure] using h.symm⟩
    | list => cases h
  · rintro ⟨atom, hatom, rfl⟩
    exact ⟨_, hatom, rfl⟩

theorem addEnumeration_eq_ok {texts : List String} :
    builder.addEnumeration component handle facets texts = .ok facets' ↔
      (texts = [] ∧ facets' = facets) ∨
      (texts ≠ [] ∧ ∃ values, List.Forall₂ (fun text value =>
          builder.graph.readValue .standard (some builder.bindings) handle text = .ok value)
            texts values ∧
        facets' = { facets with enumeration := some values }) := by
  unfold addEnumeration
  cases texts with
  | nil => simp [pure, Except.pure, eq_comm]
  | cons text rest =>
    simp only [List.isEmpty_cons, Bool.false_eq_true, if_false, bind_eq_ok, mapM_eq_ok,
      readStated_eq_ok, pure, Except.pure, Except.ok.injEq, reduceCtorEq, false_and, false_or,
      ne_eq, not_false_eq_true, true_and]
    exact exists_congr fun values => and_congr_right fun _ => eq_comm

/-! ## Restrictions -/

/-- What the facets of a restriction have gone through. -/
theorem restrictFacets_eq_ok
    (h : builder.restrictFacets component handle base restriction = .ok facets) :
    (∀ facet ∈ restriction.stated, facet ∈ base.variety.admittedFacets) ∧
      weakening? base.facets.whiteSpace restriction.whiteSpace = none ∧
      (restrictNumbers base.facets restriction).contradiction? = none ∧
      ∃ bounded enumerated,
        restriction.ranges.foldlM (builder.addBound component handle)
          (restrictNumbers base.facets restriction) = .ok bounded ∧
        builder.addEnumeration component handle bounded restriction.enumeration = .ok enumerated ∧
        facets = { enumerated with patterns := enumerated.patterns ++ restriction.patterns } := by
  simp only [restrictFacets, bind_eq_ok, refuseIf_eq_ok, Option.map_eq_none_iff, List.find?_eq_none,
    decide_eq_true_eq, not_not, pure, Except.pure, Except.ok.injEq] at h
  obtain ⟨_, hadmitted, _, hweak, _, hfree, bounded, hbounded, enumerated, henumerated, rfl⟩ := h
  exact ⟨hadmitted, hweak, hfree, bounded, enumerated, hbounded, henumerated, rfl⟩

/-- A restriction keeps all of its base but the name and the facets. -/
theorem restrictionType_eq_ok (h : builder.restrictionType handle restriction = .ok type) :
    ∃ base facets, builder.graph.simpleType? handle = some base ∧
      builder.restrictFacets (nameText restriction.name) handle base restriction = .ok facets ∧
      type = ⟨restriction.name, some handle, base.variety, none, base.rule, facets⟩ := by
  unfold restrictionType at h
  cases hbase : builder.graph.simpleType? handle with
  | none =>
    rw [hbase] at h
    cases h
  | some base =>
    simp only [hbase, bind_eq_ok, pure, Except.pure, Except.ok.injEq] at h
    obtain ⟨facets, hfacets, rfl⟩ := h
    exact ⟨base, facets, rfl, hfacets, rfl⟩

theorem mem_stated_of_mem_ranges {range : RangeKind × String} (h : range ∈ restriction.ranges) :
    Facet.range range.1 ∈ restriction.stated := by
  simp only [Restriction.stated, List.mem_append, List.mem_map]
  exact .inl (.inl (.inr ⟨range, h, rfl⟩))

/-- Whether a restriction of a base states a bound. Its text is read under the base. -/
def States (builder : Builder) (handle : Handle) (restriction : Restriction) (bound : Bound) :
    Prop :=
  ∃ text, (bound.kind, text) ∈ restriction.ranges ∧
    builder.graph.readValue .standard (some builder.bindings) handle text
      = .ok (.atomic bound.value)

/-- The stated bounds take their places, and all else stays. -/
theorem addBounds_eq_ok
    (h : restriction.ranges.foldlM (builder.addBound component handle) facets = .ok facets') :
    facets'.numbers = facets.numbers ∧ facets'.enumeration = facets.enumeration ∧
      ∀ kind, facets'.slot kind = facets.slot kind ∨
        ∃ bound, facets'.slot kind = some bound ∧ bound.kind = kind ∧
          builder.States handle restriction bound := by
  refine foldlM_induction (P := fun facets' => facets'.numbers = facets.numbers ∧
    facets'.enumeration = facets.enumeration ∧ ∀ kind, facets'.slot kind = facets.slot kind ∨
      ∃ bound, facets'.slot kind = some bound ∧ bound.kind = kind ∧
        builder.States handle restriction bound) ?_ ⟨rfl, rfl, fun _ => .inl rfl⟩ h
  intro current range next hrange hcurrent hadd
  obtain ⟨hnumbers, henum, hslots⟩ := hcurrent
  obtain ⟨atom, hread, rfl⟩ := addBound_eq_ok.mp hadd
  refine ⟨(FacetSet.numbers_setBound _ _ _).trans hnumbers,
    (FacetSet.enumeration_setBound _ _ _).trans henum, fun kind => ?_⟩
  rw [FacetSet.slot_setBound]
  split
  case isTrue hkind => exact .inr ⟨⟨range.1, atom⟩, rfl, hkind.symm, range.2, hrange, hread⟩
  case isFalse => exact hslots kind

/-- A restriction states the modes and numbers of its facets or inherits them. -/
theorem numbers_restrictFacets
    (h : builder.restrictFacets component handle base restriction = .ok facets) :
    facets.numbers = (restrictNumbers base.facets restriction).numbers := by
  obtain ⟨-, -, -, bounded, enumerated, hbounded, henumerated, rfl⟩ := restrictFacets_eq_ok h
  rcases addEnumeration_eq_ok.mp henumerated with ⟨-, rfl⟩ | ⟨-, values, -, rfl⟩
  · exact (addBounds_eq_ok hbounded).1
  · exact (addBounds_eq_ok hbounded).1

/-- A restriction states the bounds of its facets or inherits them. -/
theorem slot_restrictFacets
    (h : builder.restrictFacets component handle base restriction = .ok facets) (kind : RangeKind) :
    facets.slot kind = base.facets.slot kind ∨
      ∃ bound, facets.slot kind = some bound ∧ bound.kind = kind ∧
        builder.States handle restriction bound := by
  obtain ⟨-, -, -, bounded, enumerated, hbounded, henumerated, rfl⟩ := restrictFacets_eq_ok h
  have hslot := (addBounds_eq_ok hbounded).2.2 kind
  rcases addEnumeration_eq_ok.mp henumerated with ⟨-, rfl⟩ | ⟨-, values, -, rfl⟩
  · cases kind <;> exact hslot
  · cases kind <;> exact hslot

/-- A restriction states the enumeration of its facets or inherits it. -/
theorem enumeration_restrictFacets
    (h : builder.restrictFacets component handle base restriction = .ok facets) :
    facets.enumeration = base.facets.enumeration ∨
      ∃ values, facets.enumeration = some values ∧
        List.Forall₂ (fun text value =>
          builder.graph.readValue .standard (some builder.bindings) handle text = .ok value)
            restriction.enumeration values := by
  obtain ⟨-, -, -, bounded, enumerated, hbounded, henumerated, rfl⟩ := restrictFacets_eq_ok h
  rcases addEnumeration_eq_ok.mp henumerated with ⟨-, rfl⟩ | ⟨-, values, hvalues, rfl⟩
  · exact .inl (addBounds_eq_ok hbounded).2.1
  · exact .inr ⟨values, rfl, hvalues⟩

/-! ## Lists and unions -/

theorem listType_eq_ok {name : Option QName} {item : Handle}
    (h : builder.listType name item = .ok type) :
    (builder.graph.simpleType? item).isSome = true ∧ containsList builder.graph item = false ∧
      type = { name := name, base := some Builtin.anySimpleType.handle, variety := .list item,
               builtin := none, rule := .plain, facets := { whiteSpace := some .collapse } } := by
  unfold listType at h
  split at h
  case isTrue => cases h
  case isFalse hitem =>
    split at h
    case isTrue => cases h
    case isFalse hfree =>
      obtain rfl := by simpa [pure, Except.pure] using h
      exact ⟨Option.isSome_iff_ne_none.mpr (by simpa using hitem), by simpa using hfree, rfl⟩

theorem unionType_eq_ok {name : Option QName} {members : List Handle} :
    builder.unionType name members = .ok type ↔
      members ≠ [] ∧ (∀ member ∈ members, (builder.graph.simpleType? member).isSome = true) ∧
        type = { name := name, base := some Builtin.anySimpleType.handle, variety := .union members,
                 builtin := none, rule := .plain, facets := {} } := by
  have hfind : members.find? (fun member => (builder.graph.simpleType? member).isNone) = none ↔
      ∀ member ∈ members, (builder.graph.simpleType? member).isSome = true := by
    simp only [List.find?_eq_none, Bool.not_eq_true, Option.isNone_eq_false_iff]
  rw [unionType, ← hfind]
  cases members with
  | nil => simp [refuse]
  | cons member rest =>
    rw [List.isEmpty_cons, if_neg Bool.false_ne_true]
    split
    case h_1 fault hfault => simp [refuse, hfault]
    case h_2 hnone => simp [hnone, pure, Except.pure, eq_comm]

/-! ## Complex types -/

theorem complexType_eq_ok {name : Option QName} {content : Content} {made : ComplexType}
    (h : builder.complexType name content = .ok made) :
    (∀ type, content = .simple type → (builder.graph.simpleType? type).isSome = true) ∧
      made = ⟨name, content⟩ := by
  cases content with
  | simple type =>
    simp only [complexType] at h
    split at h
    case isTrue hsimple =>
      obtain rfl := by simpa [pure, Except.pure] using h
      exact ⟨by rintro _ ⟨⟩; exact hsimple, rfl⟩
    case isFalse => cases h
  | _ =>
    obtain rfl := by simpa [complexType, pure, Except.pure] using h
    exact ⟨by rintro _ ⟨⟩, rfl⟩

/-! ## Declarations -/

section Declarations

variable {name : QName} {type : Handle} {value? : Option DeclaredValue}

theorem attributeDecl_eq_ok {decl : AttributeDecl}
    (h : builder.attributeDecl name type value? = .ok decl) :
    (builder.graph.simpleType? type).isSome = true ∧
      ∃ constraint?, builder.constraintOf name.display type value? = .ok constraint? ∧
        decl = ⟨name, type, constraint?⟩ := by
  unfold attributeDecl at h
  split at h
  case isTrue => cases h
  case isFalse hsimple =>
    obtain ⟨constraint?, hconstraint, ⟨⟩⟩ := bind_eq_ok.mp h
    exact ⟨Option.isSome_iff_ne_none.mpr (by simpa using hsimple), constraint?, hconstraint, rfl⟩

theorem attributeUse_eq_ok {required : Bool} {made : AttributeUse}
    (h : builder.attributeUse handle required value? = .ok made) :
    ∃ decl constraint?, builder.graph.attribute? handle = some decl ∧
      builder.constraintOf decl.name.display decl.type value? = .ok constraint? ∧
      made = ⟨handle, required, constraint?⟩ := by
  unfold attributeUse at h
  split at h
  case h_1 => cases h
  case h_2 decl hdecl =>
    obtain ⟨constraint?, hconstraint, ⟨⟩⟩ := bind_eq_ok.mp h
    exact ⟨decl, constraint?, hdecl, hconstraint, rfl⟩

/-- An element has a type. A value is declared only where the content is
simple. -/
theorem elementDecl_eq_ok {decl : ElementDecl}
    (h : builder.elementDecl name type value? = .ok decl) :
    isType builder.graph type = true ∧
      ((∃ content constraint?, builder.graph.contentType? type = some content ∧
          builder.constraintOf name.display content value? = .ok constraint? ∧
          decl = ⟨name, type, constraint?⟩) ∨
        value? = none ∧ decl = ⟨name, type, none⟩) := by
  unfold elementDecl at h
  split at h
  case isTrue => cases h
  case isFalse htype =>
    refine ⟨by simpa using htype, ?_⟩
    split at h
    case h_1 content hcontent =>
      obtain ⟨constraint?, hconstraint, ⟨⟩⟩ := bind_eq_ok.mp h
      exact .inl ⟨content, constraint?, hcontent, hconstraint, rfl⟩
    case h_2 =>
      split at h
      case isTrue => cases h
      case isFalse hvalue =>
        obtain rfl := by simpa [pure, Except.pure] using h
        exact .inr ⟨by simpa using hvalue, rfl⟩

end Declarations

end Builder

namespace Graph

variable {graph : Graph} {limits : Limits} {bindings? : Option Bindings} {handle : Handle}
  {type : SimpleType} {primitive : Primitive} {text : String} {value : TypedValue}

/-- A value of an atomic type is an atom of the type itself. -/
theorem WellFormed.readValue_atomic (wf : graph.WellFormed)
    (htype : graph.simpleType? handle = some type) (hvariety : type.variety = .atomic primitive) :
    graph.readValue limits bindings? handle text = .ok value ↔
      ∃ atom, readAtom limits bindings? handle type primitive text = .ok atom ∧
        value = .atomic atom := by
  rw [wf.readValue_eq htype, hvariety]
  exact map_eq_ok.trans (exists_congr fun atom => and_congr_right fun _ => eq_comm)

theorem primitive_of_readAtom {atom : Atom}
    (h : readAtom limits bindings? handle type primitive text = .ok atom) :
    atom.primitive = primitive := by
  obtain ⟨native, -, rfl, -⟩ := readAtom_eq_ok.mp h
  rfl

theorem isSimpleBefore_next (h : (graph.simpleType? handle).isSome = true) :
    graph.IsSimpleBefore handle graph.next :=
  ⟨index_lt_of_simpleType? h, h⟩

theorem WellFormed.root_isSimple (wf : graph.WellFormed) :
    (graph.simpleType? Builtin.anySimpleType.handle).isSome = true := by
  rw [wf.builtins]
  rfl

end Graph

/-! ## Components -/

namespace Builder

variable {builder : Builder} {handle : Handle} {base type : SimpleType} {facets : FacetSet}
  {restriction : Restriction}

/-- Bounds are stated for atomic types only, and what a restriction states was read as a
value of the base. -/
theorem States.exists_readAtom (wf : builder.graph.WellFormed) {component : String} {bound : Bound}
    (hbase : builder.graph.simpleType? handle = some base)
    (h : builder.restrictFacets component handle base restriction = .ok facets)
    (hstates : builder.States handle restriction bound) :
    ∃ primitive text, base.variety = .atomic primitive ∧
      readAtom .standard (some builder.bindings) handle base primitive text = .ok bound.value := by
  obtain ⟨text, hmem, hread⟩ := hstates
  obtain ⟨hadmitted, -⟩ := restrictFacets_eq_ok h
  obtain ⟨primitive, hvariety⟩ := Variety.atomic_of_admits_range
    (hadmitted _ (mem_stated_of_mem_ranges hmem))
  obtain ⟨atom, hatom, heq⟩ := (wf.readValue_atomic hbase hvariety).mp hread
  obtain rfl : bound.value = atom := by simpa using heq
  exact ⟨primitive, text, hvariety, hatom⟩

/-- A stated bound has passed the facets of the base. -/
theorem States.checkAtom (wf : builder.graph.WellFormed) {component : String} {bound : Bound}
    (hbase : builder.graph.simpleType? handle = some base)
    (h : builder.restrictFacets component handle base restriction = .ok facets)
    (hstates : builder.States handle restriction bound) :
    base.facets.checkAtom bound.value = .ok () := by
  obtain ⟨primitive, text, -, hread⟩ := hstates.exists_readAtom wf hbase h
  obtain ⟨native, -, -, hchecked, -⟩ := readAtom_eq_ok.mp hread
  exact hchecked

/-- Each bound of a restriction is of the primitive type of the base, whether it is
inherited or stated. -/
theorem restrictFacets_isConsistent (wf : builder.graph.WellFormed) {component : String}
    (hbase : builder.graph.simpleType? handle = some base)
    (h : builder.restrictFacets component handle base restriction = .ok facets) :
    facets.IsConsistent base.primitive? := by
  obtain ⟨-, -, hfree, -⟩ := restrictFacets_eq_ok h
  refine FacetSet.isConsistent_of_contradiction? ?_ ?_
  · -- Only the numbers can contradict each other.
    calc
      facets.contradiction? = facets.numbers.contradiction? := rfl
      _ = (restrictNumbers base.facets restriction).contradiction? := by
        rw [numbers_restrictFacets h]
        rfl
      _ = none := hfree
  · intro kind bound hbound
    rcases slot_restrictFacets h kind with hinherited | ⟨stated, hstated, hkind, hstates⟩
    · exact (wf.admitsSimple hbase).facets.bounds kind bound (hinherited ▸ hbound)
    · obtain rfl : stated = bound := Option.some.inj (hstated.symm.trans hbound)
      obtain ⟨primitive, text, hvariety, hread⟩ := hstates.exists_readAtom wf hbase h
      refine ⟨hkind, ?_⟩
      rw [SimpleType.primitive?, hvariety, Graph.primitive_of_readAtom hread]

theorem restrictionType_admitted (wf : builder.graph.WellFormed)
    (h : builder.restrictionType handle restriction = .ok type) :
    builder.graph.AdmitsSimple builder.graph.next type := by
  obtain ⟨base, facets, hbase, hfacets, rfl⟩ := restrictionType_eq_ok h
  have hbefore : builder.graph.IsSimpleBefore handle builder.graph.next :=
    Graph.isSimpleBefore_next (by rw [hbase]; rfl)
  have hconsistent := restrictFacets_isConsistent wf hbase hfacets
  refine ⟨by rintro ⟨⟩, ?_, (wf.admitsSimple hbase).variety.mono (Nat.le_of_lt hbefore.1),
    hconsistent⟩
  rintro _ ⟨⟩
  exact hbefore

/-- An item type in which no list was found has none, as the search is exact in a
well-formed graph. -/
theorem listType_admitted (wf : builder.graph.WellFormed) {name : Option QName} {item : Handle}
    (h : builder.listType name item = .ok type) :
    builder.graph.AdmitsSimple builder.graph.next type := by
  obtain ⟨hitem, hfree, rfl⟩ := listType_eq_ok h
  refine ⟨by rintro ⟨⟩, ?_, ⟨Graph.isSimpleBefore_next hitem, ?_⟩, ?_⟩
  · rintro _ ⟨⟩
    exact Graph.isSimpleBefore_next wf.root_isSimple
  · intro hreach
    rw [wf.containsList_of_reachesList hreach] at hfree
    cases hfree
  · exact ⟨by rintro _ _ ⟨⟩, by rintro _ _ ⟨⟩, by rintro ⟨⟩ _ ⟨⟩⟩

theorem unionType_admitted (wf : builder.graph.WellFormed) {name : Option QName}
    {members : List Handle} (h : builder.unionType name members = .ok type) :
    builder.graph.AdmitsSimple builder.graph.next type := by
  obtain ⟨hne, hmembers, rfl⟩ := unionType_eq_ok.mp h
  refine ⟨by rintro ⟨⟩, ?_, ⟨hne, ?_⟩, ?_⟩
  · rintro _ ⟨⟩
    exact Graph.isSimpleBefore_next wf.root_isSimple
  · intro member hmember
    exact Graph.isSimpleBefore_next (hmembers member hmember)
  · exact ⟨by rintro _ _ ⟨⟩, by rintro _ _ ⟨⟩, by rintro ⟨⟩ _ ⟨⟩⟩

/-- Simple content has a simple type, and other content the absent handle. -/
theorem complexType_admitted {name : Option QName} {content : Content} {made : ComplexType}
    (h : builder.complexType name content = .ok made) :
    builder.graph.Admits builder.graph.next (.complexType made) := by
  obtain ⟨hsimple, rfl⟩ := complexType_eq_ok h
  cases content with
  | simple content => exact Graph.isSimpleBefore_next (hsimple content rfl)
  | _ => exact rfl

theorem attributeDecl_admitted {name : QName} {value? : Option DeclaredValue}
    {decl : AttributeDecl} (h : builder.attributeDecl name handle value? = .ok decl) :
    builder.graph.Admits builder.graph.next (.attribute decl) := by
  obtain ⟨hsimple, constraint?, -, rfl⟩ := attributeDecl_eq_ok h
  exact Graph.isSimpleBefore_next hsimple

theorem attributeUse_admitted {required : Bool} {value? : Option DeclaredValue}
    {made : AttributeUse} (h : builder.attributeUse handle required value? = .ok made) :
    builder.graph.Admits builder.graph.next (.attributeUse made) := by
  obtain ⟨decl, constraint?, hdecl, -, rfl⟩ := attributeUse_eq_ok h
  exact ⟨Graph.index_lt_of_attribute? hdecl, Option.isSome_of_eq_some hdecl⟩

/-- An element has a type, whether or not a value is declared for it. -/
theorem elementDecl_admitted {name : QName} {value? : Option DeclaredValue} {decl : ElementDecl}
    (h : builder.elementDecl name handle value? = .ok decl) :
    builder.graph.Admits builder.graph.next (.element decl) := by
  obtain ⟨htype, ⟨content, constraint?, -, -, rfl⟩ | ⟨-, rfl⟩⟩ := elementDecl_eq_ok h
  · exact ⟨Graph.index_lt_of_isType htype, htype⟩
  · exact ⟨Graph.index_lt_of_isType htype, htype⟩

/-- A well-formed graph admits every component that is made from a definition. -/
theorem component_admitted (wf : builder.graph.WellFormed) {definition : Definition}
    {component : Component} (h : builder.component definition = .ok component) :
    builder.graph.Admits builder.graph.next component := by
  match definition, h with
  | .restriction handle restriction, h =>
    obtain ⟨type, htype, rfl⟩ := map_eq_ok.mp h
    exact restrictionType_admitted wf htype
  | .list name item, h =>
    obtain ⟨type, htype, rfl⟩ := map_eq_ok.mp h
    exact listType_admitted wf htype
  | .union name members, h =>
    obtain ⟨type, htype, rfl⟩ := map_eq_ok.mp h
    exact unionType_admitted wf htype
  | .complexType name content, h =>
    obtain ⟨type, htype, rfl⟩ := map_eq_ok.mp h
    exact complexType_admitted htype
  | .attribute name handle value?, h =>
    obtain ⟨decl, hdecl, rfl⟩ := map_eq_ok.mp h
    exact attributeDecl_admitted hdecl
  | .attributeUse handle required value?, h =>
    obtain ⟨made, hmade, rfl⟩ := map_eq_ok.mp h
    exact attributeUse_admitted hmade
  | .element name handle value?, h =>
    obtain ⟨decl, hdecl, rfl⟩ := map_eq_ok.mp h
    exact elementDecl_admitted hdecl

end Builder

end SimpleTypes
