import SimpleTypes.Proofs.Facet.Narrowing
import SimpleTypes.Proofs.Number.Decimal
import SimpleTypes.Proofs.Schema.Runs

/-!
# Derivation and acceptance

A text that a type accepts is accepted by every type from which it is derived,
as long as no restriction states more than bounds, enumerations and patterns.

* `SimpleType.Narrows`: a type that keeps all of its base but the rule and the
  facets, and these are narrower.
* `SimpleType.IsFree`: a type that accepts every text. The types of strings from
  which others are derived are such types.
* `Graph.IsNarrowing`: every base in a graph is free or narrowed by what is derived
  from it. Runs keep this up.
* `run_derivesFrom_isValid`: acceptance goes up the bases.
-/

namespace SimpleTypes

variable {limits : Limits} {bindings? : Option Bindings} {handle baseHandle : Handle}
  {type base : SimpleType} {text : String}

/-! ## Rules -/

/-- Whether what is read under a rule is read as the same value under another. -/
def LexicalRule.Narrows (rule base : LexicalRule) : Prop :=
  ∀ primitive text bindings? limits native,
    readAtomic primitive rule text bindings? limits = .ok native →
      readAtomic primitive base text bindings? limits = .ok native

namespace LexicalRule

theorem narrows_refl (rule : LexicalRule) : rule.Narrows rule := fun _ _ _ _ _ => id

/-- Rules matter to strings and decimals only, and to decimals only the one for
integers. -/
theorem narrows_of_readString {rule base : LexicalRule}
    (hstring : ∀ text result, readString rule text = .ok result → readString base text = .ok result)
    (hinteger : base = integer → rule = integer) : rule.Narrows base := by
  intro primitive text bindings? limits native h
  cases primitive with
  | string =>
    obtain ⟨result, hresult, rfl⟩ := map_eq_ok.mp h
    have hbase := hstring text result (Error.ofInvalid_eq_ok.mp hresult)
    exact map_eq_ok.mpr ⟨result, Error.ofInvalid_eq_ok.mpr hbase, rfl⟩
  | decimal =>
    obtain ⟨value, hvalue, rfl⟩ := map_eq_ok.mp h
    obtain ⟨hlimit, hnumeral, hparse⟩ := readDecimal_eq_ok.mp hvalue
    exact map_eq_ok.mpr ⟨value, readDecimal_eq_ok.mpr
      ⟨hlimit, fun hrule => hnumeral (hinteger hrule), hparse⟩, rfl⟩
  | _ => exact h

theorem integer_narrows_plain : integer.Narrows plain :=
  narrows_of_readString (fun _ _ => id) fun _ => rfl

theorem ncName_narrows_name : ncName.Narrows name := by
  refine narrows_of_readString ?_ (by rintro ⟨⟩)
  intro text result h
  obtain ⟨hname, rfl⟩ := accept_eq_ok.mp h
  rw [isNCName, Bool.and_eq_true] at hname
  exact accept_eq_ok.mpr ⟨hname.2, rfl⟩

end LexicalRule

/-! ## Narrower types -/

/-- Whether a type keeps the variety and the treatment of blanks of a base, and
narrows its rule and its facets. -/
structure SimpleType.Narrows (type base : SimpleType) : Prop where
  variety : type.variety = base.variety
  whiteSpace : type.facets.whiteSpace = base.facets.whiteSpace
  rule : type.rule.Narrows base.rule
  facets : type.facets.Narrows base.facets

/-- Whether a type is one of strings that accepts every text. -/
structure SimpleType.IsFree (type : SimpleType) : Prop where
  variety : type.variety = .atomic .string
  reads : ∀ text, ∃ result,
    readString type.rule (normalizeText type.facets.whiteSpace text) = .ok result
  facets : type.facets = { whiteSpace := type.facets.whiteSpace }

/-- What an atom equals does not depend on the type that it belongs to. -/
theorem TypedValue.valueEq_of_type (one : TypedValue) (native : Native) (primitive : Primitive)
    (handle handle' : Handle) :
    one.valueEq (.atomic ⟨native, handle, primitive⟩)
      = one.valueEq (.atomic ⟨native, handle', primitive⟩) := by
  cases one <;> rfl

/-- The type that an atom belongs to plays no part in the tests. -/
theorem checks_of_type {facets : FacetSet} {native : Native} {primitive : Primitive}
    (handle' : Handle) (hatom : facets.checkAtom ⟨native, handle, primitive⟩ = .ok ())
    (henum : facets.checkEnumeration (.atomic ⟨native, handle, primitive⟩) = .ok ()) :
    facets.checkAtom ⟨native, handle', primitive⟩ = .ok () ∧
      facets.checkEnumeration (.atomic ⟨native, handle', primitive⟩) = .ok () := by
  refine ⟨FacetSet.checkAtom_eq_ok.mpr (FacetSet.checkAtom_eq_ok.mp hatom :),
    FacetSet.checkEnumeration_eq_ok.mpr ?_⟩
  intro allowed hallowed
  obtain ⟨one, hone, heq⟩ := FacetSet.checkEnumeration_eq_ok.mp henum allowed hallowed
  exact ⟨one, hone, (one.valueEq_of_type native primitive handle' handle).trans heq⟩

theorem readAtom_of_narrows {primitive : Primitive} {atom : Atom} (h : type.Narrows base)
    (hatom : readAtom limits bindings? handle type primitive text = .ok atom) :
    ∃ atom', readAtom limits bindings? baseHandle base primitive text = .ok atom' := by
  obtain ⟨native, hread, rfl, hchecks, henum⟩ := readAtom_eq_ok.mp hatom
  rw [h.whiteSpace] at hread
  obtain ⟨hchecks', henum'⟩ := checks_of_type baseHandle (h.facets.checkAtom hchecks)
    (h.facets.enumeration _ henum)
  exact ⟨_, readAtom_eq_ok.mpr ⟨native, h.rule _ _ _ _ _ hread, rfl, hchecks', henum'⟩⟩

theorem readList_of_narrows {item : Handle} {readItem : String → Except Error TypedValue}
    {list : ListValue} (h : type.Narrows base)
    (hlist : readList limits type item readItem text = .ok list) :
    readList limits base item readItem text = .ok list := by
  obtain ⟨values, hcount, hlength, hvalues, hitems, henum⟩ := readList_eq_ok.mp hlist
  rw [h.whiteSpace] at hcount hlength hvalues
  exact readList_eq_ok.mpr ⟨values, hcount, h.facets.lengths _ hlength, hvalues, hitems,
    h.facets.enumeration _ henum⟩

theorem readUnion_of_narrows {members : List Handle}
    {readMember : Handle → Except Error TypedValue} {value : TypedValue} (h : type.Narrows base)
    (hvalue : readUnion type members readMember text = .ok value) :
    readUnion base members readMember text = .ok value := by
  obtain ⟨hfirst, henum⟩ := readUnion_eq_ok.mp hvalue
  exact readUnion_eq_ok.mpr ⟨hfirst, h.facets.enumeration _ henum⟩

namespace Graph

variable {graph : Graph} {value : TypedValue}

/-- What a narrower type accepts is accepted by the base. -/
theorem WellFormed.readValue_of_narrows (wf : graph.WellFormed)
    (htype : graph.simpleType? handle = some type)
    (hbase : graph.simpleType? baseHandle = some base) (h : type.Narrows base)
    (hvalue : graph.readValue limits bindings? handle text = .ok value) :
    ∃ value', graph.readValue limits bindings? baseHandle text = .ok value' := by
  rw [wf.readValue_eq htype, h.variety] at hvalue
  rw [wf.readValue_eq hbase]
  cases hvariety : base.variety with
  | atomic primitive =>
    rw [hvariety] at hvalue
    obtain ⟨atom, hatom, rfl⟩ := map_eq_ok.mp hvalue
    obtain ⟨atom', hatom'⟩ := readAtom_of_narrows h hatom
    exact ⟨_, map_eq_ok.mpr ⟨atom', hatom', rfl⟩⟩
  | list item =>
    rw [hvariety] at hvalue
    obtain ⟨list, hlist, rfl⟩ := map_eq_ok.mp hvalue
    exact ⟨_, map_eq_ok.mpr ⟨list, readList_of_narrows h hlist, rfl⟩⟩
  | union members =>
    rw [hvariety] at hvalue
    exact ⟨value, readUnion_of_narrows h hvalue⟩

theorem WellFormed.readValue_of_isFree (wf : graph.WellFormed)
    (hbase : graph.simpleType? baseHandle = some base) (h : base.IsFree) (text : String) :
    ∃ value, graph.readValue limits bindings? baseHandle text = .ok value := by
  obtain ⟨result, hresult⟩ := h.reads text
  rw [wf.readValue_eq hbase, h.variety]
  refine ⟨_, map_eq_ok.mpr ⟨⟨.string result, baseHandle, .string⟩, readAtom_eq_ok.mpr
    ⟨.string result, map_eq_ok.mpr ⟨result, Error.ofInvalid_eq_ok.mpr hresult, rfl⟩, rfl, ?_, ?_⟩,
    rfl⟩⟩
  · rw [h.facets]
    rfl
  · rw [h.facets]
    rfl

/-- The value of an accepted text is one of the enumerated values. -/
theorem WellFormed.checkEnumeration_of_readValue (wf : graph.WellFormed)
    (hbase : graph.simpleType? baseHandle = some base)
    (hvalue : graph.readValue limits bindings? baseHandle text = .ok value) :
    base.facets.checkEnumeration value = .ok () := by
  rw [wf.readValue_eq hbase] at hvalue
  cases hvariety : base.variety with
  | atomic primitive =>
    rw [hvariety] at hvalue
    obtain ⟨atom, hatom, rfl⟩ := map_eq_ok.mp hvalue
    obtain ⟨native, -, -, -, henum⟩ := readAtom_eq_ok.mp hatom
    exact henum
  | list item =>
    rw [hvariety] at hvalue
    obtain ⟨list, hlist, rfl⟩ := map_eq_ok.mp hvalue
    obtain ⟨values, -, -, -, -, henum⟩ := readList_eq_ok.mp hlist
    exact henum
  | union members =>
    rw [hvariety] at hvalue
    exact (readUnion_eq_ok.mp hvalue).2

end Graph

/-! ## Built-in types -/

namespace Builtin

/-- The types of strings with any characters. -/
def free : List Builtin := [anySimpleType, primitive .string, normalizedString, token]

theorem isFree_of_mem_free {type : Builtin} (h : type ∈ free) : type.simpleType.IsFree := by
  refine ⟨?_, ?_, ?_⟩
  · have : ∀ type ∈ free, type.simpleType.variety = .atomic .string := by decide
    exact this type h
  · intro text
    simp only [free, List.mem_cons, List.not_mem_nil, or_false] at h
    rcases h with rfl | rfl | rfl | rfl
    · exact ⟨_, rfl⟩
    · exact ⟨_, rfl⟩
    · refine ⟨_, accept_eq_ok.mpr ⟨?_, rfl⟩⟩
      show isNormalized (String.ofList (replaceBlanks text.toList)).toList = true
      rw [String.toList_ofList]
      exact isNormalized_replaceBlanks text.toList
    · refine ⟨_, accept_eq_ok.mpr ⟨?_, rfl⟩⟩
      show isToken (String.ofList (collapseBlanks text.toList)).toList = true
      rw [String.toList_ofList]
      exact isToken_collapseBlanks text.toList
  · have : ∀ type ∈ free,
        type.simpleType.facets = { whiteSpace := type.simpleType.facets.whiteSpace } := by decide
    exact this type h

/-- Below the free types a derivation keeps the rule or sharpens it. -/
theorem rule_narrows {type base : Builtin} (h : type.base? = some base) (hfree : base ∉ free) :
    type.rule.Narrows base.rule := by
  have hrules : ∀ type ∈ all, ∀ base ∈ type.base?, base ∉ free →
      type.rule = base.rule ∨ type.rule = .integer ∧ base.rule = .plain ∨
        type.rule = .ncName ∧ base.rule = .name := by decide
  rcases hrules type (mem_all type) base h hfree with hsame | ⟨hrule, hbase⟩ | ⟨hrule, hbase⟩
  · rw [hsame]
    exact LexicalRule.narrows_refl _
  · rw [hrule, hbase]
    exact LexicalRule.integer_narrows_plain
  · rw [hrule, hbase]
    exact LexicalRule.ncName_narrows_name

/-- Below the free types a derivation has no lengths and no enumeration, and the
bounds of a base admit the new ones. -/
theorem facets_narrows {type base : Builtin} (h : type.base? = some base) (hfree : base ∉ free) :
    type.facets.Narrows base.facets := by
  have hnumbers : ∀ type ∈ all, ∀ base ∈ type.base?, base ∉ free →
      base.facets.hasLength = false ∧ base.facets.totalDigits = none ∧
        (base.facets.fractionDigits = none ∨
          type.facets.fractionDigits = base.facets.fractionDigits) ∧
        base.facets.enumeration = none := by decide
  have hbounds : ∀ type ∈ all, ∀ base ∈ type.base?, base ∉ free → ∀ kind ∈ RangeKind.all,
      ∀ bound ∈ base.facets.slot kind, ∃ bound' ∈ type.facets.slot kind,
        bound'.kind = bound.kind ∧ bound.admits bound'.value = true := by decide +kernel
  obtain ⟨hlength, htotal, hfraction, henum⟩ := hnumbers type (mem_all type) base h hfree
  exact FacetSet.narrows_of_bounds hlength htotal hfraction henum
    (hbounds type (mem_all type) base h hfree)

/-- Every base is free, or the type that is derived from it is narrower. -/
theorem isFree_or_narrows {type base : Builtin} (h : type.base? = some base) :
    base.simpleType.IsFree ∨ type.simpleType.Narrows base.simpleType := by
  by_cases hfree : base ∈ free
  · exact .inl (isFree_of_mem_free hfree)
  · have hkept : ∀ type ∈ all, ∀ base ∈ type.base?, base ∉ free →
        type.simpleType.variety = base.simpleType.variety ∧
          type.facets.whiteSpace = base.facets.whiteSpace := by decide
    obtain ⟨hvariety, hblanks⟩ := hkept type (mem_all type) base h hfree
    exact .inr ⟨hvariety, hblanks, rule_narrows h hfree, facets_narrows h hfree⟩

end Builtin

/-! ## Restrictions -/

/-- Whether a restriction states no more than bounds, enumerations and patterns. -/
structure Restriction.KeepsNumbers (restriction : Restriction) : Prop where
  whiteSpace : restriction.whiteSpace = none
  length : restriction.length = none
  minLength : restriction.minLength = none
  maxLength : restriction.maxLength = none
  totalDigits : restriction.totalDigits = none
  fractionDigits : restriction.fractionDigits = none

namespace Builder

variable {builder : Builder} {facets : FacetSet} {restriction : Restriction}

theorem restrictNumbers_of_keepsNumbers (h : restriction.KeepsNumbers) (facets : FacetSet) :
    restrictNumbers facets restriction = facets := by
  simp [restrictNumbers, h.whiteSpace, h.length, h.minLength, h.maxLength, h.totalDigits,
    h.fractionDigits]

/-- What a restriction states was read as values of the base, so it narrows the
facets of the base. -/
theorem restrictFacets_narrows (wf : builder.graph.WellFormed) (hkeeps : restriction.KeepsNumbers)
    {component : String} (hbase : builder.graph.simpleType? handle = some base)
    (h : builder.restrictFacets component handle base restriction = .ok facets) :
    facets.Narrows base.facets ∧ facets.whiteSpace = base.facets.whiteSpace := by
  have hnumbers : facets.numbers = base.facets.numbers := by
    rw [numbers_restrictFacets h, restrictNumbers_of_keepsNumbers hkeeps]
  have hconsistent := (wf.admitsSimple hbase).facets
  refine ⟨FacetSet.narrows_of_admitted hnumbers
    (fun kind bound hbound => (hconsistent.bounds kind bound hbound).1) ?_ ?_,
    (congrArg FacetSet.whiteSpace hnumbers :)⟩
  · intro kind
    refine (slot_restrictFacets h kind).imp_right ?_
    rintro ⟨bound, hbound, hkind, hstates⟩
    exact ⟨bound, hbound, hkind, hstates.checkAtom wf hbase h⟩
  · refine (enumeration_restrictFacets h).imp_right ?_
    rintro ⟨values, henum, hvalues⟩
    refine ⟨values, henum, fun value hvalue => ?_⟩
    obtain ⟨text, -, hread⟩ := exists_mem_of_forall₂ hvalues hvalue
    exact wf.checkEnumeration_of_readValue hbase hread

end Builder

/-! ## Runs -/

namespace Graph

/-- Whether the base of a type is free, or the type is narrower. -/
def NarrowsBase (graph : Graph) (type : SimpleType) : Prop :=
  ∀ baseHandle base, type.base = some baseHandle → graph.simpleType? baseHandle = some base →
    base.IsFree ∨ type.Narrows base

/-- Whether this holds of every type in a graph. -/
def IsNarrowing (graph : Graph) : Prop :=
  ∀ handle type, graph.simpleType? handle = some type → graph.NarrowsBase type

variable {graph later : Graph} {component : Component}

theorem NarrowsBase.of_extends (h : graph.NarrowsBase type) (hext : later.Extends graph)
    (hbase : ∀ baseHandle, type.base = some baseHandle →
      (graph.simpleType? baseHandle).isSome = true) : later.NarrowsBase type := by
  intro baseHandle base hhandle hlater
  exact h baseHandle base hhandle (hext.simpleType?_of_isSome (hbase baseHandle hhandle) hlater)

theorem builtins_isNarrowing : builtins.IsNarrowing := by
  intro handle type htype baseHandle base hbase hbaseType
  rw [simpleType?_eq_some, builtins_component?] at htype
  obtain ⟨source, -, hsource⟩ := Option.map_eq_some_iff.mp htype
  obtain rfl : source.simpleType = type := by simpa using hsource
  obtain ⟨baseSource, hbaseSource, rfl⟩ := Option.map_eq_some_iff.mp hbase
  rw [builtins_simpleType?, Option.some.injEq] at hbaseType
  rw [← hbaseType]
  exact Builtin.isFree_or_narrows hbaseSource

/-- What was narrower stays so when a component is added. -/
theorem IsNarrowing.add (hnarrow : graph.IsNarrowing) (wf : graph.WellFormed)
    (hadmits : graph.Admits graph.next component)
    (h : ∀ type, component = .simpleType type → graph.NarrowsBase type) :
    (graph.add component).IsNarrowing := by
  intro handle type htype
  rw [simpleType?_eq_some, component?_add] at htype
  split at htype
  case isTrue =>
    obtain rfl : component = .simpleType type := by simpa using htype
    refine (h type rfl).of_extends (extends_add _ _) ?_
    intro baseHandle hbase
    have hadmits : graph.AdmitsSimple graph.next type := hadmits
    exact (hadmits.base baseHandle hbase).2
  case isFalse =>
    have hold := simpleType?_eq_some.mpr htype
    refine (hnarrow handle type hold).of_extends (extends_add _ _) ?_
    intro baseHandle hbase
    exact ((wf.admitsSimple hold).base baseHandle hbase).2

/-- The type of all simple values is a free base. -/
theorem WellFormed.narrowsBase_of_root (wf : graph.WellFormed)
    (h : type.base = some Builtin.anySimpleType.handle) : graph.NarrowsBase type := by
  intro baseHandle base hhandle hbase
  rw [h, Option.some.injEq] at hhandle
  rw [← hhandle, wf.builtins, Option.some.injEq] at hbase
  rw [← hbase]
  exact .inl (Builtin.isFree_of_mem_free (by decide))

/-- A text is valid if it is not too long and has a value. -/
theorem isValid_iff : graph.isValid limits bindings? handle text = true ↔
    limits.checkLexicalLength text.length = .ok () ∧
      ∃ value, graph.readValue limits bindings? handle text = .ok value := by
  have hok : graph.isValid limits bindings? handle text = true ↔
      ∃ value, graph.validate limits bindings? handle text = .ok value := by
    rw [isValid]
    cases graph.validate limits bindings? handle text <;> simp [Except.isOk, Except.toBool]
  simp only [hok, validate_eq_ok, exists_and_left]

/-- Acceptance goes up the bases. -/
theorem IsNarrowing.accepts_of_derivesFrom (hnarrow : graph.IsNarrowing) (wf : graph.WellFormed)
    {ancestor : Handle} (hderives : graph.derivesFrom handle ancestor = true)
    (h : ∃ value, graph.readValue limits bindings? handle text = .ok value) :
    ∃ value, graph.readValue limits bindings? ancestor text = .ok value := by
  refine wf.derivesFrom_induction
    (P := fun handle => (∃ value, graph.readValue limits bindings? handle text = .ok value) →
      ∃ value, graph.readValue limits bindings? ancestor text = .ok value) id ?_ hderives h
  intro handle baseHandle type htype hhandle hbase haccepts
  refine hbase ?_
  obtain ⟨base, hbaseType⟩ :=
    Option.isSome_iff_exists.mp ((wf.admitsSimple htype).base baseHandle hhandle).2
  rcases hnarrow handle type htype baseHandle base hhandle hbaseType with hfree | hnarrows
  · exact wf.readValue_of_isFree hbaseType hfree text
  · obtain ⟨value, hvalue⟩ := haccepts
    exact wf.readValue_of_narrows htype hbaseType hnarrows hvalue

end Graph

namespace Builder

variable {builder : Builder} {definition : Definition}

/-- Whether a step restricts nothing but bounds, enumerations and patterns. -/
def Step.KeepsNumbers : Step → Prop
  | .define (.restriction _ restriction) => restriction.KeepsNumbers
  | _ => True

theorem base_of_listType {name : Option QName} {item : Handle}
    (h : builder.listType name item = .ok type) :
    type.base = some Builtin.anySimpleType.handle := by
  obtain ⟨-, -, rfl⟩ := listType_eq_ok h
  rfl

theorem base_of_unionType {name : Option QName} {members : List Handle}
    (h : builder.unionType name members = .ok type) :
    type.base = some Builtin.anySimpleType.handle := by
  obtain ⟨-, -, rfl⟩ := unionType_eq_ok.mp h
  rfl

/-- Restrictions narrow their base, and lists and unions are derived from the type
of all simple values. -/
theorem component_narrowsBase (wf : builder.graph.WellFormed)
    (hkeeps : Step.KeepsNumbers (.define definition))
    (h : builder.component definition = .ok (.simpleType type)) :
    builder.graph.NarrowsBase type := by
  match definition, hkeeps, h with
  | .restriction handle restriction, hkeeps, h =>
    obtain ⟨restricted, hrestricted, ⟨⟩⟩ := map_eq_ok.mp h
    obtain ⟨old, facets, hold, hfacets, rfl⟩ := restrictionType_eq_ok hrestricted
    obtain ⟨hnarrows, hblanks⟩ := restrictFacets_narrows wf hkeeps hold hfacets
    rintro baseHandle base ⟨⟩ hbase
    obtain rfl : old = base := by simpa [hold] using hbase
    exact .inr ⟨rfl, hblanks, LexicalRule.narrows_refl _, hnarrows⟩
  | .list name item, _, h =>
    obtain ⟨list, hlist, ⟨⟩⟩ := map_eq_ok.mp h
    exact wf.narrowsBase_of_root (base_of_listType hlist)
  | .union name members, _, h =>
    obtain ⟨union, hunion, ⟨⟩⟩ := map_eq_ok.mp h
    exact wf.narrowsBase_of_root (base_of_unionType hunion)
  | .complexType _ _, _, h | .attribute _ _ _, _, h | .attributeUse _ _ _, _, h
  | .element _ _ _, _, h =>
    obtain ⟨_, -, ⟨⟩⟩ := map_eq_ok.mp h

theorem run_isNarrowing {steps : List Step} (hkeeps : ∀ step ∈ steps, step.KeepsNumbers) :
    (start.run steps).graph.WellFormed ∧ (start.run steps).graph.IsNarrowing := by
  refine run_induction (P := fun graph => graph.WellFormed ∧ graph.IsNarrowing)
    ?_ ⟨Graph.builtins_wellFormed, Graph.builtins_isNarrowing⟩
  intro builder definition component hmem hgraph hcomponent
  obtain ⟨wf, hnarrow⟩ := hgraph
  have hadmits := component_admitted wf hcomponent
  refine ⟨wf.add hadmits, hnarrow.add wf hadmits ?_⟩
  intro type htype
  rw [htype] at hcomponent
  exact component_narrowsBase wf (hkeeps _ hmem) hcomponent

/-- After a run that restricts nothing but bounds, enumerations and patterns, a
text that a type accepts is accepted by every type from which it is derived. -/
theorem run_derivesFrom_isValid (steps : List Step) (hkeeps : ∀ step ∈ steps, step.KeepsNumbers)
    {type ancestor : Handle}
    (hderives : (start.run steps).graph.derivesFrom type ancestor = true)
    (h : (start.run steps).graph.isValid limits bindings? type text = true) :
    (start.run steps).graph.isValid limits bindings? ancestor text = true := by
  obtain ⟨wf, hnarrow⟩ := run_isNarrowing hkeeps
  rw [Graph.isValid_iff] at h ⊢
  exact ⟨h.1, hnarrow.accepts_of_derivesFrom wf hderives h.2⟩

/-- Bounds of bounds, an enumeration of some of the values between them, lists of
these values and an enumeration of lists. -/
def narrowedTemperatures : List Step := [
  .define (.restriction (Builtin.primitive .decimal).handle
    { ranges := [(.minExclusive, "-20"), (.maxInclusive, "45")] }),
  .define (.restriction ⟨45⟩
    { ranges := [(.minInclusive, "-1.5"), (.maxExclusive, "30")], patterns := ["[0-9.]+"] }),
  .define (.restriction ⟨46⟩ { enumeration := ["-1.50", "0", "21"] }),
  .define (.list none ⟨47⟩),
  .define (.restriction ⟨48⟩ { enumeration := ["0 21", "-1.5"] })]

theorem run_derivesFrom_isValid_narrowedTemperatures :
    (start.run narrowedTemperatures).graph.derivesFrom ⟨47⟩ (Builtin.primitive .decimal).handle
        = true ∧
      (start.run narrowedTemperatures).graph.isValid .standard none ⟨47⟩ " 21.0" = true ∧
      (start.run narrowedTemperatures).graph.isValid .standard none
        (Builtin.primitive .decimal).handle " 21.0" = true ∧
      (start.run narrowedTemperatures).graph.derivesFrom ⟨49⟩ ⟨48⟩ = true ∧
      (start.run narrowedTemperatures).graph.isValid .standard none ⟨49⟩ "00 +21" = true ∧
      (start.run narrowedTemperatures).graph.isValid .standard none ⟨48⟩ "00 +21" = true := by
  have hplain : ∀ ranges enumeration patterns, Restriction.KeepsNumbers
      { ranges := ranges, enumeration := enumeration, patterns := patterns } :=
    fun _ _ _ => ⟨rfl, rfl, rfl, rfl, rfl, rfl⟩
  have hkeeps : ∀ step ∈ narrowedTemperatures, step.KeepsNumbers := by
    simp [narrowedTemperatures, Step.KeepsNumbers, hplain]
  have hderives : (start.run narrowedTemperatures).graph.derivesFrom ⟨47⟩
      (Builtin.primitive .decimal).handle = true := by decide +kernel
  have hvalid : (start.run narrowedTemperatures).graph.isValid .standard none ⟨47⟩ " 21.0"
      = true := by decide +kernel
  have hderives' : (start.run narrowedTemperatures).graph.derivesFrom ⟨49⟩ ⟨48⟩ = true := by
    decide +kernel
  have hvalid' : (start.run narrowedTemperatures).graph.isValid .standard none ⟨49⟩ "00 +21"
      = true := by decide +kernel
  exact ⟨hderives, hvalid, run_derivesFrom_isValid narrowedTemperatures hkeeps hderives hvalid,
    hderives', hvalid', run_derivesFrom_isValid narrowedTemperatures hkeeps hderives' hvalid'⟩

end Builder

end SimpleTypes
