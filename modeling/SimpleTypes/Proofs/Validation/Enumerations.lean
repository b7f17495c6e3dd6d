import SimpleTypes.Proofs.Schema.Origins
import SimpleTypes.Proofs.Validation.Atoms
import SimpleTypes.Proofs.Validation.Derivation
import SimpleTypes.Proofs.Validation.Growth

/-!
# Enumerations

A restriction that states an enumeration and nothing else picks values out of its base. The
enumeration takes the place of an inherited one. The values in it were read under the base,
so that they have passed the inherited one themselves.

* `SimpleType.Enumerates`: a type that has all of a base but the enumeration. Each variety
  reads what the base reads as a value that equals one of these values.
* `WellFormed.readValue_iff_of_enumerates`: so it is for all types.
* `run_isValid_enumeration`: in the graph of every run the new type accepts just the texts
  that the base reads as a value equal to that of a stated text. The stated texts are
  among them.
-/

namespace SimpleTypes

variable {limits : Limits} {bindings? : Option Bindings} {handle baseHandle : Handle}
  {type base : SimpleType} {text : String} {value : TypedValue} {values : List TypedValue}

/-! ## Types with another enumeration -/

/-- Whether one of some values equals a value. -/
def TypedValue.IsAmong (value : TypedValue) (values : List TypedValue) : Prop :=
  ∃ one ∈ values, one.valueEq value = true

/-- Whether a type has all of a base but the enumeration, and the base admits each value that
stands there now. -/
structure SimpleType.Enumerates (type base : SimpleType) (values : List TypedValue) : Prop where
  variety : type.variety = base.variety
  rule : type.rule = base.rule
  facets : type.facets = { base.facets with enumeration := some values }
  admitted : ∀ one ∈ values, base.facets.checkEnumeration one = .ok ()

theorem TypedValue.isAmong_of_type {native : Native} {primitive : Primitive} (handle' : Handle)
    (h : (TypedValue.atomic ⟨native, handle, primitive⟩).IsAmong values) :
    (TypedValue.atomic ⟨native, handle', primitive⟩).IsAmong values := by
  obtain ⟨one, hone, heq⟩ := h
  exact ⟨one, hone, (one.valueEq_of_type native primitive handle' handle).trans heq⟩

namespace SimpleType.Enumerates

variable {primitive : Primitive} {item : Handle} {members : List Handle}

theorem whiteSpace (h : type.Enumerates base values) :
    type.facets.whiteSpace = base.facets.whiteSpace :=
  (congrArg FacetSet.whiteSpace h.facets :)

theorem checkLength (h : type.Enumerates base values) (count : Nat) :
    type.facets.checkLength count = base.facets.checkLength count :=
  (congrArg (FacetSet.checkLength · count) h.facets :)

theorem checkAtom (h : type.Enumerates base values) (atom : Atom) :
    type.facets.checkAtom atom = base.facets.checkAtom atom :=
  (congrArg (FacetSet.checkAtom · atom) h.facets :)

/-- What passes the new enumeration has passed the old one. -/
theorem checkEnumeration (h : type.Enumerates base values) (value : TypedValue) :
    type.facets.checkEnumeration value = .ok () ↔
      base.facets.checkEnumeration value = .ok () ∧ value.IsAmong values := by
  have henum : type.facets.enumeration = some values := (congrArg FacetSet.enumeration h.facets :)
  constructor
  · intro hvalue
    exact ⟨FacetSet.checkEnumeration_of_admitted henum h.admitted hvalue,
      FacetSet.checkEnumeration_eq_ok.mp hvalue values henum⟩
  · rintro ⟨-, hamong⟩
    refine FacetSet.checkEnumeration_eq_ok.mpr ?_
    intro allowed hallowed
    obtain rfl : values = allowed := Option.some.inj (henum.symm.trans hallowed)
    exact hamong

/-- The atom that is read names another type than the one that the base reads. -/
theorem readAtom_iff (h : type.Enumerates base values) :
    (∃ atom, readAtom limits bindings? handle type primitive text = .ok atom) ↔
      ∃ atom, readAtom limits bindings? baseHandle base primitive text = .ok atom ∧
        (TypedValue.atomic atom).IsAmong values := by
  simp only [readAtom_eq_ok, h.rule, h.whiteSpace, h.checkAtom, h.checkEnumeration]
  constructor
  · rintro ⟨_, native, hread, rfl, hatom, henum, hamong⟩
    obtain ⟨hatom', henum'⟩ := checks_of_type baseHandle hatom henum
    exact ⟨_, ⟨native, hread, rfl, hatom', henum'⟩, TypedValue.isAmong_of_type baseHandle hamong⟩
  · rintro ⟨_, ⟨native, hread, rfl, hatom, henum⟩, hamong⟩
    obtain ⟨hatom', henum'⟩ := checks_of_type handle hatom henum
    exact ⟨_, native, hread, rfl, hatom', henum', TypedValue.isAmong_of_type handle hamong⟩

theorem readList_iff (h : type.Enumerates base values)
    {readItem : String → Except Error TypedValue} {list : ListValue} :
    readList limits type item readItem text = .ok list ↔
      readList limits base item readItem text = .ok list ∧
        (TypedValue.list list).IsAmong values := by
  simp only [readList_eq_ok, h.whiteSpace, h.checkLength, h.checkEnumeration]
  constructor
  · rintro ⟨read, hcount, hlength, hread, hitems, henum, hamong⟩
    exact ⟨⟨read, hcount, hlength, hread, hitems, henum⟩, hamong⟩
  · rintro ⟨⟨read, hcount, hlength, hread, hitems, henum⟩, hamong⟩
    exact ⟨read, hcount, hlength, hread, hitems, henum, hamong⟩

theorem readUnion_iff (h : type.Enumerates base values)
    {readMember : Handle → Except Error TypedValue} :
    readUnion type members readMember text = .ok value ↔
      readUnion base members readMember text = .ok value ∧ value.IsAmong values := by
  rw [readUnion_eq_ok, readUnion_eq_ok, h.checkEnumeration, and_assoc]

end SimpleType.Enumerates

/-! ## Reading -/

namespace Graph

variable {graph : Graph}

/-- A type with another enumeration accepts the texts that its base reads as one of these
values. -/
theorem WellFormed.readValue_iff_of_enumerates (wf : graph.WellFormed)
    (htype : graph.simpleType? handle = some type)
    (hbase : graph.simpleType? baseHandle = some base) (h : type.Enumerates base values) :
    (∃ value, graph.readValue limits bindings? handle text = .ok value) ↔
      ∃ value, graph.readValue limits bindings? baseHandle text = .ok value ∧
        value.IsAmong values := by
  simp only [wf.readValue_eq htype, wf.readValue_eq hbase, h.variety]
  cases base.variety with
  | atomic primitive =>
    refine exists_map_eq_ok.trans ?_
    simp only [map_eq_ok, exists_exists_and_eq_and]
    exact h.readAtom_iff
  | list item =>
    refine exists_map_eq_ok.trans ?_
    simp only [map_eq_ok, exists_exists_and_eq_and]
    exact exists_congr fun _ => h.readList_iff
  | union members => exact exists_congr fun _ => h.readUnion_iff

end Graph

/-! ## Runs -/

namespace Builder

variable {steps : List Step} {builder : Builder} {name : Option QName} {texts : List String}

/-- What is stated was read under the base, and all other facets are inherited. -/
theorem IsRestrictionOf.exists_enumerates
    (h : IsRestrictionOf steps builder baseHandle base { name := name, enumeration := texts } type)
    (htexts : texts ≠ []) :
    ∃ values, type.Enumerates base values ∧ List.Forall₂ (fun text value =>
      builder.graph.readValue .standard (some builder.bindings) baseHandle text = .ok value)
        texts values := by
  obtain ⟨-, -, -, bounded, enumerated, hbounded, henumerated, hfacets⟩ :=
    restrictFacets_eq_ok h.facets
  obtain rfl : base.facets = bounded := by
    simpa [restrictNumbers, pure, Except.pure] using hbounded
  rcases addEnumeration_eq_ok.mp henumerated with ⟨hnone, -⟩ | ⟨-, values, hvalues, rfl⟩
  · exact absurd hnone htexts
  · refine ⟨values, ⟨h.variety, h.rule, ?_, ?_⟩, hvalues⟩
    · rw [hfacets, List.append_nil]
    · intro one hone
      obtain ⟨text, -, hread⟩ := exists_mem_of_forall₂ hvalues hone
      exact h.wellFormed.checkEnumeration_of_readValue h.simpleType?_base hread

/-- Take a step of a run that restricts a base by an enumeration alone. The new type accepts
just the texts that the base reads as a value equal to that of a stated text, whatever the
bindings and limits are. The stated texts were read with the bindings of the step. With these
and the limits that hold where none are given the new type accepts them, but for their
length. -/
theorem run_isValid_enumeration
    (hmakes : Makes steps builder (.restriction baseHandle { name := name, enumeration := texts })
      (.simpleType type))
    (htexts : texts ≠ []) :
    (∀ limits bindings? text,
      (start.run steps).graph.isValid limits bindings? builder.graph.next text = true ↔
        ∃ value, (start.run steps).graph.validate limits bindings? baseHandle text = .ok value ∧
          ∃ statedText ∈ texts, ∃ stated, (start.run steps).graph.readValue .standard
              (some builder.bindings) baseHandle statedText = .ok stated ∧
            stated.valueEq value = true) ∧
      ∀ statedText ∈ texts, statedText.length ≤ Limits.standard.lexicalLength →
        (start.run steps).graph.isValid .standard (some builder.bindings) builder.graph.next
          statedText = true := by
  have wf := run_wellFormed steps
  obtain ⟨base, hrestriction⟩ := hmakes.exists_isRestrictionOf
  obtain ⟨values, henumerates, hvalues⟩ := hrestriction.exists_enumerates htexts
  have hstated (value : TypedValue) : value.IsAmong values ↔ ∃ statedText ∈ texts, ∃ stated,
      (start.run steps).graph.readValue .standard (some builder.bindings) baseHandle statedText
        = .ok stated ∧ stated.valueEq value = true := by
    constructor
    · rintro ⟨one, hone, heq⟩
      obtain ⟨statedText, hmem, hread⟩ := exists_mem_of_forall₂ hvalues hone
      exact ⟨statedText, hmem, one, hmakes.readValue_eq_ok hread, heq⟩
    · rintro ⟨statedText, hmem, stated, hread, heq⟩
      obtain ⟨one, hone, hread'⟩ := exists_mem_of_forall₂ hvalues.flip hmem
      obtain rfl : one = stated :=
        Except.ok.inj ((hmakes.readValue_eq_ok hread').symm.trans hread)
      exact ⟨one, hone, heq⟩
  have hvalid (limits : Limits) (bindings? : Option Bindings) (text : String) :
      (start.run steps).graph.isValid limits bindings? builder.graph.next text = true ↔
        ∃ value, (start.run steps).graph.validate limits bindings? baseHandle text = .ok value ∧
          value.IsAmong values := by
    rw [Graph.isValid_iff, wf.readValue_iff_of_enumerates hrestriction.simpleType?_next
      hrestriction.simpleType?_base_run henumerates]
    simp only [Graph.validate_eq_ok, and_assoc, exists_and_left]
  refine ⟨fun limits bindings? text => ?_, fun statedText hmem hlength => ?_⟩
  · simp only [hvalid, hstated]
  · obtain ⟨one, hone, hread⟩ := exists_mem_of_forall₂ hvalues.flip hmem
    have hvalue := hmakes.readValue_eq_ok hread
    rw [hvalid]
    refine ⟨one, ?_, one, hone, wf.valueEq_self_of_readValue hvalue⟩
    rw [Graph.validate_eq_readValue hlength, hvalue]

/-- Bindings of one prefix to the namespace of units. -/
def unitsAs (prefixPart : String) : Bindings := Bindings.empty.bind 0 (some prefixPart) "urn:units"

/-- The name of a unit as the type of all named units reads it. -/
def unitName (prefixPart localPart : String) : TypedValue :=
  .atomic ⟨.qName ⟨some "urn:units", localPart, some prefixPart⟩, ⟨45⟩, .qName⟩

/-- Three named units, and two of them that are stated with another prefix. -/
def namedUnits : List Step := [
  .setBindings (unitsAs "a"),
  .define (.restriction (Builtin.primitive .qName).handle
    { enumeration := ["a:metre", "a:second", "a:gram"] }),
  .setBindings (unitsAs "b"),
  .define (.restriction ⟨45⟩ { enumeration := ["b:metre", "b:second"] })]

/-- The prefix of a text does not matter, only the namespace that it stands for. -/
theorem run_isValid_enumeration_namedUnits :
    Makes namedUnits (start.run (namedUnits.take 3))
        (.restriction ⟨45⟩ { enumeration := ["b:metre", "b:second"] })
        (.simpleType ⟨none, some ⟨45⟩, .atomic .qName, none, .plain,
          { whiteSpace := some .collapse,
            enumeration := some [unitName "b" "metre", unitName "b" "second"] }⟩) ∧
      (start.run namedUnits).graph.isValid .standard (some (unitsAs "c")) ⟨46⟩ " c:metre" = true ∧
      (start.run namedUnits).graph.isValid .standard (some (unitsAs "b")) ⟨46⟩ "b:second" = true ∧
      (start.run namedUnits).graph.isValid .standard (some (unitsAs "c")) ⟨46⟩ "c:gram" = false := by
  have hmakes : Makes namedUnits (start.run (namedUnits.take 3))
      (.restriction ⟨45⟩ { enumeration := ["b:metre", "b:second"] })
      (.simpleType ⟨none, some ⟨45⟩, .atomic .qName, none, .plain,
        { whiteSpace := some .collapse,
          enumeration := some [unitName "b" "metre", unitName "b" "second"] }⟩) :=
    ⟨namedUnits.take 3, [], rfl, rfl, by decide +kernel⟩
  have hnext : (start.run (namedUnits.take 3)).graph.next = ⟨46⟩ := by decide +kernel
  have hbindings : (start.run (namedUnits.take 3)).bindings = unitsAs "b" := by decide +kernel
  obtain ⟨hvalid, hself⟩ := run_isValid_enumeration hmakes (List.cons_ne_nil _ _)
  rw [hnext, hbindings] at hvalid hself
  refine ⟨hmakes, ?_, hself "b:second" (by simp) (by decide), by decide +kernel⟩
  exact (hvalid .standard (some (unitsAs "c")) " c:metre").mpr ⟨unitName "c" "metre",
    by decide +kernel, "b:metre", by simp, unitName "b" "metre", by decide +kernel, rfl⟩

end Builder

end SimpleTypes
