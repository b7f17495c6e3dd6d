import SimpleTypes.Proofs.Name.Resolution
import SimpleTypes.Proofs.Schema.Origins
import SimpleTypes.Proofs.Validation.Integers
import SimpleTypes.Proofs.Validation.Modes
import SimpleTypes.Proofs.Value.Coherence

/-!
# Qualified names as values

Where only the namespace and the local part of a name count, a prefix can be exchanged for
another that stands for the same namespace, or for none. The two names are tested side by side:
each facet admits both or refuses both.

* `parallel_checkAtom` and `parallel_checkEnumeration`: equal values without digits pass the same
  facets, but for the facets that measure the length of the text.
* `run_whiteSpace_of_ne_string`: all atomic types of a run but the strings collapse blanks.
* `run_validate_names`: what this means for two texts of one name, and for a prefix that stands
  for no namespace.
-/

namespace SimpleTypes

variable {limits : Limits} {bindings? bindings?' : Option Bindings} {handle : Handle}
  {type : SimpleType} {primitive : Primitive} {text text' localPart : String}
  {prefixPart prefixPart' uri? : Option String}

/-! ## Facets -/

/-- Whether two texts are invalid for causes of one kind. -/
def Invalid.SameKind (cause cause' : Invalid) : Prop := cause.kind = cause'.kind

/-- Whether two errors are invalid texts of one kind. -/
def Error.SameKind (error error' : Error) : Prop :=
  ∃ kind, error.kind? = some kind ∧ error'.kind? = some kind

theorem parallel_ofInvalid {α β : Type} {R : α → β → Prop} {x : Except Invalid α}
    {y : Except Invalid β} (h : Parallel Invalid.SameKind R x y) :
    Parallel Error.SameKind R (Error.ofInvalid x) (Error.ofInvalid y) := by
  refine Parallel.mapError ?_
  cases h with
  | ok hab => exact .ok hab
  | error hkind => exact .error ⟨_, rfl, congrArg some (Eq.symm hkind)⟩

namespace FacetSet

variable {facets : FacetSet} {a b : Atom} {v w : TypedValue}

theorem parallel_demand {holds holds' : Bool} {cause cause' : Invalid} (h : holds = holds')
    (hkind : cause.SameKind cause') :
    Parallel Invalid.SameKind Eq (demand holds cause) (demand holds' cause') := by
  subst h
  cases holds with
  | true => exact .ok rfl
  | false => exact .error hkind

theorem parallel_testFacet {α : Type} {test test' : α → Except Invalid Unit}
    (h : ∀ facet, Parallel Invalid.SameKind Eq (test facet) (test' facet)) (facet? : Option α) :
    Parallel Invalid.SameKind Eq (testFacet facet? test) (testFacet facet? test') := by
  cases facet? with
  | none => exact .ok rfl
  | some facet => exact h facet

theorem checkLength_of_hasLength_eq_false (h : facets.hasLength = false) (count : Nat) :
    facets.checkLength count = .ok () := by
  simp only [hasLength, Bool.or_eq_false_iff, Option.isSome_eq_false_iff,
    Option.isNone_iff_eq_none] at h
  obtain ⟨⟨hlength, hleast⟩, hmost⟩ := h
  unfold checkLength
  rw [hlength, hleast, hmost]
  rfl

/-- Equal atoms are on the same side of each bound. -/
theorem parallel_checkRange (heq : a.valueEq b = true) :
    Parallel Invalid.SameKind Eq (facets.checkRange a) (facets.checkRange b) := by
  refine .forM fun kind _ => ?_
  unfold checkBound
  refine parallel_testFacet (fun bound => ?_) _
  have hadmits : bound.admits a = bound.admits b := by
    rw [Bound.admits, Bound.admits, Atom.order?_congr heq]
  exact parallel_demand hadmits rfl

theorem parallel_checkAtom (hlength : facets.hasLength = false) (heq : a.valueEq b = true)
    (ha : a.decimal? = none) (hb : b.decimal? = none) :
    Parallel Invalid.SameKind Eq (facets.checkAtom a) (facets.checkAtom b) := by
  have hpassed (count? : Option Nat) : testFacet count? facets.checkLength = .ok () :=
    testFacet_eq_ok.mpr fun count _ => checkLength_of_hasLength_eq_false hlength count
  unfold checkAtom
  rw [hpassed, hpassed, ha, hb]
  exact parallel_checkRange heq

/-- Equal values equal the same enumerated values. -/
theorem parallel_checkEnumeration (heq : v.valueEq w = true) :
    Parallel Invalid.SameKind Eq (facets.checkEnumeration v) (facets.checkEnumeration w) := by
  have hone (one : TypedValue) : one.valueEq v = one.valueEq w := by
    rw [Bool.eq_iff_iff]
    exact ⟨fun hv => TypedValue.valueEq_trans hv heq,
      fun hw => TypedValue.valueEq_trans hw (TypedValue.valueEq_symm heq)⟩
  unfold checkEnumeration
  refine parallel_testFacet (fun allowed => ?_) _
  simp only [hone]
  exact parallel_demand rfl rfl

end FacetSet

/-! ## Names -/

/-- Whether the values of a primitive type are qualified names. -/
def Primitive.IsOfNames (primitive : Primitive) : Prop :=
  primitive = .qName ∨ primitive = .notationName

theorem Primitive.IsOfNames.readAtomic_eq (h : primitive.IsOfNames) (rule : LexicalRule)
    (text : String) (bindings? : Option Bindings) (limits : Limits) :
    readAtomic primitive rule text bindings? limits
      = Native.qName <$> Error.ofInvalid (readQName text bindings?) := by
  rcases h with rfl | rfl <;> rfl

/-- A name that lies somewhere is read, and then tested. -/
theorem readAtom_of_isQualified (hcollapse : type.facets.whiteSpace = some .collapse)
    (hprimitive : primitive.IsOfNames)
    (hname : IsQualified (WhiteSpace.collapse.normalize text) prefixPart localPart)
    (huri : ResolvesTo prefixPart bindings? uri?) :
    readAtom limits bindings? handle type primitive text = (do
      Error.ofInvalid (type.facets.checkAtom
        ⟨.qName ⟨uri?, localPart, prefixPart⟩, handle, primitive⟩)
      Error.ofInvalid (type.facets.checkEnumeration
        (.atomic ⟨.qName ⟨uri?, localPart, prefixPart⟩, handle, primitive⟩))
      return ⟨.qName ⟨uri?, localPart, prefixPart⟩, handle, primitive⟩) := by
  have hread : readQName (WhiteSpace.collapse.normalize text) bindings?
      = .ok ⟨uri?, localPart, prefixPart⟩ :=
    readQName_eq_ok.mpr ⟨hname, huri⟩
  have hnative : readAtomic primitive type.rule (normalizeText (some .collapse) text) bindings?
      limits = .ok (.qName ⟨uri?, localPart, prefixPart⟩) := by
    rw [hprimitive.readAtomic_eq, normalizeText, hread]
    rfl
  simp only [readAtom, hcollapse, hnative]
  rfl

/-- Two texts of one name are read side by side. -/
theorem parallel_readAtom (hcollapse : type.facets.whiteSpace = some .collapse)
    (hprimitive : primitive.IsOfNames) (hlength : type.facets.hasLength = false)
    (hname : IsQualified (WhiteSpace.collapse.normalize text) prefixPart localPart)
    (hname' : IsQualified (WhiteSpace.collapse.normalize text') prefixPart' localPart)
    (huri : ResolvesTo prefixPart bindings? uri?) (huri' : ResolvesTo prefixPart' bindings?' uri?) :
    Parallel Error.SameKind (fun a b => a.valueEq b = true)
      (readAtom limits bindings? handle type primitive text)
      (readAtom limits bindings?' handle type primitive text') := by
  rw [readAtom_of_isQualified hcollapse hprimitive hname huri,
    readAtom_of_isQualified hcollapse hprimitive hname' huri']
  have heq : (⟨.qName ⟨uri?, localPart, prefixPart⟩, handle, primitive⟩ : Atom).valueEq
      ⟨.qName ⟨uri?, localPart, prefixPart'⟩, handle, primitive⟩ = true := by
    simp [Atom.valueEq, Native.valueEq, QNameValue.valueEq]
  refine (parallel_ofInvalid (FacetSet.parallel_checkAtom hlength heq rfl rfl)).bind fun _ _ _ => ?_
  refine (parallel_ofInvalid (FacetSet.parallel_checkEnumeration ?_)).bind fun _ _ _ => .ok heq
  exact heq

/-- The text that is read of a name is its canonical text. -/
theorem canonical_of_readAtom {atom : Atom} (hcollapse : type.facets.whiteSpace = some .collapse)
    (hprimitive : primitive.IsOfNames)
    (h : readAtom limits bindings? handle type primitive text = .ok atom) :
    atom.canonical = WhiteSpace.collapse.normalize text := by
  obtain ⟨native, hnative, rfl, -⟩ := readAtom_eq_ok.mp h
  rw [hprimitive.readAtomic_eq, hcollapse] at hnative
  obtain ⟨name, hname, rfl⟩ := map_eq_ok.mp hnative
  exact text_of_readQName (Error.ofInvalid_eq_ok.mp hname)

/-! ## Runs -/

namespace Builder

variable {steps : List Step}

/-- All atomic types of a run but the strings collapse blanks. -/
theorem run_whiteSpace_of_ne_string (h : (start.run steps).graph.simpleType? handle = some type)
    (hvariety : type.variety = .atomic primitive) (hne : primitive ≠ .string) :
    type.facets.whiteSpace = some .collapse := by
  have hbuiltins : ∀ source ∈ Builtin.all, ∀ primitive ∈ source.simpleType.primitive?,
      primitive ≠ .string → source.simpleType.facets.whiteSpace = some .collapse := by decide
  refine simpleType_induction (P := fun _ type => ∀ primitive, type.variety = .atomic primitive →
    primitive ≠ .string → type.facets.whiteSpace = some .collapse)
    ?_ ?_ ?_ ?_ h primitive hvariety hne
  · intro source primitive hvariety
    refine hbuiltins source source.mem_all primitive ?_
    unfold SimpleType.primitive?
    rw [hvariety]
    rfl
  · intro builder baseHandle base restriction type hrestriction hbase primitive hvariety hne
    have hmode := hrestriction.atLeast_base
    rw [hbase primitive (hrestriction.variety.symm.trans hvariety) hne] at hmode
    exact WhiteSpace.atLeast_collapse_iff.mp hmode
  · intro handle type hlist primitive hvariety
    obtain ⟨item, hitem⟩ := hlist.variety
    rw [hitem] at hvariety
    cases hvariety
  · intro handle type hunion primitive hvariety
    obtain ⟨members, hmembers⟩ := hunion.variety
    rw [hmembers] at hvariety
    cases hvariety

/-- Take two texts of one local part, each with a prefix or none, under bindings of its own, and
both in the same namespace or both in none. A type of names without facets of lengths accepts
both, with equal values, or refuses both for causes of one kind. What it accepts is written as
it stood, less the blanks around it. Every type of names refuses a prefix that lies nowhere. -/
theorem run_validate_names (htype : (start.run steps).graph.simpleType? handle = some type)
    (hvariety : type.variety = .atomic primitive) (hprimitive : primitive.IsOfNames) :
    (type.facets.hasLength = false →
      ∀ limits bindings? bindings?' text text' prefixPart prefixPart' localPart uri?,
        text.length ≤ limits.lexicalLength → text'.length ≤ limits.lexicalLength →
        IsQualified (WhiteSpace.collapse.normalize text) prefixPart localPart →
        IsQualified (WhiteSpace.collapse.normalize text') prefixPart' localPart →
        ResolvesTo prefixPart bindings? uri? → ResolvesTo prefixPart' bindings?' uri? →
        Parallel Error.SameKind (fun v w => v.valueEq w = true)
            ((start.run steps).graph.validate limits bindings? handle text)
            ((start.run steps).graph.validate limits bindings?' handle text') ∧
          ∀ value, (start.run steps).graph.validate limits bindings? handle text = .ok value →
            value.canonical = WhiteSpace.collapse.normalize text) ∧
    ∀ limits bindings? text before localPart, text.length ≤ limits.lexicalLength →
      IsQualified (WhiteSpace.collapse.normalize text) (some before) localPart →
      IsUnresolved before bindings? →
      IsRefusal ((start.run steps).graph.validate limits bindings? handle text)
        (.lexical .qName) := by
  have hne : primitive ≠ .string := by rcases hprimitive with rfl | rfl <;> decide
  have hcollapse := run_whiteSpace_of_ne_string htype hvariety hne
  have hvalidate (limits : Limits) (bindings? : Option Bindings) (text : String)
      (h : text.length ≤ limits.lexicalLength) :
      (start.run steps).graph.validate limits bindings? handle text
        = .atomic <$> readAtom limits bindings? handle type primitive text := by
    rw [Graph.validate_eq_readValue h, (run_wellFormed steps).readValue_eq htype, hvariety]
  constructor
  · intro hnoLength limits bindings? bindings?' text text' prefixPart prefixPart' localPart uri?
      hlength hlength' hname hname' huri huri'
    rw [hvalidate _ _ _ hlength, hvalidate _ _ _ hlength']
    refine ⟨(parallel_readAtom hcollapse hprimitive hnoLength hname hname' huri huri').map
      fun _ _ heq => heq, ?_⟩
    rintro _ hvalue
    obtain ⟨atom, hatom, rfl⟩ := map_eq_ok.mp hvalue
    exact canonical_of_readAtom hcollapse hprimitive hatom
  · intro limits bindings? text before localPart hlength hname hunresolved
    obtain ⟨cause, hcause, hkind⟩ := readQName_eq_error hname hunresolved
    refine ⟨cause, ?_, hkind⟩
    have hnative : readAtomic primitive type.rule (normalizeText (some .collapse) text) bindings?
        limits = .error (.invalid cause) := by
      rw [hprimitive.readAtomic_eq, normalizeText, hcause]
      rfl
    rw [hvalidate _ _ _ hlength]
    simp only [readAtom, hcollapse, hnative]
    rfl

/-- Two named units, and no other names. -/
def unitNames : List Step := [
  .setBindings (.ofPairs [(some "a", "urn:units")]),
  .define (.restriction (Builtin.primitive .notationName).handle
    { enumeration := ["a:metre", "a:second"] })]

/-- The prefix `c` is bound twice and `d` is bound and taken back. -/
def rebound : Bindings :=
  .ofPairs [(some "c", "urn:other"), (some "d", "urn:units"), (some "c", "urn:units"),
    (some "d", "")]

/-- The later binding of a prefix and a default namespace give the same name, and so the same
verdict. -/
theorem run_validate_names_rebound :
    Parallel Error.SameKind (fun v w => v.valueEq w = true)
        ((start.run unitNames).graph.validate .standard (some rebound) ⟨45⟩ "\tc:metre ")
        ((start.run unitNames).graph.validate .standard (some (.ofPairs [(none, "urn:units")])) ⟨45⟩
          "metre") ∧
      (∃ value, (start.run unitNames).graph.validate .standard (some rebound) ⟨45⟩ "\tc:metre "
        = .ok value ∧ value.canonical = "c:metre") ∧
      IsRefusal ((start.run unitNames).graph.validate .standard (some rebound) ⟨45⟩ "d:metre")
        (.lexical .qName) := by
  have htype : ((start.run unitNames).graph.simpleType? ⟨45⟩).map
      (fun type => (type.variety, type.facets.hasLength)) = some (.atomic .notationName, false) := by
    decide +kernel
  obtain ⟨type, htype, hkept⟩ := Option.map_eq_some_iff.mp htype
  obtain ⟨hvariety, hlength⟩ := Prod.mk.inj hkept
  obtain ⟨hnames, hunresolved⟩ := run_validate_names htype hvariety (.inr rfl)
  have hletter : isNCName "c".toList = true := by decide +kernel
  have hletter' : isNCName "d".toList = true := by decide +kernel
  have hlocal : isNCName "metre".toList = true := by decide +kernel
  have htext : WhiteSpace.collapse.normalize "\tc:metre " = "c:metre" := by decide +kernel
  have hmetre : IsQualified (WhiteSpace.collapse.normalize "\tc:metre ") (some "c") "metre" := by
    rw [htext]
    exact (.prefixed hletter hlocal : IsQualified ("c" ++ ":" ++ "metre") _ _)
  have hplain : IsQualified (WhiteSpace.collapse.normalize "metre") none "metre" := .plain hlocal
  have hgone : IsQualified (WhiteSpace.collapse.normalize "d:metre") (some "d") "metre" :=
    (.prefixed hletter' hlocal : IsQualified ("d" ++ ":" ++ "metre") _ _)
  have hbound : ResolvesTo (some "c") (some rebound) (some "urn:units") :=
    .bound (by decide) (by decide) ⟨[(some "d", "")], _, rfl, by simp⟩
  have hdefault : ResolvesTo none (some (.ofPairs [(none, "urn:units")])) (some "urn:units") :=
    .default (by decide) ⟨[], [], rfl, by simp⟩
  have hunbound : IsUnresolved "d" (some rebound) :=
    .unbound (by decide) (Bindings.lookup?_eq_none.mp (by decide))
  obtain ⟨hparallel, hcanonical⟩ := hnames hlength .standard _ _ _ _ _ _ _ _ (by decide +kernel)
    (by decide +kernel) hmetre hplain hbound hdefault
  have hvalue : (start.run unitNames).graph.validate .standard (some rebound) ⟨45⟩ "\tc:metre "
      = .ok (.atomic ⟨.qName ⟨some "urn:units", "metre", some "c"⟩, ⟨45⟩, .notationName⟩) := by
    decide +kernel
  exact ⟨hparallel, ⟨_, hvalue, (hcanonical _ hvalue).trans htext⟩,
    hunresolved .standard _ _ _ _ (by decide +kernel) hgone hunbound⟩

end Builder

end SimpleTypes
