import SimpleTypes.Proofs.Schema.Origins
import SimpleTypes.Proofs.Text.Words

/-!
# White space modes along derivations

The built-in strings demand that the blanks of their texts have been treated: a
`normalizedString` has no tab, line feed or carriage return, and a `token` no blank but
single spaces between words. Their modes treat the blanks before the text is read. A
restriction keeps the rule of its base and may strengthen the mode, but not weaken it. So
what the two rules demand is never missing.

* `WhiteSpace.AtLeast`: one mode is as strong as another.
* `SimpleType.SuitsRule`: the mode of a type is one that its rule needs.
* `LexicalRule.formsOf`: the faults that a reading of an atomic text can find. With a mode
  that suits the rule, neither fault of blanks is found (`failsWith_readAtomic_normalized`).
* `run_whiteSpace`: this holds in the graph of every run.
-/

namespace SimpleTypes

variable {limits : Limits} {bindings? : Option Bindings} {handle ancestor : Handle}
  {type base : SimpleType} {rule : LexicalRule} {mode inherited stated : Option WhiteSpace}
  {primitive : Primitive} {text : String}

/-! ## Modes -/

/-- Whether a mode is set and as strong as another one, if that is set. -/
def WhiteSpace.AtLeast (mode inherited : Option WhiteSpace) : Prop :=
  ∀ old ∈ inherited, ∃ new ∈ mode, old.strength ≤ new.strength

namespace WhiteSpace

instance (mode inherited : Option WhiteSpace) : Decidable (AtLeast mode inherited) :=
  inferInstanceAs (Decidable (∀ old ∈ inherited, ∃ new ∈ mode, old.strength ≤ new.strength))

theorem atLeast_refl (mode : Option WhiteSpace) : AtLeast mode mode :=
  fun old h => ⟨old, h, Nat.le_refl _⟩

theorem atLeast_none (mode : Option WhiteSpace) : AtLeast mode none := by
  rintro _ ⟨⟩

theorem AtLeast.trans {middle : Option WhiteSpace} (h : AtLeast mode middle)
    (h' : AtLeast middle inherited) : AtLeast mode inherited := by
  intro old hold
  obtain ⟨between, hbetween, hle⟩ := h' old hold
  obtain ⟨new, hnew, hle'⟩ := h between hbetween
  exact ⟨new, hnew, Nat.le_trans hle hle'⟩

/-- A stated mode that is no weakening is as strong as the inherited one. Without a stated
mode the inherited one stays. -/
theorem atLeast_of_weakening? (h : Builder.weakening? inherited stated = none) :
    AtLeast (stated.or inherited) inherited := by
  rintro old rfl
  cases stated with
  | none => exact ⟨old, rfl, Nat.le_refl _⟩
  | some new =>
    have hle : old.strength ≤ new.strength := by simpa [Builder.weakening?] using h
    exact ⟨new, rfl, hle⟩

theorem atLeast_replace_iff :
    AtLeast mode (some .replace) ↔ mode = some .replace ∨ mode = some .collapse := by
  constructor
  · intro h
    obtain ⟨new, rfl, hle⟩ := h .replace rfl
    cases new with
    | preserve => exact absurd hle (by decide)
    | replace => exact .inl rfl
    | collapse => exact .inr rfl
  · rintro (rfl | rfl) _ ⟨⟩
    · exact ⟨_, rfl, Nat.le_refl _⟩
    · exact ⟨_, rfl, by decide⟩

theorem atLeast_collapse_iff : AtLeast mode (some .collapse) ↔ mode = some .collapse := by
  constructor
  · intro h
    obtain ⟨new, rfl, hle⟩ := h .collapse rfl
    cases new with
    | collapse => rfl
    | _ => exact absurd hle (by decide)
  · rintro rfl
    exact atLeast_refl _

end WhiteSpace

/-! ## Rules -/

namespace LexicalRule

/-- The weakest mode that gives a rule the blanks it demands. -/
def leastMode : LexicalRule → Option WhiteSpace
  | plain | integer => none
  | normalizedString => some .replace
  | token | language | name | ncName | nmtoken => some .collapse

/-- The faults that a reading under a rule can find in the form of a text. -/
def formsOf (primitive : Primitive) (rule : LexicalRule) : List LexicalForm :=
  match primitive with
  | .string =>
    match rule with
    | plain | integer => []
    | normalizedString => [.normalizedString]
    | token => [.token]
    | language => [.language .primaryTag, .language .subsequentTag]
    | name => [.name]
    | ncName => [.ncName]
    | nmtoken => [.nmtoken]
  | .boolean => [.boolean]
  | .decimal => [if rule = integer then .integer else .decimal]
  | .float => [.float]
  | .double => [.double]
  | .duration => [.duration]
  | .temporal kind => [.temporal kind]
  | .hexBinary => [.hexBinary]
  | .base64Binary => [.base64Binary]
  | .anyUri => [.anyUri]
  | .qName | .notationName => [.qName]

end LexicalRule

/-- Whether an error is a fault in the form of a text, of one of the given forms. -/
def Invalid.IsOfForm (forms : List LexicalForm) (cause : Invalid) : Prop :=
  ∃ form ∈ forms, cause.kind = .lexical form

/-- Whether an error is an exceeded limit or a fault in the form of a text. -/
def Error.IsOfForm (forms : List LexicalForm) : Error → Prop
  | .invalid cause => cause.IsOfForm forms
  | .limit _ => True
  | .misuse _ | .definition _ => False

section Forms

variable {α : Type} {form : LexicalForm} {forms : List LexicalForm}

theorem failsWith_accept (h : form ∈ forms) (text : String) (holds : Bool) :
    FailsWith (Invalid.IsOfForm forms) (accept form text holds) := by
  cases holds with
  | true => exact failsWith_ok text
  | false => exact failsWith_error ⟨form, h, rfl⟩

theorem failsWith_orInvalid (h : form ∈ forms) (text : String) (value? : Option α) :
    FailsWith (Invalid.IsOfForm forms) (orInvalid form text value?) := by
  cases value? with
  | some value => exact failsWith_ok value
  | none => exact failsWith_error ⟨form, h, rfl⟩

theorem failsWith_ofInvalid_form {x : Except Invalid α} (h : FailsWith (Invalid.IsOfForm forms) x) :
    FailsWith (Error.IsOfForm forms) (Error.ofInvalid x) :=
  FailsWith.mapError h

theorem failsWith_ofLimit_form (x : Except LimitFault α) :
    FailsWith (Error.IsOfForm forms) (Error.ofLimit x) :=
  FailsWith.mapError fun _ _ => trivial

theorem failsWith_readString (rule : LexicalRule) (text : String) :
    FailsWith (Invalid.IsOfForm (rule.formsOf .string)) (readString rule text) := by
  cases rule with
  | plain | integer => exact failsWith_ok text
  | language =>
    simp only [readString]
    cases languageFault? text.toList with
    | none => exact failsWith_ok text
    | some fault =>
      refine failsWith_error ⟨.language fault, ?_, rfl⟩
      cases fault <;> simp [LexicalRule.formsOf]
  | _ => exact failsWith_accept (List.mem_singleton.mpr rfl) _ _

theorem failsWith_readBoolean (text : String) :
    FailsWith (Invalid.IsOfForm [.boolean]) (readBoolean text) := by
  unfold readBoolean
  split_ifs
  · exact failsWith_ok true
  · exact failsWith_ok false
  · exact failsWith_error ⟨.boolean, List.mem_singleton.mpr rfl, rfl⟩

theorem failsWith_readDecimal (rule : LexicalRule) (text : String) (limits : Limits) :
    FailsWith (Error.IsOfForm (rule.formsOf .decimal)) (readDecimal rule text limits) := by
  refine (failsWith_ofLimit_form _).bind ?_
  intro _ _
  have hform := List.mem_singleton.mpr (rfl :
    (if rule = .integer then LexicalForm.integer else .decimal) = _)
  dsimp only
  split
  · exact failsWith_error ⟨_, hform, rfl⟩
  · exact failsWith_ofInvalid_form (failsWith_orInvalid hform _ _)

theorem failsWith_readTemporal (form : LexicalForm) (parse? : List Char → Option α) (text : String)
    (limits : Limits) :
    FailsWith (Error.IsOfForm [form]) (readTemporal form parse? text limits) :=
  (failsWith_ofLimit_form _).bind fun _ _ =>
    failsWith_ofInvalid_form (failsWith_orInvalid (List.mem_singleton.mpr rfl) _ _)

theorem failsWith_readQName (text : String) (bindings? : Option Bindings) :
    FailsWith (Invalid.IsOfForm [.qName]) (readQName text bindings?) := by
  have hform (cause : Invalid) (h : cause.kind = .lexical .qName) :
      cause.IsOfForm [.qName] := ⟨.qName, List.mem_singleton.mpr rfl, h⟩
  have hresolve (before : Option String) :
      FailsWith (Invalid.IsOfForm [.qName]) (resolve before bindings?) := by
    unfold resolve
    split
    · split
      · exact failsWith_ok _
      · exact failsWith_error (hform _ rfl)
    · exact failsWith_error (hform _ rfl)
    · exact failsWith_ok _
    · exact failsWith_ok _
  unfold readQName
  dsimp only
  split
  · exact failsWith_error (hform _ rfl)
  · exact (hresolve _).bind fun _ _ => failsWith_ok _

/-- A text that is read as a value of a primitive type exceeds a limit or has a fault of one
of its forms. -/
theorem failsWith_readAtomic (primitive : Primitive) (rule : LexicalRule) (text : String)
    (bindings? : Option Bindings) (limits : Limits) :
    FailsWith (Error.IsOfForm (rule.formsOf primitive))
      (readAtomic primitive rule text bindings? limits) := by
  have hsingle (form : LexicalForm) : form ∈ [form] := List.mem_singleton.mpr rfl
  cases primitive with
  | string => exact (failsWith_ofInvalid_form (failsWith_readString rule text)).map _
  | boolean => exact (failsWith_ofInvalid_form (failsWith_readBoolean text)).map _
  | decimal => exact (failsWith_readDecimal rule text limits).map _
  | float | double =>
    exact (failsWith_ofInvalid_form (failsWith_orInvalid (hsingle _) _ _)).map _
  | duration | temporal => exact (failsWith_readTemporal _ _ text limits).map _
  | hexBinary | base64Binary =>
    exact (failsWith_ofInvalid_form
      (FailsWith.mapError fun _ _ => ⟨_, hsingle _, rfl⟩)).map _
  | anyUri => exact (failsWith_ofInvalid_form (failsWith_accept (hsingle _) _ _)).map _
  | qName | notationName => exact (failsWith_ofInvalid_form (failsWith_readQName text _)).map _

end Forms

/-! ## Blanks -/

/-- Whether an error says that the blanks of a text were not treated. -/
def Error.IsAboutBlanks (error : Error) : Prop :=
  error.kind? = some (.lexical .normalizedString) ∨ error.kind? = some (.lexical .token)

/-- A facet, a limit or a union says nothing about blanks. -/
theorem Error.not_isAboutBlanks_of_isOfTypes (error : Error) (h : error.IsOfTypes) :
    ¬ error.IsAboutBlanks := by
  cases error with
  | invalid cause =>
    cases cause with
    | union => rintro (⟨⟨⟩⟩ | ⟨⟨⟩⟩)
    | _ =>
      have hkind : ErrorKind.isFacetViolation _ = true := h
      rintro (hform | hform)
      · rw [Option.some.inj hform] at hkind
        cases hkind
      · rw [Option.some.inj hform] at hkind
        cases hkind
  | limit => rintro (⟨⟨⟩⟩ | ⟨⟨⟩⟩)
  | misuse | definition => cases h

theorem isNormalized_normalizeText (h : WhiteSpace.AtLeast mode (some .replace)) (text : String) :
    isNormalized (normalizeText mode text).toList = true := by
  rcases WhiteSpace.atLeast_replace_iff.mp h with rfl | rfl
  · simp only [normalizeText, WhiteSpace.normalize, WhiteSpace.apply, String.toList_ofList]
    exact isNormalized_replaceBlanks text.toList
  · simp only [normalizeText, WhiteSpace.normalize, WhiteSpace.apply, String.toList_ofList]
    exact (isToken_iff.mp (isToken_collapseBlanks text.toList)).1

theorem isToken_normalizeText (h : WhiteSpace.AtLeast mode (some .collapse)) (text : String) :
    isToken (normalizeText mode text).toList = true := by
  rw [WhiteSpace.atLeast_collapse_iff.mp h]
  simp only [normalizeText, WhiteSpace.normalize, WhiteSpace.apply, String.toList_ofList]
  exact isToken_collapseBlanks text.toList

/-- With a mode that suits the rule, the blanks of a text are never at fault. -/
theorem failsWith_readAtomic_normalized (h : WhiteSpace.AtLeast mode rule.leastMode) :
    FailsWith (¬ Error.IsAboutBlanks ·)
      (readAtomic primitive rule (normalizeText mode text) bindings? limits) := by
  by_cases hstring : primitive = .string ∧ (rule = .normalizedString ∨ rule = .token)
  · -- What the rule demands the mode has brought about.
    obtain ⟨rfl, rfl | rfl⟩ := hstring
    · have hread : readString .normalizedString (normalizeText mode text)
          = .ok (normalizeText mode text) :=
        accept_eq_ok.mpr ⟨isNormalized_normalizeText h text, rfl⟩
      simp only [readAtomic, hread]
      exact failsWith_ok _
    · have hread : readString .token (normalizeText mode text) = .ok (normalizeText mode text) :=
        accept_eq_ok.mpr ⟨isToken_normalizeText h text, rfl⟩
      simp only [readAtomic, hread]
      exact failsWith_ok _
  · -- Other readings have faults of other forms.
    have hforms : ∀ form ∈ rule.formsOf primitive, form ≠ .normalizedString ∧ form ≠ .token := by
      intro form hform
      cases primitive with
      | string =>
        cases rule with
        | plain | integer => cases hform
        | normalizedString => exact absurd ⟨rfl, .inl rfl⟩ hstring
        | token => exact absurd ⟨rfl, .inr rfl⟩ hstring
        | language =>
          simp only [LexicalRule.formsOf, List.mem_cons, List.not_mem_nil, or_false] at hform
          rcases hform with rfl | rfl <;> exact ⟨by rintro ⟨⟩, by rintro ⟨⟩⟩
        | _ =>
          rw [List.mem_singleton.mp hform]
          exact ⟨by rintro ⟨⟩, by rintro ⟨⟩⟩
      | decimal =>
        rw [List.mem_singleton.mp hform]
        split <;> exact ⟨by rintro ⟨⟩, by rintro ⟨⟩⟩
      | _ =>
        rw [List.mem_singleton.mp hform]
        exact ⟨by rintro ⟨⟩, by rintro ⟨⟩⟩
    refine (failsWith_readAtomic primitive rule _ bindings? limits).mono ?_
    intro error herror
    cases error with
    | invalid cause =>
      obtain ⟨form, hform, hkind⟩ := herror
      obtain ⟨hnormalized, htoken⟩ := hforms form hform
      rintro (heq | heq)
      · rw [Error.kind?, hkind] at heq
        exact hnormalized (by simpa using heq)
      · rw [Error.kind?, hkind] at heq
        exact htoken (by simpa using heq)
    | limit => rintro (⟨⟨⟩⟩ | ⟨⟨⟩⟩)
    | misuse | definition => cases herror

/-! ## Types -/

/-- Whether the mode of a type is as strong as its rule needs. Lists collapse blanks. -/
structure SimpleType.SuitsRule (type : SimpleType) : Prop where
  rule : WhiteSpace.AtLeast type.facets.whiteSpace type.rule.leastMode
  list : ∀ item, type.variety = .list item → type.facets.whiteSpace = some .collapse

namespace Builtin

theorem suitsRule (source : Builtin) : source.simpleType.SuitsRule := by
  have hrules : ∀ source ∈ all, WhiteSpace.AtLeast source.facets.whiteSpace source.rule.leastMode := by
    decide
  have hlists : ∀ source ∈ all, ∀ item ∈ all, source.shape = .list item →
      source.facets.whiteSpace = some .collapse := by decide
  refine ⟨hrules source (mem_all source), ?_⟩
  intro item hvariety
  cases hshape : source.shape with
  | atomic => simp [simpleType, hshape] at hvariety
  | list item => exact hlists source (mem_all source) item (mem_all item) hshape

theorem atLeast_base {source base : Builtin} (h : source.base? = some base) :
    WhiteSpace.AtLeast source.facets.whiteSpace base.facets.whiteSpace := by
  have hmodes : ∀ source ∈ all, ∀ base ∈ source.base?,
      WhiteSpace.AtLeast source.facets.whiteSpace base.facets.whiteSpace := by decide
  exact hmodes source (mem_all source) base h

end Builtin

namespace Builder

variable {steps : List Step}

theorem IsRestrictionOf.atLeast_base {builder : Builder} {baseHandle : Handle}
    {restriction : Restriction} (h : IsRestrictionOf steps builder baseHandle base restriction type) :
    WhiteSpace.AtLeast type.facets.whiteSpace base.facets.whiteSpace := by
  rw [h.whiteSpace]
  exact WhiteSpace.atLeast_of_weakening? (restrictFacets_eq_ok h.facets).2.1

/-- The mode of every simple type of a run suits its rule. -/
theorem run_suitsRule (h : (start.run steps).graph.simpleType? handle = some type) :
    type.SuitsRule := by
  refine simpleType_induction (P := fun _ type => type.SuitsRule) Builtin.suitsRule ?_ ?_ ?_ h
  · intro builder baseHandle base restriction type hrestriction hbase
    have hmode := hrestriction.atLeast_base
    refine ⟨?_, ?_⟩
    · rw [hrestriction.rule]
      exact hmode.trans hbase.rule
    · intro item hvariety
      rw [hrestriction.variety] at hvariety
      rw [hbase.list item hvariety] at hmode
      exact WhiteSpace.atLeast_collapse_iff.mp hmode
  · intro handle type hlist
    refine ⟨?_, fun _ _ => by rw [hlist.facets]⟩
    rw [hlist.rule]
    exact WhiteSpace.atLeast_none _
  · intro handle type hunion
    refine ⟨?_, fun item hvariety => ?_⟩
    · rw [hunion.rule]
      exact WhiteSpace.atLeast_none _
    · obtain ⟨members, hmembers⟩ := hunion.variety
      rw [hmembers] at hvariety
      cases hvariety

/-- The mode of every simple type of a run is as strong as that of its base. -/
theorem run_atLeast_base {baseHandle : Handle}
    (h : (start.run steps).graph.simpleType? handle = some type)
    (hhandle : type.base = some baseHandle)
    (hbase : (start.run steps).graph.simpleType? baseHandle = some base) :
    WhiteSpace.AtLeast type.facets.whiteSpace base.facets.whiteSpace := by
  have wf := run_wellFormed steps
  -- Lists and unions are derived from the type of all simple values, which has no mode.
  have hroot (hhandle' : type.base = some Builtin.anySimpleType.handle) :
      base.facets.whiteSpace = none := by
    rw [hhandle', Option.some.injEq] at hhandle
    rw [← hhandle, wf.builtins, Option.some.injEq] at hbase
    rw [← hbase]
    rfl
  cases simpleType_origin h with
  | builtin source =>
    obtain ⟨baseSource, hbaseSource, rfl⟩ := Option.map_eq_some_iff.mp hhandle
    rw [wf.builtins, Option.some.injEq] at hbase
    rw [← hbase]
    exact Builtin.atLeast_base hbaseSource
  | restriction hrestriction =>
    rw [hrestriction.base_eq, Option.some.injEq] at hhandle
    rw [← hhandle, hrestriction.simpleType?_base_run, Option.some.injEq] at hbase
    rw [← hbase]
    exact hrestriction.atLeast_base
  | list hlist =>
    rw [hroot hlist.base]
    exact WhiteSpace.atLeast_none _
  | union hunion =>
    rw [hroot hunion.base]
    exact WhiteSpace.atLeast_none _

/-- The mode of every simple type of a run is as strong as those of the types from which it
is derived. -/
theorem run_atLeast_of_derivesFrom
    (hderives : (start.run steps).graph.derivesFrom handle ancestor = true)
    (h : (start.run steps).graph.simpleType? handle = some type)
    (hancestor : (start.run steps).graph.simpleType? ancestor = some base) :
    WhiteSpace.AtLeast type.facets.whiteSpace base.facets.whiteSpace := by
  have wf := run_wellFormed steps
  refine wf.derivesFrom_induction
    (P := fun handle => ∀ type, (start.run steps).graph.simpleType? handle = some type →
      WhiteSpace.AtLeast type.facets.whiteSpace base.facets.whiteSpace) ?_ ?_ hderives type h
  · intro type htype
    obtain rfl : type = base := Option.some.inj (htype.symm.trans hancestor)
    exact WhiteSpace.atLeast_refl _
  · intro handle baseHandle type htype hhandle hbase derived hderived
    obtain rfl : type = derived := Option.some.inj (htype.symm.trans hderived)
    obtain ⟨old, hold⟩ :=
      Option.isSome_iff_exists.mp ((wf.admitsSimple htype).base baseHandle hhandle).2
    exact (run_atLeast_base htype hhandle hold).trans (hbase old hold)

/-- Validation never finds fault with the blanks of a text. -/
theorem run_not_isAboutBlanks (steps : List Step) (limits : Limits) (bindings? : Option Bindings)
    (handle : Handle) (text : String) :
    FailsWith (¬ Error.IsAboutBlanks ·)
      ((start.run steps).graph.validate limits bindings? handle text) := by
  refine (failsWith_ofLimit Error.not_isAboutBlanks_of_isOfTypes _).bind fun _ _ => ?_
  refine Graph.failsWith_readValue (fun cause => ?_) Error.not_isAboutBlanks_of_isOfTypes ?_
    handle text
  · rintro (⟨⟨⟩⟩ | ⟨⟨⟩⟩)
  · intro part type primitive text htype _
    exact failsWith_readAtomic_normalized (run_suitsRule htype).rule

/-- In the graph of every run the modes only get stronger along derivations. Every mode is
as strong as the rule of its type needs, and lists collapse blanks. So no validation finds
that a text is no `normalizedString` or no `token`. -/
theorem run_whiteSpace (steps : List Step) :
    (∀ handle ancestor type base, (start.run steps).graph.derivesFrom handle ancestor = true →
      (start.run steps).graph.simpleType? handle = some type →
        (start.run steps).graph.simpleType? ancestor = some base →
          WhiteSpace.AtLeast type.facets.whiteSpace base.facets.whiteSpace) ∧
    (∀ handle type, (start.run steps).graph.simpleType? handle = some type →
      (type.rule = .normalizedString →
        type.facets.whiteSpace = some .replace ∨ type.facets.whiteSpace = some .collapse) ∧
      (type.rule ∈ [.token, .language, .name, .ncName, .nmtoken] →
        type.facets.whiteSpace = some .collapse) ∧
      ∀ item, type.variety = .list item → type.facets.whiteSpace = some .collapse) ∧
    ∀ limits bindings? handle text error,
      (start.run steps).graph.validate limits bindings? handle text = .error error →
        error.kind? ≠ some (.lexical .normalizedString) ∧
          error.kind? ≠ some (.lexical .token) := by
  refine ⟨fun handle ancestor type base hderives h hancestor =>
    run_atLeast_of_derivesFrom hderives h hancestor, ?_, ?_⟩
  · intro handle type htype
    have hsuits := run_suitsRule htype
    refine ⟨fun hrule => ?_, fun hrule => ?_, hsuits.list⟩
    · have hmode := hsuits.rule
      rw [hrule] at hmode
      exact WhiteSpace.atLeast_replace_iff.mp hmode
    · have hleast : ∀ rule ∈ [LexicalRule.token, .language, .name, .ncName, .nmtoken],
          rule.leastMode = some .collapse := by decide
      have hmode := hsuits.rule
      rw [hleast type.rule hrule] at hmode
      exact WhiteSpace.atLeast_collapse_iff.mp hmode
  · intro limits bindings? handle text error herror
    exact not_or.mp (run_not_isAboutBlanks steps limits bindings? handle text error herror)

/-- Short lines of text, and short lines without needless blanks. The weaker mode in the
last step is refused. -/
def shortLines : List Step := [
  .define (.restriction Builtin.normalizedString.handle { maxLength := some 8 }),
  .define (.restriction ⟨45⟩ { whiteSpace := some .collapse }),
  .define (.restriction ⟨46⟩ { whiteSpace := some .replace })]

/-- The type of short lines without needless blanks. -/
def trimmedLine : SimpleType :=
  ⟨none, some ⟨45⟩, .atomic .string, none, .normalizedString,
    { whiteSpace := some .collapse, maxLength := some 8 }⟩

theorem run_whiteSpace_shortLines :
    (start.run shortLines).graph.size = 47 ∧
      (start.run shortLines).graph.derivesFrom ⟨46⟩ Builtin.normalizedString.handle = true ∧
      (start.run shortLines).graph.simpleType? ⟨46⟩ = some trimmedLine ∧
      WhiteSpace.AtLeast trimmedLine.facets.whiteSpace (some .replace) ∧
      (trimmedLine.facets.whiteSpace = some .replace ∨
        trimmedLine.facets.whiteSpace = some .collapse) ∧
      (start.run shortLines).graph.validate .standard none ⟨46⟩ "\tnine  chars\n"
        = .error (.invalid (.maxLength 8 10)) ∧
      (Error.invalid (.maxLength 8 10)).kind? ≠ some (.lexical .normalizedString) := by
  have hsize : (start.run shortLines).graph.size = 47 := by decide +kernel
  have hderives : (start.run shortLines).graph.derivesFrom ⟨46⟩ Builtin.normalizedString.handle
      = true := by decide +kernel
  have htype : (start.run shortLines).graph.simpleType? ⟨46⟩ = some trimmedLine := by
    decide +kernel
  have herror : (start.run shortLines).graph.validate .standard none ⟨46⟩ "\tnine  chars\n"
      = .error (.invalid (.maxLength 8 10)) := by decide +kernel
  obtain ⟨hstrong, hmodes, hblanks⟩ := run_whiteSpace shortLines
  exact ⟨hsize, hderives, htype,
    hstrong _ _ _ _ hderives htype ((run_wellFormed shortLines).builtins .normalizedString),
    (hmodes _ _ htype).1 rfl, herror, (hblanks _ _ _ _ _ herror).1⟩

end Builder

end SimpleTypes
