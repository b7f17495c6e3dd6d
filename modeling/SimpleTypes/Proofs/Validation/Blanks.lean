import SimpleTypes.Proofs.Schema.Runs
import SimpleTypes.Proofs.Text.Words

/-!
# Blanks between words

Where blanks are collapsed, only the words of a text count. Lists look at the
words alone, so it is the atomic types that must collapse blanks.

* `normalizeText_collapse_congr`: texts of the same words are the same once their
  blanks are collapsed.
* `readUnion_eq_or_refused`: a union hands the text on as it is. If its members
  agree on two texts, so does the union, but for the text that a refusal quotes.
* `run_validate_eq_of_words_eq`: two texts of the same words get the same result.
-/

namespace SimpleTypes

variable {limits : Limits} {bindings? : Option Bindings} {handle item : Handle} {type : SimpleType}
  {primitive : Primitive} {text text' : String} {members : List Handle}

/-! ## The three varieties -/

theorem normalizeText_collapse_congr (h : words text.toList = words text'.toList) :
    normalizeText (some .collapse) text = normalizeText (some .collapse) text' := by
  simp only [normalizeText, WhiteSpace.normalize, WhiteSpace.apply, collapseBlanks_eq, h]

theorem readAtom_congr (hcollapse : type.facets.whiteSpace = some .collapse)
    (h : words text.toList = words text'.toList) :
    readAtom limits bindings? handle type primitive text
      = readAtom limits bindings? handle type primitive text' := by
  rw [readAtom, readAtom, hcollapse, normalizeText_collapse_congr h]

/-- A list looks at the words alone, whatever its mode is. -/
theorem readList_congr {readItem : String → Except Error TypedValue}
    (h : words text.toList = words text'.toList) :
    readList limits type item readItem text = readList limits type item readItem text' := by
  rw [readList, readList, words_normalizeText, words_normalizeText, h]

/-- Two readings agree for a union if they are the same or both find the text
invalid. -/
def AgreeForUnion {α : Type} (x y : Except Error α) : Prop :=
  x = y ∨ ∃ cause cause', x = .error (.invalid cause) ∧ y = .error (.invalid cause')

/-- Why a member finds a text invalid makes no difference to the search. -/
theorem firstAccepting?_eq_of_agree {readMember readMember' : Handle → Except Error TypedValue}
    (h : ∀ member ∈ members, AgreeForUnion (readMember member) (readMember' member)) :
    firstAccepting? readMember members = firstAccepting? readMember' members := by
  induction members with
  | nil => rfl
  | cons member rest ih =>
    obtain ⟨hmember, hrest⟩ := List.forall_mem_cons.mp h
    simp only [firstAccepting?]
    rcases hmember with heq | ⟨cause, cause', hcause, hcause'⟩
    · rw [heq, ih hrest]
    · rw [hcause, hcause']
      exact ih hrest

/-- A union hands its text on as it is. If its members agree on two texts, so does
the union, but for the text that a refusal quotes. -/
theorem readUnion_eq_or_refused {readMember readMember' : Handle → Except Error TypedValue}
    (h : ∀ member ∈ members, AgreeForUnion (readMember member) (readMember' member)) :
    readUnion type members readMember text = readUnion type members readMember' text' ∨
      readUnion type members readMember text = .error (.invalid (.union type.displayName text)) ∧
        readUnion type members readMember' text'
          = .error (.invalid (.union type.displayName text')) := by
  simp only [readUnion, firstAccepting?_eq_of_agree h]
  cases firstAccepting? readMember' members with
  | error => exact .inl rfl
  | ok found =>
    cases found with
    | none => exact .inr ⟨rfl, rfl⟩
    | some value => exact .inl rfl

/-! ## All simple types -/

namespace Graph

variable {graph : Graph}

/-- Whether all atomic types that stand in a type, as the type itself or as members
at any depth, collapse blanks. -/
def CollapsesBlanks (graph : Graph) (handle : Handle) : Prop :=
  ∀ part type primitive, graph.ReachesMember handle part → graph.simpleType? part = some type →
    type.variety = .atomic primitive → type.facets.whiteSpace = some .collapse

/-- A union collapses blanks if its members do. -/
theorem collapsesBlanks_iff (htype : graph.simpleType? handle = some type) :
    graph.CollapsesBlanks handle ↔
      match type.variety with
      | .atomic _ => type.facets.whiteSpace = some .collapse
      | .list _ => True
      | .union members => ∀ member ∈ members, graph.CollapsesBlanks member := by
  constructor
  · intro h
    cases hvariety : type.variety with
    | atomic primitive => exact h handle type primitive .refl htype hvariety
    | list item => trivial
    | union members =>
      intro member hmember part partType primitive hreach
      exact h part partType primitive (.head ⟨type, members, htype, hvariety, hmember⟩ hreach)
  · intro h part partType primitive hreach hpart hatomic
    rcases (reachesMember_iff htype).mp hreach with rfl | ⟨members, hvariety, member, hmember, hrest⟩
    · obtain rfl : type = partType := Option.some.inj (htype.symm.trans hpart)
      simpa only [hatomic] using h
    · rw [hvariety] at h
      exact h member hmember part partType primitive hrest hpart hatomic

/-- Two texts of the same words are read alike. The induction goes along the
handles. -/
theorem WellFormed.readValue_eq_or_refused (wf : graph.WellFormed)
    (hcollapse : graph.CollapsesBlanks handle) (h : words text.toList = words text'.toList) :
    graph.readValue limits bindings? handle text = graph.readValue limits bindings? handle text' ∨
      ∃ name, graph.readValue limits bindings? handle text
          = .error (.invalid (.union name text)) ∧
        graph.readValue limits bindings? handle text'
          = .error (.invalid (.union name text')) := by
  induction handle using Handle.induction with
  | whole handle ih =>
    cases htype : graph.simpleType? handle with
    | none =>
      -- What is no simple type reads no text.
      left
      rw [readValue, readValue]
      cases hrequire : graph.requireSimpleType handle with
      | error => rfl
      | ok type =>
        rw [requireSimpleType_eq_ok, htype] at hrequire
        cases hrequire
    | some type =>
      rw [collapsesBlanks_iff htype] at hcollapse
      rw [wf.readValue_eq htype, wf.readValue_eq htype]
      cases hvariety : type.variety with
      | atomic primitive =>
        rw [hvariety] at hcollapse
        exact .inl (congrArg (TypedValue.atomic <$> ·) (readAtom_congr hcollapse h))
      | list item => exact .inl (congrArg (TypedValue.list <$> ·) (readList_congr h))
      | union members =>
        rw [hvariety] at hcollapse
        refine (readUnion_eq_or_refused ?_).imp_right fun hrefused => ⟨_, hrefused⟩
        intro member hmember
        have hbefore := ((wf.union_parts htype hvariety).2 member hmember).1
        refine (ih member hbefore (hcollapse member hmember)).imp_right ?_
        rintro ⟨name, hname⟩
        exact ⟨_, _, hname⟩

end Graph

/-! ## Runs -/

namespace Builder

/-- In the graph of every run two texts of the same words get the same result from
a type whose atomic types collapse blanks. If it is a union that refuses the texts,
each refusal quotes its own text. -/
theorem run_validate_eq_of_words_eq (steps : List Step)
    (hcollapse : (start.run steps).graph.CollapsesBlanks handle)
    (hlength : text.length ≤ limits.lexicalLength) (hlength' : text'.length ≤ limits.lexicalLength)
    (h : words text.toList = words text'.toList) :
    (start.run steps).graph.validate limits bindings? handle text
        = (start.run steps).graph.validate limits bindings? handle text' ∨
      ∃ name, (start.run steps).graph.validate limits bindings? handle text
          = .error (.invalid (.union name text)) ∧
        (start.run steps).graph.validate limits bindings? handle text'
          = .error (.invalid (.union name text')) := by
  rw [Graph.validate_eq_readValue hlength, Graph.validate_eq_readValue hlength']
  exact (run_wellFormed steps).readValue_eq_or_refused hcollapse h

/-- Lists of at most two numbers, and a union of these lists and of truth values. -/
def pairsOrTruth : List Step := [
  .define (.list none (Builtin.primitive .decimal).handle),
  .define (.restriction ⟨45⟩ { maxLength := some 2 }),
  .define (.union none [⟨46⟩, (Builtin.primitive .boolean).handle])]

theorem run_validate_eq_of_words_eq_pairsOrTruth :
    (start.run pairsOrTruth).graph.CollapsesBlanks ⟨47⟩ ∧
      words " 1\n\t+2.0".toList = words "1 +2.0 ".toList ∧
      (start.run pairsOrTruth).graph.isValid .standard none ⟨47⟩ "1 +2.0 " = true ∧
      (start.run pairsOrTruth).graph.validate .standard none ⟨47⟩ " 1\n\t+2.0"
        = (start.run pairsOrTruth).graph.validate .standard none ⟨47⟩ "1 +2.0 " := by
  have hunion : ((start.run pairsOrTruth).graph.simpleType? ⟨47⟩).map SimpleType.variety
      = some (.union [⟨46⟩, (Builtin.primitive .boolean).handle]) := by decide +kernel
  have hlist : ((start.run pairsOrTruth).graph.simpleType? ⟨46⟩).map SimpleType.variety
      = some (.list (Builtin.primitive .decimal).handle) := by decide +kernel
  have hcollapse : (start.run pairsOrTruth).graph.CollapsesBlanks ⟨47⟩ := by
    obtain ⟨type, htype, hvariety⟩ := Option.map_eq_some_iff.mp hunion
    obtain ⟨listType, hlistType, hlistVariety⟩ := Option.map_eq_some_iff.mp hlist
    rw [Graph.collapsesBlanks_iff htype, hvariety]
    refine List.forall_mem_cons.mpr ⟨?_, List.forall_mem_singleton.mpr ?_⟩
    · rw [Graph.collapsesBlanks_iff hlistType, hlistVariety]
      trivial
    · rw [Graph.collapsesBlanks_iff ((run_wellFormed pairsOrTruth).builtins (.primitive .boolean))]
      rfl
  have hwords : words " 1\n\t+2.0".toList = words "1 +2.0 ".toList := by decide +kernel
  have hvalid : (start.run pairsOrTruth).graph.isValid .standard none ⟨47⟩ "1 +2.0 " = true := by
    decide +kernel
  refine ⟨hcollapse, hwords, hvalid, ?_⟩
  refine (run_validate_eq_of_words_eq pairsOrTruth hcollapse (by decide +kernel)
    (by decide +kernel) hwords).resolve_right ?_
  rintro ⟨name, -, hrefused⟩
  rw [Graph.isValid, hrefused] at hvalid
  cases hvalid

end Builder

end SimpleTypes
