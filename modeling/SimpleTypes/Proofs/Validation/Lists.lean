import SimpleTypes.Proofs.Text.Words
import SimpleTypes.Proofs.Validation.Atoms

/-!
# Lists, item by item

What a text is under a list type follows from what its runs without blanks are under the
type of the items.

* `SimpleType.ReadsItems`: the result for the text, in terms of the results for the runs.
  The number of runs is tested before any run is read, and the first run that fails
  decides.
* `readsItems_readList`: a list type reads like this if its items are atoms.
* `run_validate_items`: so validation goes by the items in the graph of every run, since no
  list stands in the type of the items there.
-/

namespace SimpleTypes

variable {limits : Limits} {bindings? : Option Bindings} {handle item : Handle} {type : SimpleType}
  {text : String} {runs : List (List Char)} {readItem readItem' : String → Except Error TypedValue}

/-- Whether an enumeration, if there is one, has a list of these items: one with as many
items, each equal to the one in its place. -/
def FacetSet.EnumeratesItems (facets : FacetSet) (items : List Atom) : Prop :=
  ∀ allowed, facets.enumeration = some allowed → ∃ one : ListValue, .list one ∈ allowed ∧
    List.Forall₂ (fun a b => a.valueEq b = true) one.items items

/-- Only a list can be equal to a list. -/
theorem FacetSet.checkEnumeration_list {facets : FacetSet} {list : ListValue} :
    facets.checkEnumeration (.list list) = .ok () ↔ facets.EnumeratesItems list.items := by
  rw [checkEnumeration_eq_ok]
  refine forall₂_congr fun allowed _ => ⟨?_, ?_⟩
  · rintro ⟨one, hone, heq⟩
    cases one with
    | atomic => cases heq
    | list one => exact ⟨one, hone, ListValue.valueEq_iff.mp heq⟩
  · rintro ⟨one, hone, heq⟩
    exact ⟨.list one, hone, ListValue.valueEq_iff.mpr heq⟩

/-- What a text with these runs is under a list type, if the type of the items reads the runs
as `readItem` says.

* `tooMany`: a limit withholds more runs than it allows.
* `lengthFault`: a facet refuses a number of runs.
* `itemFault`: the first run that is no item refuses the text, for its own fault.
* `items`: otherwise the text stands for the atoms that the runs are read as, and only an
  enumeration can still refuse it. -/
structure SimpleType.ReadsItems (type : SimpleType) (limits : Limits) (item : Handle)
    (readItem : String → Except Error TypedValue) (runs : List (List Char))
    (result : Except Error TypedValue) : Prop where
  tooMany : limits.listItems < runs.length →
    result = .error (.limit (.listItems runs.length limits.listItems))
  lengthFault : runs.length ≤ limits.listItems →
    ∀ cause, type.facets.IsLengthFault runs.length cause → result = .error (.invalid cause)
  itemFault : runs.length ≤ limits.listItems →
    (∀ cause, ¬type.facets.IsLengthFault runs.length cause) →
    ∀ before run after error, runs = before ++ run :: after →
      (∀ passed ∈ before, ∃ value, readItem (String.ofList passed) = .ok value) →
      readItem (String.ofList run) = .error error → result = .error error
  items : runs.length ≤ limits.listItems →
    (∀ cause, ¬type.facets.IsLengthFault runs.length cause) →
    (∀ run ∈ runs, ∃ value, readItem (String.ofList run) = .ok value) →
    ∃ items : List Atom,
      List.Forall₂ (fun run atom => readItem (String.ofList run) = .ok (.atomic atom)) runs items ∧
      (type.facets.EnumeratesItems items → result = .ok (.list ⟨item, items⟩)) ∧
      (¬type.facets.EnumeratesItems items → ∃ allowed, type.facets.enumeration = some allowed ∧
        result = .error (.invalid (.enumeration allowed (.list ⟨item, items⟩))))

theorem readList_congr_item
    (h : ∀ word ∈ words text.toList, readItem (String.ofList word) = readItem' (String.ofList word)) :
    readList limits type item readItem text = readList limits type item readItem' text := by
  simp only [readList, words_normalizeText, mapM_congr h]

/-- What is left to do once the number of words has passed. -/
theorem readList_of_checkLength (hcount : (words text.toList).length ≤ limits.listItems)
    (hlength : type.facets.checkLength (words text.toList).length = .ok ()) :
    readList limits type item readItem text = (do
      let values ← (words text.toList).mapM (fun word => readItem (String.ofList word))
      let value : ListValue := ⟨item, values.flatMap TypedValue.atoms⟩
      Error.ofInvalid (type.facets.checkEnumeration (.list value))
      return value) := by
  rw [readList, words_normalizeText, Limits.checkListItems, if_neg (Nat.not_lt.mpr hcount), hlength]
  rfl

/-- A list type reads a text item by item if its items are atoms. -/
theorem readsItems_readList
    (hatomic : ∀ text value, readItem text = .ok value → ∃ atom, value = .atomic atom) :
    type.ReadsItems limits item readItem (words text.toList)
      (.list <$> readList limits type item readItem text) := by
  have hpassed (hfault : ∀ cause, ¬type.facets.IsLengthFault (words text.toList).length cause) :
      type.facets.checkLength (words text.toList).length = .ok () := by
    cases hcheck : type.facets.checkLength (words text.toList).length with
    | ok => rfl
    | error cause => exact absurd (FacetSet.checkLength_eq_error.mp hcheck) (hfault cause)
  refine ⟨?_, ?_, ?_, ?_⟩
  · intro hcount
    rw [readList, words_normalizeText, Limits.checkListItems, if_pos hcount]
    rfl
  · intro hcount cause hfault
    rw [readList, words_normalizeText, Limits.checkListItems, if_neg (Nat.not_lt.mpr hcount),
      FacetSet.checkLength_eq_error.mpr hfault]
    rfl
  · intro hcount hfault before run after error hruns hbefore hrun
    rw [readList_of_checkLength hcount (hpassed hfault), hruns,
      mapM_eq_error_of_first hbefore hrun]
    rfl
  · intro hcount hfault hread
    obtain ⟨values, hvalues⟩ := exists_forall₂ hread
    refine ⟨values.flatMap TypedValue.atoms, forall₂_atomic hatomic hvalues, ?_⟩
    rw [readList_of_checkLength hcount (hpassed hfault), mapM_eq_ok.mpr hvalues]
    constructor
    · intro henumerates
      have hcheck : type.facets.checkEnumeration (.list ⟨item, values.flatMap TypedValue.atoms⟩)
          = .ok () := FacetSet.checkEnumeration_list.mpr henumerates
      simp only [bind, Except.bind, hcheck]
      rfl
    · intro hnot
      cases hcheck : type.facets.checkEnumeration (.list ⟨item, values.flatMap TypedValue.atoms⟩) with
      | ok => exact absurd (FacetSet.checkEnumeration_list.mp hcheck) hnot
      | error cause =>
        obtain ⟨allowed, hallowed, rfl⟩ := FacetSet.checkEnumeration_eq_error hcheck
        refine ⟨allowed, hallowed, ?_⟩
        simp only [bind, Except.bind, hcheck]
        rfl

namespace Builder

/-- In the graph of every run a list type validates a text item by item: its runs without
blanks, each against the type of the items. -/
theorem run_validate_items (steps : List Step)
    (htype : (start.run steps).graph.simpleType? handle = some type)
    (hvariety : type.variety = .list item) (hlength : text.length ≤ limits.lexicalLength)
    (hruns : AreRuns text.toList runs) :
    type.ReadsItems limits item ((start.run steps).graph.validate limits bindings? item) runs
      ((start.run steps).graph.validate limits bindings? handle text) := by
  have wf := run_wellFormed steps
  have hfree := (wf.list_parts htype hvariety).2
  obtain rfl := hruns.words_eq
  -- A run is no longer than the text, so its length passes the limit too.
  have hsame : ∀ word ∈ words text.toList,
      (start.run steps).graph.readValue limits bindings? item (String.ofList word)
        = (start.run steps).graph.validate limits bindings? item (String.ofList word) := by
    intro word hword
    refine (Graph.validate_eq_readValue ?_).symm
    have := hruns.length_le hword
    rw [String.length_toList] at this
    rw [String.length_ofList]
    exact this.trans hlength
  rw [Graph.validate_eq_readValue hlength, wf.readValue_eq htype, hvariety]
  simp only [readList_congr_item hsame]
  refine readsItems_readList ?_
  intro word value hvalue
  exact wf.exists_atom_of_readValue hfree (Graph.validate_eq_ok.mp hvalue).2

/-- Lists of at most three numbers or truth values, and an enumeration of such lists. -/
def shortLists : List Step := [
  .define (.union none [(Builtin.primitive .decimal).handle, (Builtin.primitive .boolean).handle]),
  .define (.list none ⟨45⟩),
  .define (.restriction ⟨46⟩ { maxLength := some 3, enumeration := ["1 true", "0"] })]

/-- The second run is the first that is no item, so it is the one that is refused. -/
theorem run_validate_items_shortLists :
    AreRuns " 1\tmaybe\nnever".toList ["1".toList, "maybe".toList, "never".toList] ∧
      ∃ type, (start.run shortLists).graph.simpleType? ⟨47⟩ = some type ∧
        type.variety = .list ⟨45⟩ ∧
        type.ReadsItems .standard ⟨45⟩ ((start.run shortLists).graph.validate .standard none ⟨45⟩)
          ["1".toList, "maybe".toList, "never".toList]
          ((start.run shortLists).graph.validate .standard none ⟨47⟩ " 1\tmaybe\nnever") ∧
        (start.run shortLists).graph.validate .standard none ⟨47⟩ " 1\tmaybe\nnever"
          = .error (.invalid (.union "(anonymous)" "maybe")) := by
  have hruns : AreRuns " 1\tmaybe\nnever".toList ["1".toList, "maybe".toList, "never".toList] :=
    areRuns_iff.mpr (by decide +kernel)
  have hmap : ((start.run shortLists).graph.simpleType? ⟨47⟩).map
      (fun type => (type.variety, type.facets.checkLength 3)) = some (.list ⟨45⟩, .ok ()) := by
    decide +kernel
  obtain ⟨type, htype, hknown⟩ := Option.map_eq_some_iff.mp hmap
  obtain ⟨hvariety, hcheck⟩ := Prod.mk.inj hknown
  have hreads : type.ReadsItems .standard ⟨45⟩
      ((start.run shortLists).graph.validate .standard none ⟨45⟩)
      ["1".toList, "maybe".toList, "never".toList]
      ((start.run shortLists).graph.validate .standard none ⟨47⟩ " 1\tmaybe\nnever") :=
    run_validate_items shortLists htype hvariety (by decide) hruns
  refine ⟨hruns, type, htype, hvariety, hreads, ?_⟩
  refine hreads.itemFault (by decide) ?_ ["1".toList] "maybe".toList ["never".toList] _ rfl ?_ ?_
  · intro cause hfault
    have hrefused : type.facets.checkLength 3 = .error cause :=
      FacetSet.checkLength_eq_error.mpr hfault
    rw [hcheck] at hrefused
    cases hrefused
  · exact List.forall_mem_singleton.mpr ⟨.atomic ⟨.decimal ⟨false, ['1'], [], 0⟩,
      (Builtin.primitive .decimal).handle, .decimal⟩, by decide +kernel⟩
  · decide +kernel

end Builder

end SimpleTypes
