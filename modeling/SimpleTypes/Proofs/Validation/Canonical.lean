import SimpleTypes.Proofs.Schema.Runs
import SimpleTypes.Proofs.Value.Canonical

/-!
# Validating canonical texts

The canonical text of an accepted text is accepted, with the same canonical text
and an equal value, unless a limit prevents it.

* `readAtom_canonical` and `readList_canonical`: reading the canonical text gives
  the trimmed value.
* `run_validate_canonical`: so does validation in the graph of every run. The
  types are atomic or lists of atomic items, and durations and binary floating
  point numbers are left out.
-/

namespace SimpleTypes

variable {limits : Limits} {bindings? : Option Bindings} {handle item : Handle}
  {type itemType : SimpleType} {primitive : Primitive} {text : String}

/-! ## Atoms -/

theorem KeepsWords.normalizeText_eq {mode : Option WhiteSpace} {canonical : String}
    (h : KeepsWords (normalizeText mode text) canonical) :
    normalizeText mode canonical = canonical := by
  rcases h with rfl | ⟨hfree, -⟩
  · exact normalizeText_idem mode text
  · exact normalizeText_of_blankFree mode hfree

/-- The canonical text of a word is a word. -/
theorem KeepsWords.isWord {canonical : String} (h : KeepsWords text canonical)
    (hword : IsWord text.toList) : IsWord canonical.toList := by
  rcases h with rfl | ⟨-, hkeeps⟩
  · exact hword
  · exact hkeeps hword

section Atom

variable {atom : Atom}

theorem readsBack_of_readAtom (hprimitive : primitive ≠ .duration)
    (h : readAtom limits bindings? handle type primitive text = .ok atom) :
    ReadsBack primitive type.rule (normalizeText type.facets.whiteSpace text) bindings? limits
      atom.native := by
  obtain ⟨native, hread, rfl, -⟩ := readAtom_eq_ok.mp h
  exact readsBack_of_readAtomic hprimitive hread

/-- The canonical text of an atom is read as the trimmed atom. -/
theorem readAtom_canonical (hprimitive : primitive ≠ .duration)
    (h : readAtom limits bindings? handle type primitive text = .ok atom) :
    Gives (readAtom limits bindings? handle type primitive atom.canonical) atom.trimmed := by
  have hback := readsBack_of_readAtom hprimitive h
  obtain ⟨native, -, rfl, hatom, henum⟩ := readAtom_eq_ok.mp h
  have hatom' := FacetSet.checkAtom_trimmed hatom
  have henum' := FacetSet.checkEnumeration_trimmed henum
  unfold readAtom
  rw [Atom.canonical, hback.keepsWords.normalizeText_eq]
  exact hback.gives.bind
    ((gives_ofInvalid hatom').bind ((gives_ofInvalid henum').bind (gives_ok _)))

theorem valueEq_self_of_readAtom (hprimitive : primitive ≠ .duration)
    (h : readAtom limits bindings? handle type primitive text = .ok atom) :
    atom.valueEq atom = true := by
  have hback := readsBack_of_readAtom hprimitive h
  simp [Atom.valueEq, hback.valueEq_self]

theorem isWord_canonical_of_readAtom (hprimitive : primitive ≠ .duration)
    (hword : IsWord text.toList)
    (h : readAtom limits bindings? handle type primitive text = .ok atom) :
    IsWord atom.canonical.toList := by
  have hback := readsBack_of_readAtom hprimitive h
  rw [normalizeText_of_blankFree _ hword.2] at hback
  obtain ⟨native, -, rfl, -⟩ := readAtom_eq_ok.mp h
  exact hback.keepsWords.isWord hword

end Atom

/-! ## Lists -/

/-- The words of the canonical text of a list are the canonical texts of its
items. -/
theorem words_canonical {list : ListValue}
    (h : ∀ atom ∈ list.items, IsWord atom.canonical.toList) :
    words list.canonical.toList = list.items.map (·.canonical.toList) := by
  have htext : list.canonical.toList = [' '].intercalate (list.items.map (·.canonical.toList)) := by
    rw [ListValue.canonical, String.toList_intercalate, List.map_map]
    rfl
  rw [htext]
  refine words_intercalate ?_
  intro piece hpiece
  obtain ⟨atom, hatom, rfl⟩ := List.mem_map.mp hpiece
  exact h atom hatom

section List

variable {readItem : String → Except Error TypedValue} {list : ListValue}

/-- Items of an atomic type are atoms that were read from the words. -/
theorem forall₂_readAtom {pieces : List (List Char)} {values : List TypedValue}
    (hitem : ∀ text, readItem text =
      .atomic <$> readAtom limits bindings? item itemType primitive text)
    (h : List.Forall₂ (fun piece value => readItem (String.ofList piece) = .ok value)
      pieces values) :
    List.Forall₂ (fun piece atom => readAtom limits bindings? item itemType primitive
      (String.ofList piece) = .ok atom) pieces (values.flatMap TypedValue.atoms) := by
  refine (forall₂_atomic ?_ h).imp ?_
  · intro text value hvalue
    rw [hitem] at hvalue
    obtain ⟨atom, -, rfl⟩ := map_eq_ok.mp hvalue
    exact ⟨atom, rfl⟩
  · intro piece atom hvalue
    rw [hitem] at hvalue
    obtain ⟨_, hread, ⟨⟩⟩ := map_eq_ok.mp hvalue
    exact hread

/-- A list that was read has one item for each word, and each was read from a
word. -/
theorem readList_items (hitem : ∀ text, readItem text =
      .atomic <$> readAtom limits bindings? item itemType primitive text)
    (h : readList limits type item readItem text = .ok list) :
    list.items.length = (words (normalizeText type.facets.whiteSpace text).toList).length ∧
      ∀ atom ∈ list.items, ∃ text, IsWord text.toList ∧
        readAtom limits bindings? item itemType primitive text = .ok atom := by
  obtain ⟨values, -, -, hvalues, rfl, -⟩ := readList_eq_ok.mp h
  have hatoms := forall₂_readAtom hitem hvalues
  refine ⟨hatoms.length_eq.symm, ?_⟩
  intro atom hatom
  obtain ⟨piece, hpiece, hread⟩ := exists_mem_of_forall₂ hatoms hatom
  refine ⟨String.ofList piece, ?_, hread⟩
  rw [String.toList_ofList]
  exact isWord_of_mem_words hpiece

theorem flatMap_atoms_atomic (items : List Atom) :
    (items.map TypedValue.atomic).flatMap TypedValue.atoms = items := by
  rw [List.flatMap_map]
  exact List.flatMap_singleton' items

/-- A list is read again from the canonical texts of its items if each item is. The
canonical text of the list has as many words as the text that was read. -/
theorem gives_readList_canonical {items : List Atom}
    (h : readList limits type item readItem text = .ok list)
    (hcount : list.items.length = (words (normalizeText type.facets.whiteSpace text).toList).length)
    (hword : ∀ atom ∈ list.items, IsWord atom.canonical.toList)
    (hitems : List.Forall₂ (fun atom again => Gives (readItem atom.canonical) (.atomic again))
      list.items items)
    (henum : type.facets.checkEnumeration (.list { list with items := items }) = .ok ()) :
    Gives (readList limits type item readItem list.canonical) { list with items := items } := by
  obtain ⟨values, -, hlength, -, hlist, -⟩ := readList_eq_ok.mp h
  obtain rfl : list.itemType = item := congrArg ListValue.itemType hlist
  -- The words of the canonical text are those of the items, whatever the mode.
  have hwords := words_canonical hword
  rw [← words_normalizeText type.facets.whiteSpace] at hwords
  have hgives : Gives ((list.items.map (·.canonical.toList)).mapM fun piece =>
      readItem (String.ofList piece)) (items.map TypedValue.atomic) := by
    refine .mapM (List.forall₂_map_left_iff.mpr (List.forall₂_map_right_iff.mpr ?_))
    simpa only [String.ofList_toList] using hitems
  unfold readList
  simp only [hwords, List.length_map, hcount]
  refine (gives_ofLimit _).bind ((gives_ofInvalid hlength).bind (hgives.bind ?_))
  rw [flatMap_atoms_atomic]
  exact (gives_ofInvalid henum).bind (gives_ok _)

/-- The canonical text of a list of atoms is read as the trimmed list. -/
theorem readList_canonical (hprimitive : primitive ≠ .duration)
    (hitem : ∀ text, readItem text =
      .atomic <$> readAtom limits bindings? item itemType primitive text)
    (h : readList limits type item readItem text = .ok list) :
    Gives (readList limits type item readItem list.canonical)
      { list with items := list.items.map Atom.trimmed } := by
  obtain ⟨hcount, hread⟩ := readList_items hitem h
  obtain ⟨values, -, -, -, -, henum⟩ := readList_eq_ok.mp h
  refine gives_readList_canonical h hcount ?_ ?_ (FacetSet.checkEnumeration_trimmed henum)
  · intro atom hatom
    obtain ⟨text, hword, hread⟩ := hread atom hatom
    exact isWord_canonical_of_readAtom hprimitive hword hread
  · refine List.forall₂_map_right_iff.mpr (List.forall₂_same.mpr ?_)
    intro atom hatom
    obtain ⟨text, -, hread⟩ := hread atom hatom
    rw [hitem]
    exact (readAtom_canonical hprimitive hread).map TypedValue.atomic

theorem valueEq_self_of_readList (hprimitive : primitive ≠ .duration)
    (hitem : ∀ text, readItem text =
      .atomic <$> readAtom limits bindings? item itemType primitive text)
    (h : readList limits type item readItem text = .ok list) : list.valueEq list = true := by
  refine ListValue.valueEq_self ?_
  intro atom hatom
  obtain ⟨text, -, hread⟩ := (readList_items hitem h).2 atom hatom
  exact valueEq_self_of_readAtom hprimitive hread

end List

/-! ## Validation -/

namespace Graph

variable {graph : Graph} {value : TypedValue}

/-- Whether a type is atomic, and neither one of durations nor one of binary
floating point numbers. -/
def IsExactAtomic (graph : Graph) (handle : Handle) : Prop :=
  ∃ type primitive, graph.simpleType? handle = some type ∧ type.variety = .atomic primitive ∧
    primitive ∉ [.duration, .float, .double]

/-- Whether a type is such an atomic type or a list of items of one. -/
def IsExact (graph : Graph) (handle : Handle) : Prop :=
  graph.IsExactAtomic handle ∨
    ∃ type item, graph.simpleType? handle = some type ∧ type.variety = .list item ∧
      graph.IsExactAtomic item

/-- The canonical text of a value that was read is read as the trimmed value. -/
theorem WellFormed.readValue_canonical (wf : graph.WellFormed) (hexact : graph.IsExact handle)
    (h : graph.readValue limits bindings? handle text = .ok value) :
    Gives (graph.readValue limits bindings? handle value.canonical) value.trimmed ∧
      value.valueEq value = true := by
  rcases hexact with ⟨type, primitive, htype, hvariety, hprimitive⟩ |
    ⟨type, item, htype, hvariety, itemType, primitive, hitemType, hitemVariety, hprimitive⟩
  · simp only [wf.readValue_eq htype, hvariety] at h ⊢
    obtain ⟨atom, hatom, rfl⟩ := map_eq_ok.mp h
    have hprimitive := List.ne_of_not_mem_cons hprimitive
    exact ⟨(readAtom_canonical hprimitive hatom).map TypedValue.atomic,
      valueEq_self_of_readAtom hprimitive hatom⟩
  · have hitem : ∀ text, graph.readValue limits bindings? item text =
        .atomic <$> readAtom limits bindings? item itemType primitive text := by
      intro text
      rw [wf.readValue_eq hitemType, hitemVariety]
    simp only [wf.readValue_eq htype, hvariety] at h ⊢
    obtain ⟨list, hlist, rfl⟩ := map_eq_ok.mp h
    have hprimitive := List.ne_of_not_mem_cons hprimitive
    exact ⟨(readList_canonical hprimitive hitem hlist).map TypedValue.list,
      valueEq_self_of_readList hprimitive hitem hlist⟩

end Graph

namespace Builder

/-- In the graph of every run the canonical text of an accepted text is accepted,
unless a limit prevents it. Its value has the same canonical text and is equal to
the first value. The type is atomic or a list of atoms, and durations and binary
floating point numbers are left out. -/
theorem run_validate_canonical (steps : List Step) {value : TypedValue}
    (hexact : (start.run steps).graph.IsExact handle)
    (h : (start.run steps).graph.validate limits bindings? handle text = .ok value) :
    (∃ fault, (start.run steps).graph.validate limits bindings? handle value.canonical
        = .error (.limit fault)) ∨
      ∃ again, (start.run steps).graph.validate limits bindings? handle value.canonical = .ok again ∧
        again.canonical = value.canonical ∧ again.valueEq value = true := by
  obtain ⟨_, -, hread⟩ := bind_eq_ok.mp h
  obtain ⟨hgives, hself⟩ := (run_wellFormed steps).readValue_canonical hexact hread
  have hvalidate : Gives ((start.run steps).graph.validate limits bindings? handle value.canonical)
      value.trimmed := (gives_ofLimit _).bind (f := fun _ => _) hgives
  rcases hvalidate with hlimit | hok
  · exact .inl hlimit
  · refine .inr ⟨value.trimmed, hok, value.canonical_trimmed, ?_⟩
    rw [TypedValue.trimmed_valueEq, hself]

/-- A list type of bounded decimals with a length and an enumeration. -/
def boundedDecimals : List Step := [
  .define (.restriction (Builtin.primitive .decimal).handle { ranges := [(.minInclusive, "-1")] }),
  .define (.list none ⟨45⟩),
  .define (.restriction ⟨46⟩ { maxLength := some 3, enumeration := ["1.5 0"] })]

/-- The value of `+01.50 -0`, in which a zero at an end was forgotten. -/
def onePointFive : TypedValue :=
  .list ⟨⟨45⟩, [⟨.decimal ⟨false, ['1'], ['5'], 1⟩, ⟨45⟩, .decimal⟩,
    ⟨.decimal ⟨false, [], [], 0⟩, ⟨45⟩, .decimal⟩]⟩

theorem run_validate_canonical_boundedDecimals :
    (start.run boundedDecimals).graph.validate .standard none ⟨47⟩ " +01.50\n-0 " = .ok onePointFive ∧
      onePointFive.canonical = "1.5 0" ∧
      ∃ again, (start.run boundedDecimals).graph.validate .standard none ⟨47⟩ "1.5 0" = .ok again ∧
        again.canonical = "1.5 0" ∧ again.valueEq onePointFive = true := by
  have htext : (start.run boundedDecimals).graph.validate .standard none ⟨47⟩ " +01.50\n-0 "
      = .ok onePointFive := by decide +kernel
  have hcanonical : onePointFive.canonical = "1.5 0" := by decide +kernel
  have hlist : ((start.run boundedDecimals).graph.simpleType? ⟨47⟩).map SimpleType.variety
      = some (.list ⟨45⟩) := by decide +kernel
  have hitem : ((start.run boundedDecimals).graph.simpleType? ⟨45⟩).map SimpleType.variety
      = some (.atomic .decimal) := by decide +kernel
  have hexact : (start.run boundedDecimals).graph.IsExact ⟨47⟩ := by
    obtain ⟨type, htype, hvariety⟩ := Option.map_eq_some_iff.mp hlist
    obtain ⟨itemType, hitemType, hatomic⟩ := Option.map_eq_some_iff.mp hitem
    exact .inr ⟨type, ⟨45⟩, htype, hvariety, itemType, .decimal, hitemType, hatomic, by decide⟩
  refine ⟨htext, hcanonical, ?_⟩
  rcases run_validate_canonical boundedDecimals hexact htext with ⟨fault, hfault⟩ | hagain
  · have hok : (start.run boundedDecimals).graph.isValid .standard none ⟨47⟩ "1.5 0" = true := by
      decide +kernel
    rw [hcanonical] at hfault
    rw [Graph.isValid, hfault] at hok
    cases hok
  · rw [hcanonical] at hagain
    exact hagain

end Builder

end SimpleTypes
