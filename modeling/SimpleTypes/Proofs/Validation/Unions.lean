import SimpleTypes.Proofs.Time.DurationText
import SimpleTypes.Proofs.Validation.Atoms
import SimpleTypes.Proofs.Validation.Canonical
import SimpleTypes.Proofs.Value.Comparable

/-!
# Canonical texts under unions

A union gives a text to the first member that accepts it. The canonical text of the value
is written by that member, but it is read from the first member on. A member that found the
text invalid may accept the canonical text and read another value from it. `1.0` is no
truth value, but `1` is one.

* `TypedValue.Matches`: an equal value with the same canonical text. No facet tells the
  two apart.
* `IsTakenOver`: some member took the canonical text over from a later one. It follows the
  members and items along which a text was read.
* `WellFormed.matches_or_isTakenOver` and `WellFormed.not_matches_of_isTakenOver`: if and
  only if no member did, the canonical text is read as a value that matches.
* `run_validate_matches`: so it is in the graph of every run, whatever the type.
* `run_validate_matches_fails_truthOrNumber`: a union in which a text is taken over.

The canonical text of a duration is one only if its seconds are split truly, so values
with other durations are left out.
-/

namespace SimpleTypes

variable {limits : Limits} {bindings? : Option Bindings} {handle : Handle} {type : SimpleType}
  {primitive : Primitive} {text : String} {value : TypedValue}

/-! ## Values that match -/

/-- Whether two atoms are equal and have the same canonical text. -/
def Atom.Matches (a b : Atom) : Prop := a.canonical = b.canonical ∧ a.valueEq b = true

/-- Whether two values are equal and have the same canonical text. -/
def TypedValue.Matches (v w : TypedValue) : Prop :=
  v.canonical = w.canonical ∧ v.valueEq w = true

/-- Lists match if their items do. -/
theorem ListValue.matches_of_forall₂ {list : ListValue} {items : List Atom}
    (h : List.Forall₂ (fun atom again => again.Matches atom) list.items items) :
    (TypedValue.list { list with items := items }).Matches (.list list) := by
  have hcanonical : items.map Atom.canonical = list.items.map Atom.canonical := by
    rw [← List.forall₂_eq_eq_eq, List.forall₂_map_left_iff, List.forall₂_map_right_iff]
    exact (h.imp fun _ _ hmatch => hmatch.1).flip
  exact ⟨congrArg (String.intercalate " ") hcanonical,
    valueEq_iff.mpr (h.imp fun _ _ hmatch => hmatch.2).flip⟩

/-- Lists that match have items that match, in order: a text is taken apart into its words
in one way only. -/
theorem ListValue.exists_of_matches {R : Atom → Atom → Prop} {list again : ListValue}
    (hmatches : (TypedValue.list again).Matches (.list list))
    (hword : ∀ atom ∈ list.items, IsWord atom.canonical.toList)
    (hagain : ∀ atom ∈ again.items, IsWord atom.canonical.toList)
    (h : List.Forall₂ R list.items again.items) {atom : Atom} (hatom : atom ∈ list.items) :
    ∃ other : Atom, R atom other ∧ other.Matches atom := by
  have hcanonical : again.items.map (·.canonical.toList) = list.items.map (·.canonical.toList) := by
    rw [← words_canonical hword, ← words_canonical hagain]
    exact congrArg (fun text : String => words text.toList) hmatches.1
  obtain ⟨hlength, hR⟩ := List.forall₂_iff_get.mp h
  obtain ⟨-, hvalue⟩ := List.forall₂_iff_get.mp (valueEq_iff.mp hmatches.2)
  obtain ⟨⟨i, hi⟩, rfl⟩ := List.get_of_mem hatom
  have hi' : i < again.items.length := hlength ▸ hi
  refine ⟨again.items.get ⟨i, hi'⟩, hR i hi hi', String.toList_inj.mp ?_, hvalue i hi' hi⟩
  simpa [hi, hi'] using congrArg (·[i]?) hcanonical

/-- What matches an atom is an atom. -/
theorem TypedValue.Matches.exists_atomic {atom : Atom} (h : value.Matches (.atomic atom)) :
    ∃ again : Atom, value = .atomic again ∧ again.Matches atom := by
  cases value with
  | atomic again => exact ⟨again, rfl, h⟩
  | list => cases h.2

namespace FacetSet

variable {facets : FacetSet}

/-- Equal atoms pass the same facets if these measure the same in them. -/
theorem checkAtom_congr {a b : Atom} (heq : a.valueEq b = true) (hlength : a.length? = b.length?)
    (hdecimal : a.decimal? = b.decimal?) (h : facets.checkAtom b = .ok ()) :
    facets.checkAtom a = .ok () := by
  rw [checkAtom_eq_ok, ← hlength, ← hdecimal] at h
  refine checkAtom_eq_ok.mpr ⟨h.1, h.2.1, ?_⟩
  intro kind bound hbound
  have hadmits := h.2.2 kind bound hbound
  rw [Bound.admits] at hadmits ⊢
  rwa [Atom.order?_congr heq]

/-- The enumeration admits what is equal to an admitted value. -/
theorem checkEnumeration_congr {v w : TypedValue} (heq : v.valueEq w = true)
    (h : facets.checkEnumeration w = .ok ()) :
    facets.checkEnumeration v = .ok () := by
  refine checkEnumeration_eq_ok.mpr ?_
  intro allowed hallowed
  obtain ⟨one, hmem, hone⟩ := checkEnumeration_eq_ok.mp h allowed hallowed
  exact ⟨one, hmem, TypedValue.valueEq_trans hone (TypedValue.valueEq_symm heq)⟩

end FacetSet

/-! ## Atoms -/

section Atom

variable {atom : Atom}

/-- Whether a duration, if the atom is one, has seconds that are split truly. -/
def Atom.IsSplitTruly (atom : Atom) : Prop :=
  ∀ duration, atom.native = .duration duration → duration.IsSplitTruly

theorem Atom.IsSplitTruly.of_valueEq {again : Atom} (heq : again.valueEq atom = true)
    (h : atom.IsSplitTruly) : again.IsSplitTruly := by
  intro duration hduration
  rw [Atom.valueEq, hduration, Bool.and_eq_true] at heq
  cases hnative : atom.native with
  | duration other =>
    rw [hnative] at heq
    exact (h other hnative).congr (Duration.valueEq_iff.mp heq.2).2.2.symm
  | _ =>
    rw [hnative] at heq
    cases heq.2

/-- What is asked of an atom: its canonical text is read as one that matches, and is a word
if the text was one. -/
structure Atom.IsReread (limits : Limits) (bindings? : Option Bindings) (handle : Handle)
    (type : SimpleType) (primitive : Primitive) (text : String) (atom : Atom) : Prop where
  gives : ∃ again : Atom,
    Gives (readAtom limits bindings? handle type primitive atom.canonical) again ∧
      again.Matches atom
  isWord : IsWord text.toList → IsWord atom.canonical.toList

theorem isReread_duration (htrue : atom.IsSplitTruly)
    (h : readAtom limits bindings? handle type .duration text = .ok atom) :
    atom.IsReread limits bindings? handle type .duration text := by
  obtain ⟨native, hnative, heq, hatom, henum⟩ := readAtom_eq_ok.mp h
  obtain ⟨duration, hduration, rfl⟩ := map_eq_ok.mp hnative
  obtain rfl : atom = duration.atom handle := heq
  have hproper := Duration.parse?_isProper (readTemporal_eq_ok.mp hduration).2
  have hsplit : duration.IsSplitTruly := htrue duration rfl
  have hword := hsplit.isWord_canonical hproper
  obtain ⟨read, hread, hnegative, hmonths, hseconds⟩ := hsplit.exists_parse?_canonical hproper
  have hmatches : (read.atom handle).Matches (duration.atom handle) :=
    ⟨congrArg String.ofList (Duration.canonical_congr hnegative hmonths hseconds),
      Duration.valueEq_iff.mpr ⟨hnegative, hmonths, hseconds⟩⟩
  have htext : (duration.atom handle).canonical.toList = duration.canonical := String.toList_ofList
  rw [← htext] at hword hread
  have hgives : Gives (readAtomic .duration type.rule (duration.atom handle).canonical bindings?
      limits) (.duration read) :=
    .map (gives_readTemporal hread limits) _
  have hatom' := FacetSet.checkAtom_congr hmatches.2 rfl rfl hatom
  have henum' : type.facets.checkEnumeration (.atomic (read.atom handle)) = .ok () :=
    FacetSet.checkEnumeration_congr (w := .atomic (duration.atom handle)) hmatches.2 henum
  refine ⟨⟨read.atom handle, ?_, hmatches⟩, fun _ => hword⟩
  unfold readAtom
  rw [normalizeText_of_blankFree _ hword.2]
  exact hgives.bind ((gives_ofInvalid hatom').bind ((gives_ofInvalid henum').bind (gives_ok _)))

/-- The canonical text of an atom is read as one that matches. -/
theorem isReread_of_readAtom (htrue : atom.IsSplitTruly)
    (h : readAtom limits bindings? handle type primitive text = .ok atom) :
    atom.IsReread limits bindings? handle type primitive text := by
  by_cases hprimitive : primitive = .duration
  · subst hprimitive
    exact isReread_duration htrue h
  · refine ⟨⟨atom.trimmed, readAtom_canonical hprimitive h, atom.canonical_trimmed, ?_⟩,
      fun hword => isWord_canonical_of_readAtom hprimitive hword h⟩
    rw [Atom.trimmed_valueEq]
    exact valueEq_self_of_readAtom hprimitive h

end Atom

/-! ## Members that take a text over -/

/-- Whether each duration of a value has seconds that are split truly. -/
def TypedValue.IsSplitTruly (value : TypedValue) : Prop := ∀ atom ∈ value.atoms, atom.IsSplitTruly

theorem TypedValue.IsSplitTruly.of_valueEq {again : TypedValue} (heq : again.valueEq value = true)
    (h : value.IsSplitTruly) : again.IsSplitTruly := by
  cases again with
  | atomic atom =>
    cases value with
    | atomic other =>
      exact List.forall_mem_singleton.mpr (.of_valueEq heq (h other (List.mem_singleton_self other)))
    | list => cases heq
  | list again =>
    cases value with
    | atomic => cases heq
    | list list =>
      intro atom hatom
      obtain ⟨other, hother, heq⟩ := exists_mem_of_forall₂ (ListValue.valueEq_iff.mp heq).flip hatom
      exact .of_valueEq heq (h other hother)

namespace Graph

variable {graph : Graph}

/-- Whether each of some members finds a text invalid. -/
def AllReject (graph : Graph) (limits : Limits) (bindings? : Option Bindings)
    (members : List Handle) (text : String) : Prop :=
  ∀ member ∈ members, Rejects (graph.readValue limits bindings? member text)

/-- Whether the canonical text of a value that was read goes to another member than the
text that was read, and another value comes of it.

* `here`: a member of a union found the text invalid. Now it is the first that accepts, and
  the value that it reads does not match.
* `member`: the same member is asked again, and a text is taken over in it. If it finds the
  canonical text invalid for that, no member after it reads a value that matches.
* `item`: the canonical text of an item of a list is taken over in the type of the items. -/
inductive IsTakenOver (graph : Graph) (limits : Limits) (bindings? : Option Bindings) :
    Handle → String → TypedValue → Prop
  | here {handle earlier : Handle} {type : SimpleType} {before after : List Handle} {text : String}
      {value other : TypedValue} :
      graph.simpleType? handle = some type → type.variety = .union (before ++ earlier :: after) →
      graph.readValue limits bindings? handle text = .ok value →
      graph.AllReject limits bindings? before text →
      Rejects (graph.readValue limits bindings? earlier text) →
      graph.AllReject limits bindings? before value.canonical →
      graph.readValue limits bindings? earlier value.canonical = .ok other →
      ¬ other.Matches value → IsTakenOver graph limits bindings? handle text value
  | member {handle member : Handle} {type : SimpleType} {before after : List Handle} {text : String}
      {value : TypedValue} :
      graph.simpleType? handle = some type → type.variety = .union (before ++ member :: after) →
      graph.AllReject limits bindings? before text →
      graph.readValue limits bindings? member text = .ok value →
      graph.AllReject limits bindings? before value.canonical →
      IsTakenOver graph limits bindings? member text value →
      (Rejects (graph.readValue limits bindings? member value.canonical) →
        ∀ other, firstAccepting? (graph.readValue limits bindings? · value.canonical) after
          = .ok (some other) → ¬ other.Matches value) →
      IsTakenOver graph limits bindings? handle text value
  | item {handle : Handle} {type : SimpleType} {text : String} {list : ListValue}
      {word : List Char} {atom : Atom} :
      graph.simpleType? handle = some type → type.variety = .list list.itemType →
      graph.readValue limits bindings? handle text = .ok (.list list) →
      word ∈ words text.toList → atom ∈ list.items →
      graph.readValue limits bindings? list.itemType (String.ofList word) = .ok (.atomic atom) →
      IsTakenOver graph limits bindings? list.itemType (String.ofList word) (.atomic atom) →
      IsTakenOver graph limits bindings? handle text (.list list)

/-! ## Reading canonical texts -/

/-- Whether a text is read as a value that matches, unless a limit withholds it. -/
def GivesMatch (result : Except Error TypedValue) (value : TypedValue) : Prop :=
  ∃ again, Gives result again ∧ again.Matches value

/-- Members are passed over up to the first one that a limit stops or that accepts. -/
theorem firstAccepting?_cases {readMember : Handle → Except Error TypedValue}
    {before : List Handle} (rest : List Handle)
    (h : ∀ member ∈ before, Judged (readMember member)) :
    (∀ passed ∈ before, Rejects (readMember passed)) ∨
      (∃ fault, firstAccepting? readMember (before ++ rest) = .error (.limit fault)) ∨
      ∃ passed earlier after other, before = passed ++ earlier :: after ∧
        (∀ member ∈ passed, Rejects (readMember member)) ∧ readMember earlier = .ok other := by
  induction before with
  | nil => exact .inl (List.forall_mem_nil _)
  | cons member before ih =>
    obtain ⟨hmember, hbefore⟩ := List.forall_mem_cons.mp h
    cases hread : readMember member with
    | ok other => exact .inr (.inr ⟨[], member, before, other, rfl, List.forall_mem_nil _, hread⟩)
    | error error =>
      have habout := hmember error hread
      cases error with
      | misuse | definition => cases habout
      | limit fault =>
        refine .inr (.inl ⟨fault, ?_⟩)
        rw [List.cons_append, firstAccepting?, hread]
      | invalid cause =>
        have hrejects : Rejects (readMember member) := ⟨cause, hread⟩
        have hpass : firstAccepting? readMember (member :: before ++ rest)
            = firstAccepting? readMember (before ++ rest) :=
          firstAccepting?_append (List.forall_mem_singleton.mpr hrejects)
        rw [hpass, List.forall_mem_cons]
        rcases ih hbefore with hall | hlimit | ⟨passed, earlier, after, other, rfl, hpassed, hother⟩
        · exact .inl ⟨hrejects, hall⟩
        · exact .inr (.inl hlimit)
        · exact .inr (.inr ⟨member :: passed, earlier, after, other, rfl,
            List.forall_mem_cons.mpr ⟨hrejects, hpassed⟩, hother⟩)

/-- The first member that does not find the text invalid decides. -/
theorem gives_firstAccepting? {readMember : Handle → Except Error TypedValue}
    {before after : List Handle} {member : Handle}
    (hbefore : ∀ passed ∈ before, Rejects (readMember passed))
    (hmember : Gives (readMember member) value) :
    Gives (firstAccepting? readMember (before ++ member :: after)) (some value) := by
  rw [firstAccepting?_append hbefore, firstAccepting?]
  rcases hmember with ⟨fault, hfault⟩ | hok
  · rw [hfault]
    exact .inl ⟨fault, rfl⟩
  · rw [hok]
    exact gives_ok _

variable {members : List Handle} {list : ListValue}

namespace WellFormed

/-- The canonical text of an atom that was read from a word is a word. -/
theorem isWord_canonical_of_readValue (wf : graph.WellFormed) {atom : Atom}
    (htrue : atom.IsSplitTruly) (hword : IsWord text.toList)
    (h : graph.readValue limits bindings? handle text = .ok (.atomic atom)) :
    IsWord atom.canonical.toList := by
  cases wf.hasOrigin h with
  | atomic _ _ _ hread => exact (isReread_of_readAtom htrue hread).isWord hword

theorem isWord_canonical_of_readList (wf : graph.WellFormed)
    (htype : graph.simpleType? handle = some type) (hvariety : type.variety = .list list.itemType)
    (htrue : (TypedValue.list list).IsSplitTruly)
    (h : readList limits type list.itemType (graph.readValue limits bindings? list.itemType) text
      = .ok list) :
    ∀ atom ∈ list.items, IsWord atom.canonical.toList := by
  intro atom hatom
  obtain ⟨word, hword, hitem⟩ := exists_mem_of_forall₂ (wf.readList_words htype hvariety h) hatom
  refine wf.isWord_canonical_of_readValue (htrue atom hatom) ?_ hitem
  rw [String.toList_ofList]
  exact isWord_of_mem_words hword

/-- A list is read again if each item is. -/
theorem givesMatch_list (wf : graph.WellFormed) (htype : graph.simpleType? handle = some type)
    (hvariety : type.variety = .list list.itemType)
    (h : readList limits type list.itemType (graph.readValue limits bindings? list.itemType) text
      = .ok list)
    (htrue : (TypedValue.list list).IsSplitTruly)
    (hitems : ∀ atom ∈ list.items,
      GivesMatch (graph.readValue limits bindings? list.itemType atom.canonical) (.atomic atom)) :
    GivesMatch (graph.readValue limits bindings? handle list.canonical) (.list list) := by
  have hatoms : ∀ atom ∈ list.items, ∃ again : Atom,
      Gives (graph.readValue limits bindings? list.itemType atom.canonical) (.atomic again) ∧
        again.Matches atom := by
    intro atom hatom
    obtain ⟨again, hgives, hmatches⟩ := hitems atom hatom
    obtain ⟨again, rfl, hmatches⟩ := hmatches.exists_atomic
    exact ⟨again, hgives, hmatches⟩
  obtain ⟨items, hitems⟩ := exists_forall₂ hatoms
  have hmatches := ListValue.matches_of_forall₂ (hitems.imp fun _ _ hitem => hitem.2)
  have hcount := (wf.readList_words htype hvariety h).length_eq
  rw [← words_normalizeText type.facets.whiteSpace] at hcount
  obtain ⟨-, -, -, -, -, henum⟩ := readList_eq_ok.mp h
  refine ⟨_, ?_, hmatches⟩
  rw [wf.readValue_eq htype, hvariety]
  have hword := wf.isWord_canonical_of_readList htype hvariety htrue h
  exact (gives_readList_canonical h hcount.symm hword (hitems.imp fun _ _ hitem => hitem.1)
    (FacetSet.checkEnumeration_congr hmatches.2 henum)).map TypedValue.list

/-- A union is read again if the search finds a value that matches. -/
theorem givesMatch_union (wf : graph.WellFormed) {again : TypedValue}
    (htype : graph.simpleType? handle = some type) (hvariety : type.variety = .union members)
    (henum : type.facets.checkEnumeration value = .ok ()) (hmatches : again.Matches value)
    (h : Gives (firstAccepting? (graph.readValue limits bindings? · value.canonical) members)
      (some again)) :
    GivesMatch (graph.readValue limits bindings? handle value.canonical) value := by
  have henum' := FacetSet.checkEnumeration_congr hmatches.2 henum
  refine ⟨again, ?_, hmatches⟩
  rw [wf.readValue_eq htype, hvariety]
  exact h.bind ((gives_ofInvalid henum').bind (gives_ok _))

theorem matches_or_isTakenOver_list (wf : graph.WellFormed)
    (htype : graph.simpleType? handle = some type) (hvariety : type.variety = .list list.itemType)
    (htrue : (TypedValue.list list).IsSplitTruly)
    (hitems : ∀ atom ∈ list.items, ∀ text,
      graph.readValue limits bindings? list.itemType text = .ok (.atomic atom) →
      GivesMatch (graph.readValue limits bindings? list.itemType atom.canonical) (.atomic atom) ∨
        graph.IsTakenOver limits bindings? list.itemType text (.atomic atom))
    (h : graph.readValue limits bindings? handle text = .ok (.list list)) :
    GivesMatch (graph.readValue limits bindings? handle list.canonical) (.list list) ∨
      graph.IsTakenOver limits bindings? handle text (.list list) := by
  have hread := h
  rw [wf.readValue_eq htype, hvariety] at hread
  obtain ⟨_, hlist, ⟨⟩⟩ := map_eq_ok.mp hread
  by_cases htaken : ∃ word ∈ words text.toList, ∃ atom ∈ list.items,
      graph.readValue limits bindings? list.itemType (String.ofList word) = .ok (.atomic atom) ∧
        graph.IsTakenOver limits bindings? list.itemType (String.ofList word) (.atomic atom)
  · obtain ⟨word, hword, atom, hatom, hitem, htaken⟩ := htaken
    exact .inr (.item htype hvariety h hword hatom hitem htaken)
  · refine .inl (wf.givesMatch_list htype hvariety hlist htrue ?_)
    intro atom hatom
    obtain ⟨word, hword, hitem⟩ :=
      exists_mem_of_forall₂ (wf.readList_words htype hvariety hlist) hatom
    exact (hitems atom hatom _ hitem).resolve_right
      fun hover => htaken ⟨word, hword, atom, hatom, hitem, hover⟩

theorem matches_or_isTakenOver_union (wf : graph.WellFormed)
    (htype : graph.simpleType? handle = some type) (hvariety : type.variety = .union members)
    (hmembers : ∀ member ∈ members, graph.readValue limits bindings? member text = .ok value →
      GivesMatch (graph.readValue limits bindings? member value.canonical) value ∨
        graph.IsTakenOver limits bindings? member text value)
    (h : graph.readValue limits bindings? handle text = .ok value) :
    GivesMatch (graph.readValue limits bindings? handle value.canonical) value ∨
      graph.IsTakenOver limits bindings? handle text value := by
  obtain ⟨-, hparts⟩ := wf.union_parts htype hvariety
  have hread := h
  rw [wf.readValue_eq htype, hvariety] at hread
  obtain ⟨hfirst, henum⟩ := readUnion_eq_ok.mp hread
  obtain ⟨before, member, after, rfl, hbefore, hmember⟩ := exists_first_of_firstAccepting? hfirst
  have hjudged : ∀ passed ∈ before,
      Judged (graph.readValue limits bindings? passed value.canonical) := fun passed hpassed =>
    wf.judged_readValue (hparts passed (List.mem_append_left _ hpassed)).2 _
  -- Which of the members before the one that read the text stops the search now?
  rcases firstAccepting?_cases (member :: after) hjudged with
    hall | ⟨fault, hfault⟩ | ⟨passed, earlier, between, other, rfl, hpassed, hother⟩
  · rcases hmembers member (List.mem_append_right _ List.mem_cons_self) hmember with
      ⟨again, hgives, hmatches⟩ | hover
    · exact .inl (wf.givesMatch_union htype hvariety henum hmatches
        (gives_firstAccepting? hall hgives))
    · by_cases hlater : Rejects (graph.readValue limits bindings? member value.canonical) ∧
          ∃ other, firstAccepting? (graph.readValue limits bindings? · value.canonical) after
            = .ok (some other) ∧ other.Matches value
      · obtain ⟨hrejects, other, hother, hmatches⟩ := hlater
        have hpassed := List.forall_mem_append.mpr ⟨hall, List.forall_mem_singleton.mpr hrejects⟩
        refine .inl (wf.givesMatch_union htype hvariety henum hmatches (.inr ?_))
        rw [List.append_cons, firstAccepting?_append hpassed]
        exact hother
      · exact .inr (.member htype hvariety hbefore hmember hall hover
          fun hrejects other hother hmatches => hlater ⟨hrejects, other, hother, hmatches⟩)
  · exact .inl (wf.givesMatch_union htype hvariety henum
      ⟨rfl, wf.valueEq_self_of_readValue h⟩ (.inl ⟨fault, hfault⟩))
  · rw [List.append_assoc, List.cons_append] at hvariety
    rw [List.forall_mem_append, List.forall_mem_cons] at hbefore
    by_cases hmatches : other.Matches value
    · exact .inl (wf.givesMatch_union htype hvariety henum hmatches
        (gives_firstAccepting? hpassed (.inr hother)))
    · exact .inr (.here htype hvariety h hbefore.1 hbefore.2.1 hpassed hother hmatches)

/-- A text that was read is read again from its canonical text, as a value that matches,
unless a member takes the canonical text over. The induction goes along the handles. -/
theorem matches_or_isTakenOver (wf : graph.WellFormed) (htrue : value.IsSplitTruly)
    (h : graph.readValue limits bindings? handle text = .ok value) :
    GivesMatch (graph.readValue limits bindings? handle value.canonical) value ∨
      graph.IsTakenOver limits bindings? handle text value := by
  induction handle using Handle.induction generalizing text value with
  | whole handle ih =>
    obtain ⟨type, htype⟩ := exists_simpleType_of_readValue h
    have hread := h
    rw [wf.readValue_eq htype] at hread
    cases hvariety : type.variety with
    | atomic primitive =>
      rw [hvariety] at hread
      obtain ⟨atom, hatom, rfl⟩ := map_eq_ok.mp hread
      obtain ⟨again, hgives, hmatches⟩ :=
        (isReread_of_readAtom (htrue atom (List.mem_singleton_self atom)) hatom).gives
      refine .inl ⟨.atomic again, ?_, hmatches⟩
      rw [wf.readValue_eq htype, hvariety]
      exact hgives.map TypedValue.atomic
    | list item =>
      rw [hvariety] at hread
      obtain ⟨list, hlist, rfl⟩ := map_eq_ok.mp hread
      obtain ⟨_, -, -, -, heq, -⟩ := readList_eq_ok.mp hlist
      obtain rfl : list.itemType = item := congrArg ListValue.itemType heq
      exact wf.matches_or_isTakenOver_list htype hvariety htrue (fun atom hatom _ =>
        ih list.itemType (wf.list_parts htype hvariety).1.1 (List.forall_mem_singleton.mpr (htrue atom hatom))) h
    | union members =>
      obtain ⟨-, hparts⟩ := wf.union_parts htype hvariety
      exact wf.matches_or_isTakenOver_union htype hvariety (fun member hmember =>
        ih member (hparts member hmember).1 htrue) h

/-- Where the canonical text of a list is read as a list that matches, each item is read from
its own canonical text as one that matches. -/
theorem exists_readItem_of_matches (wf : graph.WellFormed) {again : TypedValue} {atom : Atom}
    (htype : graph.simpleType? handle = some type) (hvariety : type.variety = .list list.itemType)
    (htrue : (TypedValue.list list).IsSplitTruly)
    (h : graph.readValue limits bindings? handle text = .ok (.list list))
    (hagain : graph.readValue limits bindings? handle list.canonical = .ok again)
    (hmatches : again.Matches (.list list)) (hatom : atom ∈ list.items) :
    ∃ other : Atom, graph.readValue limits bindings? list.itemType atom.canonical
      = .ok (.atomic other) ∧ other.Matches atom := by
  rw [wf.readValue_eq htype, hvariety] at h hagain
  obtain ⟨_, hlist, ⟨⟩⟩ := map_eq_ok.mp h
  obtain ⟨next, hnext, rfl⟩ := map_eq_ok.mp hagain
  obtain ⟨_, -, -, -, heq, -⟩ := readList_eq_ok.mp hnext
  have hitem : next.itemType = list.itemType := by rw [heq]
  rw [← hitem] at hnext hvariety
  have hnextWord := wf.isWord_canonical_of_readList htype hvariety (.of_valueEq hmatches.2 htrue)
    hnext
  have hpairs := wf.readList_words htype hvariety hnext
  rw [hitem] at hvariety
  have hword := wf.isWord_canonical_of_readList htype hvariety htrue hlist
  rw [words_canonical hword, List.forall₂_map_left_iff, hitem] at hpairs
  obtain ⟨other, hother, hmatch⟩ :=
    ListValue.exists_of_matches hmatches hword hnextWord hpairs hatom
  rw [String.ofList_toList] at hother
  exact ⟨other, hother, hmatch⟩

/-- Where a text is taken over, no value that matches is read from the canonical text. The
induction follows the members and items that took part. -/
theorem not_matches_of_isTakenOver (wf : graph.WellFormed) {again : TypedValue}
    (htrue : value.IsSplitTruly) (hover : graph.IsTakenOver limits bindings? handle text value)
    (h : graph.readValue limits bindings? handle value.canonical = .ok again) :
    ¬ again.Matches value := by
  induction hover generalizing again with
  | here htype hvariety _ _ _ hpassed hother hmatches =>
    rw [wf.readValue_eq htype, hvariety] at h
    have hfirst := (readUnion_eq_ok.mp h).1
    rw [firstAccepting?_append hpassed, firstAccepting?, hother] at hfirst
    obtain rfl : _ = again := by simpa using hfirst
    exact hmatches
  | @member handle member type before after text value htype hvariety _ _ hpassed _ hlater ih =>
    rw [wf.readValue_eq htype, hvariety] at h
    have hfirst := (readUnion_eq_ok.mp h).1
    rw [firstAccepting?_append hpassed, firstAccepting?] at hfirst
    cases hread : graph.readValue limits bindings? member value.canonical with
    | ok other =>
      rw [hread] at hfirst
      obtain rfl : other = again := by simpa using hfirst
      exact ih htrue hread
    | error error =>
      rw [hread] at hfirst
      cases error with
      | invalid cause => exact hlater ⟨cause, hread⟩ again hfirst
      | _ => cases hfirst
  | @item handle type text list word atom htype hvariety hlist _ hatom _ _ ih =>
    intro hmatches
    obtain ⟨other, hother, hmatch⟩ :=
      wf.exists_readItem_of_matches htype hvariety htrue hlist h hmatches hatom
    exact ih (List.forall_mem_singleton.mpr (htrue atom hatom)) hother hmatch

end WellFormed

end Graph

namespace Builder

/-- In the graph of every run, unless a limit prevents it, the canonical text of an accepted
text is accepted with the same canonical text and an equal value if and only if no member of
a union takes the canonical text over from a later one. The type may be any simple type, and
the durations of the value have seconds that are split truly. -/
theorem run_validate_matches (steps : List Step) (htrue : value.IsSplitTruly)
    (h : (start.run steps).graph.validate limits bindings? handle text = .ok value) :
    (∃ fault, (start.run steps).graph.validate limits bindings? handle value.canonical
        = .error (.limit fault)) ∨
      ((∃ again, (start.run steps).graph.validate limits bindings? handle value.canonical
          = .ok again ∧ again.canonical = value.canonical ∧ again.valueEq value = true) ↔
        ¬ (start.run steps).graph.IsTakenOver limits bindings? handle text value) := by
  have wf := run_wellFormed steps
  obtain ⟨_, -, hread⟩ := bind_eq_ok.mp h
  by_cases hover : (start.run steps).graph.IsTakenOver limits bindings? handle text value
  · refine .inr ⟨?_, fun hnot => absurd hover hnot⟩
    rintro ⟨again, hagain, hmatches⟩
    obtain ⟨_, -, hagain⟩ := bind_eq_ok.mp hagain
    exact absurd hmatches (wf.not_matches_of_isTakenOver htrue hover hagain)
  · obtain ⟨again, hgives, hmatches⟩ := (wf.matches_or_isTakenOver htrue hread).resolve_right hover
    have hvalidate : Gives ((start.run steps).graph.validate limits bindings? handle
        value.canonical) again := (gives_ofLimit _).bind (f := fun _ => _) hgives
    rcases hvalidate with hlimit | hok
    · exact .inl hlimit
    · exact .inr ⟨fun _ => hover, fun _ => ⟨again, hok, hmatches⟩⟩

/-- A union of floating point numbers and of lists of truth values and durations. -/
def truthsAndTimes : List Step := [
  .define (.union none [(Builtin.primitive .boolean).handle, (Builtin.primitive .duration).handle]),
  .define (.list none ⟨45⟩),
  .define (.union none [(Builtin.primitive .double).handle, ⟨46⟩])]

/-- The value of `PT36H 1`. -/
def dayAndHalfAndTrue : TypedValue :=
  .list ⟨⟨45⟩, [Duration.dayAndHalf.atom (Builtin.primitive .duration).handle,
    ⟨.boolean true, (Builtin.primitive .boolean).handle, .boolean⟩]⟩

theorem run_validate_matches_truthsAndTimes :
    (start.run truthsAndTimes).graph.validate .standard none ⟨47⟩ "PT36H 1"
        = .ok dayAndHalfAndTrue ∧
      dayAndHalfAndTrue.IsSplitTruly ∧ dayAndHalfAndTrue.canonical = "P1DT12H true" ∧
      (start.run truthsAndTimes).graph.validate .standard none ⟨47⟩ "P1DT12H true"
        = .ok dayAndHalfAndTrue ∧
      ¬ (start.run truthsAndTimes).graph.IsTakenOver .standard none ⟨47⟩ "PT36H 1"
        dayAndHalfAndTrue := by
  have htext : (start.run truthsAndTimes).graph.validate .standard none ⟨47⟩ "PT36H 1"
      = .ok dayAndHalfAndTrue := by decide +kernel
  have hcanonical : dayAndHalfAndTrue.canonical = "P1DT12H true" := by decide +kernel
  have hagain : (start.run truthsAndTimes).graph.validate .standard none ⟨47⟩ "P1DT12H true"
      = .ok dayAndHalfAndTrue := by decide +kernel
  have htrue : dayAndHalfAndTrue.IsSplitTruly := by
    refine List.forall_mem_cons.mpr ⟨?_, List.forall_mem_singleton.mpr nofun⟩
    rintro _ ⟨⟩
    exact Duration.isSplitTruly_of_isShort
      ⟨⟨by decide, by decide, by decide⟩, by decide, by decide⟩
  refine ⟨htext, htrue, hcanonical, hagain, ?_⟩
  rcases run_validate_matches truthsAndTimes htrue htext with ⟨fault, hfault⟩ | hiff
  · rw [hcanonical, hagain] at hfault
    cases hfault
  · exact hiff.mp ⟨dayAndHalfAndTrue, hcanonical.symm ▸ hagain, rfl, by decide +kernel⟩

/-- A union of truth values and numbers. -/
def truthOrNumber : List Step := [
  .define (.union none [(Builtin.primitive .boolean).handle, (Builtin.primitive .decimal).handle])]

/-- The value of `1.0` as a number. -/
def onePointZero : TypedValue :=
  .atomic ⟨.decimal ⟨false, ['1'], [], 1⟩, (Builtin.primitive .decimal).handle, .decimal⟩

/-- The canonical text of a number is a truth value. -/
theorem run_validate_matches_fails_truthOrNumber :
    (start.run truthOrNumber).graph.validate .standard none ⟨45⟩ "1.0" = .ok onePointZero ∧
      onePointZero.canonical = "1" ∧
      ¬ ((∃ fault, (start.run truthOrNumber).graph.validate .standard none ⟨45⟩ "1"
            = .error (.limit fault)) ∨
        ∃ again, (start.run truthOrNumber).graph.validate .standard none ⟨45⟩ "1" = .ok again ∧
          again.canonical = onePointZero.canonical ∧ again.valueEq onePointZero = true) := by
  have hagain : (start.run truthOrNumber).graph.validate .standard none ⟨45⟩ "1"
      = .ok (.atomic ⟨.boolean true, (Builtin.primitive .boolean).handle, .boolean⟩) := by
    decide +kernel
  refine ⟨by decide +kernel, by decide +kernel, ?_⟩
  rintro (⟨fault, hfault⟩ | ⟨again, hok, -, hequal⟩)
  · rw [hagain] at hfault
    cases hfault
  · rw [hagain] at hok
    cases hok
    cases hequal

end Builder

end SimpleTypes
