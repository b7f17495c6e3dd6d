import SimpleTypes.Proofs.Schema.Runs
import SimpleTypes.Proofs.Value.Coherence

/-!
# Atoms of values

Where the atoms of a value come from, and what follows from it for the equality
and the order of values.

* `WellFormed.hasOrigin`: a value was read by an atomic type or a list type that is
  the given one or stands in it as a member.
* `WellFormed.readList_words`: the items of a list are the values of the words.
* `WellFormed.exists_readAtom`: each atom of a value was read by the atomic type
  that it names, and this type stands in the given one.
* `isValidated_coherent`: equality is an equivalence on the values that validation
  returns, and the order of atoms is an order of their equality classes, as far as
  it goes.
-/

namespace SimpleTypes

variable {limits : Limits} {bindings? : Option Bindings} {handle : Handle} {type : SimpleType}
  {text : String} {value : TypedValue} {atom : Atom}

/-! ## Atoms -/

namespace Graph

variable {graph : Graph}

/-- Whether an atom was read from some text by the atomic type that it names. -/
def HasRead (graph : Graph) (limits : Limits) (bindings? : Option Bindings) (atom : Atom) : Prop :=
  ∃ type text, graph.simpleType? atom.type = some type ∧ type.variety = .atomic atom.primitive ∧
    readAtom limits bindings? atom.type type atom.primitive text = .ok atom

/-- Whether a value is an atom that an atomic type has read, or a list that a list type
has read. The type is the given one or stands in it as a member. -/
inductive HasOrigin (graph : Graph) (limits : Limits) (bindings? : Option Bindings)
    (handle : Handle) (text : String) : TypedValue → Prop
  | atomic {atom : Atom} {type : SimpleType} :
      graph.ReachesMember handle atom.type → graph.simpleType? atom.type = some type →
        type.variety = .atomic atom.primitive →
          readAtom limits bindings? atom.type type atom.primitive text = .ok atom →
            HasOrigin graph limits bindings? handle text (.atomic atom)
  | list {list : ListValue} {whole : Handle} {type : SimpleType} :
      graph.ReachesMember handle whole → graph.simpleType? whole = some type →
        type.variety = .list list.itemType →
          readList limits type list.itemType (graph.readValue limits bindings? list.itemType) text
            = .ok list →
            HasOrigin graph limits bindings? handle text (.list list)

theorem HasOrigin.of_hasMember {member : Handle} (hmember : graph.HasMember handle member)
    (h : graph.HasOrigin limits bindings? member text value) :
    graph.HasOrigin limits bindings? handle text value := by
  cases h with
  | atomic hreach htype hvariety hread => exact .atomic (hreach.head hmember) htype hvariety hread
  | list hreach htype hvariety hread => exact .list (hreach.head hmember) htype hvariety hread

/-- A value of a union is that of a member, and members stand before the union. -/
theorem WellFormed.hasOrigin (wf : graph.WellFormed)
    (h : graph.readValue limits bindings? handle text = .ok value) :
    graph.HasOrigin limits bindings? handle text value := by
  induction handle using Handle.induction with
  | whole handle ih =>
    obtain ⟨type, htype⟩ := exists_simpleType_of_readValue h
    rw [wf.readValue_eq htype] at h
    cases hvariety : type.variety with
    | atomic primitive =>
      rw [hvariety] at h
      obtain ⟨atom, hread, rfl⟩ := map_eq_ok.mp h
      obtain ⟨native, -, rfl, -⟩ := readAtom_eq_ok.mp hread
      exact .atomic .refl htype hvariety hread
    | list item =>
      rw [hvariety] at h
      obtain ⟨list, hread, rfl⟩ := map_eq_ok.mp h
      obtain ⟨values, -, -, -, rfl, -⟩ := readList_eq_ok.mp hread
      exact .list .refl htype hvariety hread
    | union members =>
      rw [hvariety] at h
      obtain ⟨member, hmember, hread⟩ := firstAccepting?_eq_some (readUnion_eq_ok.mp h).1
      have hbefore := ((wf.union_parts htype hvariety).2 member hmember).1
      exact (ih member hbefore hread).of_hasMember ⟨type, members, htype, hvariety, hmember⟩

/-- Where no list stands in a type, its values are atoms. -/
theorem WellFormed.exists_atom_of_readValue (wf : graph.WellFormed)
    (hfree : ¬ ReachesList graph handle)
    (h : graph.readValue limits bindings? handle text = .ok value) :
    ∃ atom, value = .atomic atom := by
  cases wf.hasOrigin h with
  | atomic => exact ⟨_, rfl⟩
  | list hreach htype hvariety =>
    exact absurd (reachesList_of_reachesMember hreach htype hvariety) hfree

/-- The items of a list are atoms, one for each word of the text. -/
theorem WellFormed.readList_words (wf : graph.WellFormed) {whole : Handle} {type : SimpleType}
    {list : ListValue} (htype : graph.simpleType? whole = some type)
    (hvariety : type.variety = .list list.itemType)
    (h : readList limits type list.itemType (graph.readValue limits bindings? list.itemType) text
      = .ok list) :
    List.Forall₂ (fun word atom => graph.readValue limits bindings? list.itemType
      (String.ofList word) = .ok (.atomic atom)) (words text.toList) list.items := by
  have hfree := (wf.list_parts htype hvariety).2
  obtain ⟨values, -, -, hvalues, hlist, -⟩ := readList_eq_ok.mp h
  rw [words_normalizeText] at hvalues
  rw [congrArg ListValue.items hlist]
  exact forall₂_atomic (fun _ _ => wf.exists_atom_of_readValue hfree) hvalues

/-- Each atom of a value was read by an atomic type that stands in the type of the
value. -/
theorem WellFormed.exists_readAtom (wf : graph.WellFormed)
    (h : graph.readValue limits bindings? handle text = .ok value) (hatom : atom ∈ value.atoms) :
    graph.Reaches handle atom.type ∧ graph.HasRead limits bindings? atom := by
  cases wf.hasOrigin h with
  | atomic hreach htype hvariety hread =>
    obtain rfl := List.mem_singleton.mp hatom
    exact ⟨hreach.reaches, _, text, htype, hvariety, hread⟩
  | @list list whole type hreach htype hvariety hread =>
    -- The item was read by a type without lists, so it is an atom of that type.
    obtain ⟨word, -, hitem⟩ := exists_mem_of_forall₂ (wf.readList_words htype hvariety hread) hatom
    cases wf.hasOrigin hitem with
    | atomic hreach' htype' hvariety' hread' =>
      exact ⟨hreach.reaches.trans (.head (.inr ⟨type, htype, hvariety⟩) hreach'.reaches),
        _, String.ofList word, htype', hvariety', hread'⟩

/-- A value that was read is equal to itself. -/
theorem WellFormed.valueEq_self_of_readValue (wf : graph.WellFormed)
    (h : graph.readValue limits bindings? handle text = .ok value) :
    value.valueEq value = true := by
  refine TypedValue.valueEq_self ?_
  intro atom hatom
  obtain ⟨-, type, text, -, -, hread⟩ := wf.exists_readAtom h hatom
  obtain ⟨native, hnative, hatom, -⟩ := readAtom_eq_ok.mp hread
  have hself : native.valueEq native = true := Native.valueEq_self_of_readAtomic hnative
  rw [hatom]
  simpa [Atom.valueEq] using hself

end Graph

namespace Builder

/-- Whether a value is what validation makes of some text in the graph of some
run. -/
def IsValidated (value : TypedValue) : Prop :=
  ∃ (steps : List Step) (limits : Limits) (bindings? : Option Bindings) (handle : Handle)
    (text : String), (start.run steps).graph.validate limits bindings? handle text = .ok value

/-- Equality is an equivalence on the values that validation returns. The order of
atoms turns round with the pair, its relations are transitive, and it makes no
difference between equal atoms. -/
theorem isValidated_coherent :
    (∀ v, IsValidated v → v.valueEq v = true) ∧
    (∀ v w : TypedValue, v.valueEq w = true → w.valueEq v = true) ∧
    (∀ v w u : TypedValue, v.valueEq w = true → w.valueEq u = true → v.valueEq u = true) ∧
    (∀ a b : Atom, b.order? a = (a.order? b).map Ordering.swap) ∧
    (∀ (order : Ordering) (a b c : Atom), a.order? b = some order → b.order? c = some order →
      a.order? c = some order) ∧
    (∀ a b c : Atom, (a.order? b).any Ordering.isLE = true → (b.order? c).any Ordering.isLE = true →
      (a.order? c).any Ordering.isLE = true) ∧
    ∀ a b c : Atom, a.valueEq b = true → a.order? c = b.order? c := by
  refine ⟨?_, fun v w => TypedValue.valueEq_symm, fun v w u => TypedValue.valueEq_trans,
    Atom.isOriented, fun order a b c => Atom.isTransitive.order_trans,
    fun a b c => Atom.isTransitive.trans composes_isLE, fun a b c h => Atom.order?_congr h c⟩
  rintro v ⟨steps, limits, bindings?, handle, text, h⟩
  obtain ⟨_, -, hread⟩ := bind_eq_ok.mp h
  exact (run_wellFormed steps).valueEq_self_of_readValue hread

/-- A list of a value that is not a number and of the zero below zero. -/
def nanAndZero : TypedValue :=
  .list ⟨(Builtin.primitive .double).handle,
    [⟨.double .nan, (Builtin.primitive .double).handle, .double⟩,
      ⟨.double (.number true 0), (Builtin.primitive .double).handle, .double⟩]⟩

/-- An atom of durations. -/
def durationAtom (duration : Duration) : Atom :=
  ⟨.duration duration, (Builtin.primitive .duration).handle, .duration⟩

theorem isValidated_coherent_durations :
    (IsValidated nanAndZero ∧ nanAndZero.valueEq nanAndZero = true) ∧
    (durationAtom ⟨false, 0, ⟨900, 1⟩⟩).valueEq (durationAtom ⟨false, 0, ⟨90, 0⟩⟩) = true ∧
      (durationAtom ⟨false, 0, ⟨900, 1⟩⟩).order? (durationAtom ⟨false, 1, ⟨0, 0⟩⟩)
        = (durationAtom ⟨false, 0, ⟨90, 0⟩⟩).order? (durationAtom ⟨false, 1, ⟨0, 0⟩⟩) := by
  have hvalidated : IsValidated nanAndZero :=
    ⟨[.define (.list none (Builtin.primitive .double).handle)], .standard, none, ⟨45⟩, "NaN -0",
      by decide +kernel⟩
  have hequal : (durationAtom ⟨false, 0, ⟨900, 1⟩⟩).valueEq (durationAtom ⟨false, 0, ⟨90, 0⟩⟩)
      = true := by decide
  obtain ⟨hself, -, -, -, -, -, hcongr⟩ := isValidated_coherent
  exact ⟨⟨hvalidated, hself _ hvalidated⟩, hequal, hcongr _ _ _ hequal⟩

end Builder

end SimpleTypes
