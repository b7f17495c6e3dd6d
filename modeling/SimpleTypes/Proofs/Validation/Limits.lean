import SimpleTypes.Proofs.Schema.References

/-!
# Raising the limits

Limits only withhold an answer. So a reading under some limits ends as it does
under larger ones, unless a limit stops it.

* `UpToLimits` compares two results in this sense. The steps of a reading keep
  it: `UpToLimits.bind`, `UpToLimits.map` and `UpToLimits.mapM`.
* `upToLimits_readAtom`, `upToLimits_readList` and `upToLimits_readUnion`: the
  three varieties.
* `validate_eq_of_le`: an answer under some limits is the answer under larger ones.
-/

namespace SimpleTypes

/-! ## Comparing limits -/

/-- Limits are compared one by one. -/
instance : LE Limits where
  le limits larger := limits.lexicalLength ≤ larger.lexicalLength ∧
    limits.listItems ≤ larger.listItems ∧ limits.decimalDigits ≤ larger.decimalDigits ∧
    limits.temporalDigits ≤ larger.temporalDigits

instance : DecidableLE Limits := fun _ _ => inferInstanceAs (Decidable (_ ∧ _ ∧ _ ∧ _))

/-! ## Comparing results -/

section UpToLimits

variable {α β : Type} {x y : Except Error α}

/-- Whether a result is the other one, unless a limit withholds it. -/
def UpToLimits (x y : Except Error α) : Prop := (∃ fault, x = .error (.limit fault)) ∨ x = y

theorem UpToLimits.refl (x : Except Error α) : UpToLimits x x := .inr rfl

theorem UpToLimits.eq_of_ne (h : UpToLimits x y) (hanswer : ∀ fault, x ≠ .error (.limit fault)) :
    y = x := by
  rcases h with ⟨fault, hfault⟩ | rfl
  · exact absurd hfault (hanswer fault)
  · rfl

theorem UpToLimits.bind {f g : α → Except Error β} (hx : UpToLimits x y)
    (hf : ∀ a, UpToLimits (f a) (g a)) : UpToLimits (x >>= f) (y >>= g) := by
  rcases hx with ⟨fault, rfl⟩ | rfl
  · exact .inl ⟨fault, rfl⟩
  · cases x with
    | ok a => exact hf a
    | error error => exact .inr rfl

theorem UpToLimits.map (hx : UpToLimits x y) (f : α → β) : UpToLimits (f <$> x) (f <$> y) := by
  rcases hx with ⟨fault, rfl⟩ | rfl
  · exact .inl ⟨fault, rfl⟩
  · exact .inr rfl

theorem UpToLimits.mapM {f g : α → Except Error β} (hf : ∀ a, UpToLimits (f a) (g a))
    (as : List α) : UpToLimits (as.mapM f) (as.mapM g) := by
  induction as with
  | nil => exact .refl _
  | cons a as ih =>
    rw [List.mapM_cons, List.mapM_cons]
    exact (hf a).bind fun _ => ih.bind fun _ => .refl _

/-- What passes a limit passes a larger one. -/
theorem upToLimits_ofLimit {most larger count : Nat} {fault fault' : LimitFault}
    (h : most ≤ larger) :
    UpToLimits (Error.ofLimit (if most < count then .error fault else .ok ()))
      (Error.ofLimit (if larger < count then .error fault' else .ok ())) := by
  by_cases hcount : most < count
  · rw [if_pos hcount]
    exact .inl ⟨fault, rfl⟩
  · rw [if_neg hcount, if_neg (by omega)]
    exact .refl _

end UpToLimits

/-! ## The three varieties -/

variable {limits larger : Limits} {bindings? : Option Bindings} {handle item : Handle}
  {type : SimpleType} {primitive : Primitive} {rule : LexicalRule} {text : String}
  {members : List Handle}

theorem upToLimits_readDecimal (hle : limits ≤ larger) :
    UpToLimits (readDecimal rule text limits) (readDecimal rule text larger) :=
  (upToLimits_ofLimit hle.2.2.1).bind fun _ => .refl _

/-- The ceiling on temporal fields is the same under all limits. -/
theorem upToLimits_readTemporal {α : Type} {form : LexicalForm} {parse? : List Char → Option α}
    (hle : limits ≤ larger) :
    UpToLimits (readTemporal form parse? text limits) (readTemporal form parse? text larger) :=
  (upToLimits_ofLimit (by have := hle.2.2.2; omega)).bind fun _ => .refl _

theorem upToLimits_readAtomic (hle : limits ≤ larger) :
    UpToLimits (readAtomic primitive rule text bindings? limits)
      (readAtomic primitive rule text bindings? larger) := by
  cases primitive with
  | decimal => exact (upToLimits_readDecimal hle).map _
  | duration | temporal => exact (upToLimits_readTemporal hle).map _
  | _ => exact .refl _

theorem upToLimits_readAtom (hle : limits ≤ larger) :
    UpToLimits (readAtom limits bindings? handle type primitive text)
      (readAtom larger bindings? handle type primitive text) :=
  (upToLimits_readAtomic hle).bind fun _ => .refl _

theorem upToLimits_readList {readItem readItem' : String → Except Error TypedValue}
    (hle : limits ≤ larger) (hitem : ∀ piece, UpToLimits (readItem piece) (readItem' piece)) :
    UpToLimits (readList limits type item readItem text)
      (readList larger type item readItem' text) :=
  (upToLimits_ofLimit hle.2.1).bind fun _ => (UpToLimits.refl _).bind fun _ =>
    (UpToLimits.mapM (fun _ => hitem _) _).bind fun _ => .refl _

/-- A member that a limit stops ends the search. So larger limits never let an
earlier member answer in the place of a later one. -/
theorem upToLimits_firstAccepting? {readMember readMember' : Handle → Except Error TypedValue}
    (hmember : ∀ member, UpToLimits (readMember member) (readMember' member)) :
    UpToLimits (firstAccepting? readMember members) (firstAccepting? readMember' members) := by
  induction members with
  | nil => exact .refl _
  | cons member rest ih =>
    simp only [firstAccepting?]
    rcases hmember member with ⟨fault, hfault⟩ | heq
    · rw [hfault]
      exact .inl ⟨fault, rfl⟩
    · rw [← heq]
      cases readMember member with
      | ok value => exact .refl _
      | error error =>
        cases error with
        | invalid cause => exact ih
        | _ => exact .refl _

theorem upToLimits_readUnion {readMember readMember' : Handle → Except Error TypedValue}
    (hmember : ∀ member, UpToLimits (readMember member) (readMember' member)) :
    UpToLimits (readUnion type members readMember text)
      (readUnion type members readMember' text) :=
  (upToLimits_firstAccepting? hmember).bind fun _ => .refl _

/-! ## All simple types -/

namespace Graph

/-- The induction goes along the handles. Whether the parts of a type stand before
it is asked in both readings alike. -/
theorem upToLimits_readValue (graph : Graph) (hle : limits ≤ larger) (bindings? : Option Bindings)
    (handle : Handle) (text : String) :
    UpToLimits (graph.readValue limits bindings? handle text)
      (graph.readValue larger bindings? handle text) := by
  induction handle using Handle.induction generalizing text with
  | whole handle ih =>
    rw [readValue, readValue]
    cases graph.requireSimpleType handle with
    | error cause => exact .refl _
    | ok type =>
      have hpart : ∀ (part : Handle) (text : String), UpToLimits
          (if part.index < handle.index then graph.readValue limits bindings? part text
            else .error (.misuse (.absentHandle part)))
          (if part.index < handle.index then graph.readValue larger bindings? part text
            else .error (.misuse (.absentHandle part))) := by
        intro part text
        split
        case isTrue hbefore => exact ih part hbefore text
        case isFalse => exact .refl _
      cases hvariety : type.variety with
      | atomic primitive =>
        simp only [hvariety]
        exact (upToLimits_readAtom hle).map _
      | list item =>
        simp only [hvariety]
        exact (upToLimits_readList hle (hpart item)).map _
      | union members =>
        simp only [hvariety]
        exact upToLimits_readUnion fun member => hpart member text

theorem upToLimits_validate (graph : Graph) (hle : limits ≤ larger) (bindings? : Option Bindings)
    (handle : Handle) (text : String) :
    UpToLimits (graph.validate limits bindings? handle text)
      (graph.validate larger bindings? handle text) :=
  (upToLimits_ofLimit hle.1).bind fun _ => graph.upToLimits_readValue hle bindings? handle text

/-- An answer under some limits is the answer under larger ones, whether the text
is accepted or not. -/
theorem validate_eq_of_le (graph : Graph) (hle : limits ≤ larger) (bindings? : Option Bindings)
    (handle : Handle) (text : String)
    (h : ∀ fault, graph.validate limits bindings? handle text ≠ .error (.limit fault)) :
    graph.validate larger bindings? handle text = graph.validate limits bindings? handle text :=
  (graph.upToLimits_validate hle bindings? handle text).eq_of_ne h

/-- Lists of numbers, and a union of these lists and of all texts. -/
def numbersOrText : List Builder.Step := [
  .define (.list none (Builtin.primitive .decimal).handle),
  .define (.union none [⟨45⟩, (Builtin.primitive .string).handle])]

/-- A list with too many items is withheld. It is not passed over for the text,
as a malformed list is. -/
theorem validate_eq_of_le_numbersOrText :
    Limits.strict ≤ .standard ∧
      (Builder.start.run numbersOrText).graph.validate { Limits.strict with listItems := 1 } none
        ⟨46⟩ "1 x" = .error (.limit (.listItems 2 1)) ∧
      (Builder.start.run numbersOrText).graph.validate .strict none ⟨46⟩ "1 x" = .ok
        (.atomic ⟨.string "1 x", (Builtin.primitive .string).handle, .string⟩) ∧
      (Builder.start.run numbersOrText).graph.validate .standard none ⟨46⟩ "1 x"
        = (Builder.start.run numbersOrText).graph.validate .strict none ⟨46⟩ "1 x" := by
  have hle : Limits.strict ≤ .standard := by decide
  have hread : (Builder.start.run numbersOrText).graph.validate .strict none ⟨46⟩ "1 x" = .ok
      (.atomic ⟨.string "1 x", (Builtin.primitive .string).handle, .string⟩) := by
    decide +kernel
  refine ⟨hle, by decide +kernel, hread, ?_⟩
  refine validate_eq_of_le _ hle none ⟨46⟩ "1 x" ?_
  rw [hread]
  rintro _ ⟨⟩

end Graph

end SimpleTypes
