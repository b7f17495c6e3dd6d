import SimpleTypes.Proofs.Facet.Checks
import SimpleTypes.Validation.Simple

/-!
# The three varieties

What it takes for a text to be read as an atom, as a list and as a value of a
union, and which errors reading can end in.

* `readAtom_eq_ok`, `readList_eq_ok`, `readUnion_eq_ok`: a text is accepted if
  each step of the reading succeeds.
* `Error.IsOfTypes`: the errors that types raise themselves. All others come from the
  grammar of an atomic text (`failsWith_readAtom`), or from an item or a member.
* `Judged`: the reading came to an end at the text itself. It was not stopped by
  a handle or a definition.
-/

namespace SimpleTypes

variable {limits : Limits} {bindings? : Option Bindings} {handle item : Handle} {type : SimpleType}
  {primitive : Primitive} {text : String} {members : List Handle}

/-! ## Accepted texts -/

theorem readAtom_eq_ok {atom : Atom} :
    readAtom limits bindings? handle type primitive text = .ok atom ↔
      ∃ native, readAtomic primitive type.rule (normalizeText type.facets.whiteSpace text)
          bindings? limits = .ok native ∧
        atom = ⟨native, handle, primitive⟩ ∧ type.facets.checkAtom atom = .ok () ∧
        type.facets.checkEnumeration (.atomic atom) = .ok () := by
  simp only [readAtom, bind_eq_ok, Error.ofInvalid_eq_ok, pure, Except.pure, Except.ok.injEq]
  constructor
  · rintro ⟨native, hread, _, hatom, _, henum, rfl⟩
    exact ⟨native, hread, rfl, hatom, henum⟩
  · rintro ⟨native, hread, rfl, hatom, henum⟩
    exact ⟨native, hread, _, hatom, _, henum, rfl⟩

theorem readList_eq_ok {readItem : String → Except Error TypedValue} {list : ListValue} :
    readList limits type item readItem text = .ok list ↔
      ∃ values : List TypedValue, limits.checkListItems
          (words (normalizeText type.facets.whiteSpace text).toList).length = .ok () ∧
        type.facets.checkLength
          (words (normalizeText type.facets.whiteSpace text).toList).length = .ok () ∧
        List.Forall₂ (fun piece value => readItem (String.ofList piece) = .ok value)
          (words (normalizeText type.facets.whiteSpace text).toList) values ∧
        list = ⟨item, values.flatMap TypedValue.atoms⟩ ∧
        type.facets.checkEnumeration (.list list) = .ok () := by
  simp only [readList, bind_eq_ok, Error.ofInvalid_eq_ok, Error.ofLimit_eq_ok, mapM_eq_ok, pure,
    Except.pure, Except.ok.injEq]
  constructor
  · rintro ⟨_, hitems, _, hlength, values, hvalues, _, henum, rfl⟩
    exact ⟨values, hitems, hlength, hvalues, rfl, henum⟩
  · rintro ⟨values, hitems, hlength, hvalues, rfl, henum⟩
    exact ⟨_, hitems, _, hlength, values, hvalues, _, henum, rfl⟩

/-- If only atoms are read as items, the atoms of a list stand opposite its words. -/
theorem forall₂_atomic {readItem : String → Except Error TypedValue} {pieces : List (List Char)}
    {values : List TypedValue}
    (hatomic : ∀ text value, readItem text = .ok value → ∃ atom, value = .atomic atom)
    (h : List.Forall₂ (fun piece value => readItem (String.ofList piece) = .ok value)
      pieces values) :
    List.Forall₂ (fun piece atom => readItem (String.ofList piece) = .ok (.atomic atom))
      pieces (values.flatMap TypedValue.atoms) := by
  induction h with
  | nil => exact .nil
  | cons hvalue _ ih =>
    obtain ⟨atom, rfl⟩ := hatomic _ _ hvalue
    exact .cons hvalue ih

theorem readUnion_eq_ok {readMember : Handle → Except Error TypedValue} {value : TypedValue} :
    readUnion type members readMember text = .ok value ↔
      firstAccepting? readMember members = .ok (some value) ∧
        type.facets.checkEnumeration value = .ok () := by
  simp only [readUnion, bind_eq_ok]
  constructor
  · rintro ⟨found, hfound, h⟩
    cases found with
    | none => cases h
    | some first =>
      simp only [bind_eq_ok, Error.ofInvalid_eq_ok, pure, Except.pure, Except.ok.injEq] at h
      obtain ⟨_, henum, rfl⟩ := h
      exact ⟨hfound, henum⟩
  · rintro ⟨hfound, henum⟩
    exact ⟨some value, hfound, bind_eq_ok.mpr ⟨_, Error.ofInvalid_eq_ok.mpr henum, rfl⟩⟩

/-- Only what the members say counts. -/
theorem firstAccepting?_congr {readMember readMember' : Handle → Except Error TypedValue}
    (h : ∀ member ∈ members, readMember member = readMember' member) :
    firstAccepting? readMember members = firstAccepting? readMember' members := by
  induction members with
  | nil => rfl
  | cons member rest ih =>
    obtain ⟨hmember, hrest⟩ := List.forall_mem_cons.mp h
    simp only [firstAccepting?, hmember, ih hrest]

theorem readUnion_congr {readMember readMember' : Handle → Except Error TypedValue}
    (h : ∀ member ∈ members, readMember member = readMember' member) :
    readUnion type members readMember text = readUnion type members readMember' text := by
  simp only [readUnion, firstAccepting?_congr h]

/-- Whether a text was found to be invalid. -/
def Rejects {α : Type} (result : Except Error α) : Prop := ∃ cause, result = .error (.invalid cause)

/-- Members that find the text invalid are passed over. -/
theorem firstAccepting?_append {readMember : Handle → Except Error TypedValue}
    {before rest : List Handle} (h : ∀ passed ∈ before, Rejects (readMember passed)) :
    firstAccepting? readMember (before ++ rest) = firstAccepting? readMember rest := by
  induction before with
  | nil => rfl
  | cons passed before ih =>
    obtain ⟨⟨cause, hcause⟩, hbefore⟩ := List.forall_mem_cons.mp h
    rw [List.cons_append, firstAccepting?, hcause]
    exact ih hbefore

/-- The accepted value comes from a member, and those before it find the text invalid. -/
theorem exists_first_of_firstAccepting? {readMember : Handle → Except Error TypedValue}
    {value : TypedValue} (h : firstAccepting? readMember members = .ok (some value)) :
    ∃ before member after, members = before ++ member :: after ∧
      (∀ passed ∈ before, Rejects (readMember passed)) ∧ readMember member = .ok value := by
  induction members with
  | nil => cases h
  | cons member rest ih =>
    simp only [firstAccepting?] at h
    split at h
    case h_1 first hfirst =>
      obtain rfl : first = value := by simpa using h
      exact ⟨[], member, rest, rfl, List.forall_mem_nil _, hfirst⟩
    case h_2 cause hcause =>
      obtain ⟨before, found, after, rfl, hbefore, hfound⟩ := ih h
      exact ⟨member :: before, found, after, rfl,
        List.forall_mem_cons.mpr ⟨⟨cause, hcause⟩, hbefore⟩, hfound⟩
    case h_3 => cases h

theorem firstAccepting?_eq_some {readMember : Handle → Except Error TypedValue}
    {value : TypedValue} (h : firstAccepting? readMember members = .ok (some value)) :
    ∃ member ∈ members, readMember member = .ok value := by
  obtain ⟨before, member, after, rfl, -, hread⟩ := exists_first_of_firstAccepting? h
  exact ⟨member, List.mem_append_right _ List.mem_cons_self, hread⟩

/-! ## Errors -/

/-- Whether an error is one that a type raises itself, whatever the grammar of its texts: an
exceeded limit, a violated facet, or a text that no member accepts. -/
def Error.IsOfTypes : Error → Prop
  | .invalid (.union _ _) | .limit _ => True
  | .invalid cause => cause.IsViolation
  | .misuse _ | .definition _ => False

section Errors

variable {P : Error → Prop}

theorem Error.isOfTypes_invalid {cause : Invalid} (h : cause.IsViolation) :
    (Error.invalid cause).IsOfTypes := by
  cases cause with
  | union => trivial
  | _ => exact h

theorem failsWith_ofLimit (hP : ∀ error : Error, error.IsOfTypes → P error)
    (x : Except LimitFault Unit) : FailsWith P (Error.ofLimit x) :=
  FailsWith.mapError fun _ _ => hP _ trivial

/-- What a facet finds fault with is an error of a type. -/
theorem failsWith_ofInvalid (hP : ∀ error : Error, error.IsOfTypes → P error)
    {x : Except Invalid Unit} (h : FailsWith Invalid.IsViolation x) :
    FailsWith P (Error.ofInvalid x) :=
  FailsWith.mapError fun cause hcause => hP _ (Error.isOfTypes_invalid (h cause hcause))

theorem failsWith_readAtom (hP : ∀ error : Error, error.IsOfTypes → P error)
    (h : FailsWith P (readAtomic primitive type.rule (normalizeText type.facets.whiteSpace text)
      bindings? limits)) :
    FailsWith P (readAtom limits bindings? handle type primitive text) :=
  h.bind fun _ _ => (failsWith_ofInvalid hP (FacetSet.failsWith_checkAtom _ _)).bind fun _ _ =>
    (failsWith_ofInvalid hP (FacetSet.failsWith_checkEnumeration _ _)).bind fun _ _ =>
      failsWith_ok _

theorem failsWith_readList (hP : ∀ error : Error, error.IsOfTypes → P error)
    {readItem : String → Except Error TypedValue} (h : ∀ text, FailsWith P (readItem text)) :
    FailsWith P (readList limits type item readItem text) :=
  (failsWith_ofLimit hP _).bind fun _ _ =>
    (failsWith_ofInvalid hP ((FacetSet.failsWith_checkLength _ _).mono
      fun _ => Invalid.IsAboutNumber.isViolation)).bind fun _ _ =>
      (FailsWith.mapM fun _ _ => h _).bind fun _ _ =>
        (failsWith_ofInvalid hP (FacetSet.failsWith_checkEnumeration _ _)).bind fun _ _ =>
          failsWith_ok _

/-- The search ends in no error but one of a member. -/
theorem failsWith_firstAccepting? {readMember : Handle → Except Error TypedValue}
    (h : ∀ member ∈ members, FailsWith P (readMember member)) :
    FailsWith P (firstAccepting? readMember members) := by
  induction members with
  | nil => exact failsWith_ok none
  | cons member rest ih =>
    obtain ⟨hmember, hrest⟩ := List.forall_mem_cons.mp h
    simp only [firstAccepting?]
    cases hfirst : readMember member with
    | ok value => exact failsWith_ok _
    | error error =>
      cases error with
      | invalid cause => exact ih hrest
      | _ => exact failsWith_error (hmember _ hfirst)

theorem failsWith_readUnion (hP : ∀ error : Error, error.IsOfTypes → P error)
    {readMember : Handle → Except Error TypedValue}
    (h : ∀ member ∈ members, FailsWith P (readMember member)) :
    FailsWith P (readUnion type members readMember text) := by
  refine (failsWith_firstAccepting? h).bind ?_
  intro found _
  cases found with
  | none => exact failsWith_error (hP _ trivial)
  | some value =>
    exact (failsWith_ofInvalid hP (FacetSet.failsWith_checkEnumeration _ _)).bind fun _ _ =>
      failsWith_ok _

end Errors

/-! ## Judgements -/

/-- Whether an error is about the text: it is invalid, or it exceeds a limit. -/
def Error.IsAboutText : Error → Prop
  | .invalid _ | .limit _ => True
  | .misuse _ | .definition _ => False

/-- Whether a result is a value or an error about the text. -/
def Judged {α : Type} (result : Except Error α) : Prop :=
  ∀ error, result = .error error → error.IsAboutText

section Judged

variable {α β : Type}

theorem judged_invalid (cause : Invalid) : Judged (.error (.invalid cause) : Except Error α) :=
  failsWith_error trivial

theorem judged_ofInvalid (x : Except Invalid α) : Judged (Error.ofInvalid x) :=
  FailsWith.mapError fun _ _ => trivial

theorem judged_ofLimit (x : Except LimitFault α) : Judged (Error.ofLimit x) :=
  FailsWith.mapError fun _ _ => trivial

theorem Judged.bind {x : Except Error α} {f : α → Except Error β} (hx : Judged x)
    (hf : ∀ a, x = .ok a → Judged (f a)) : Judged (x >>= f) :=
  FailsWith.bind hx hf

theorem Judged.map {x : Except Error α} (hx : Judged x) (f : α → β) : Judged (f <$> x) :=
  FailsWith.map hx f

end Judged

theorem judged_readDecimal (rule : LexicalRule) (text : String) (limits : Limits) :
    Judged (readDecimal rule text limits) := by
  refine (judged_ofLimit _).bind ?_
  intro _ _
  dsimp only
  split
  · exact judged_invalid _
  · exact judged_ofInvalid _

theorem judged_readTemporal {α : Type} (form : LexicalForm) (parse? : List Char → Option α)
    (text : String) (limits : Limits) : Judged (readTemporal form parse? text limits) :=
  (judged_ofLimit _).bind fun _ _ => judged_ofInvalid _

theorem judged_readAtomic (primitive : Primitive) (rule : LexicalRule) (text : String)
    (bindings? : Option Bindings) (limits : Limits) :
    Judged (readAtomic primitive rule text bindings? limits) := by
  cases primitive with
  | decimal => exact (judged_readDecimal _ _ _).map _
  | duration | temporal => exact (judged_readTemporal _ _ _ _).map _
  | _ => exact (judged_ofInvalid _).map _

theorem isAboutText_of_isOfTypes (error : Error) (h : error.IsOfTypes) : error.IsAboutText := by
  cases error with
  | invalid | limit => trivial
  | misuse | definition => exact h

theorem judged_readAtom :
    Judged (readAtom limits bindings? handle type primitive text) :=
  failsWith_readAtom isAboutText_of_isOfTypes (judged_readAtomic _ _ _ _ _)

theorem judged_readList {readItem : String → Except Error TypedValue}
    (h : ∀ text, Judged (readItem text)) : Judged (readList limits type item readItem text) :=
  failsWith_readList isAboutText_of_isOfTypes h

theorem judged_readUnion {readMember : Handle → Except Error TypedValue}
    (h : ∀ member ∈ members, Judged (readMember member)) :
    Judged (readUnion type members readMember text) :=
  failsWith_readUnion isAboutText_of_isOfTypes h

end SimpleTypes
