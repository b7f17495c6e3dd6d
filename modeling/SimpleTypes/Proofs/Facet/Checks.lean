import SimpleTypes.Facet.Set
import SimpleTypes.Proofs.Outcome

/-!
# What facets demand

The tests of a facet set as conditions on the value.

* `checkAtom_eq_ok` and `checkEnumeration_eq_ok`: a value passes if it meets every
  facet that is set.
* `checkLength_eq_error`: a length that does not pass is refused for the first of three reasons.
* `failsWith_checkAtom` and `failsWith_checkEnumeration`: a value that does not pass
  violates a facet.
* `failsWith_checkAtom_of_checkRange`: if it meets the bounds, it is one that states a
  number.
-/

namespace SimpleTypes

/-! ## Causes -/

namespace Invalid

/-- Whether a cause is the violation of a facet. -/
def IsViolation (cause : Invalid) : Prop := cause.kind.isFacetViolation = true

/-- Whether a cause is the violation of a facet that states a number: of lengths or of
digits. -/
def IsAboutNumber (cause : Invalid) : Prop :=
  cause.kind ∈ [.length, .minLength, .maxLength, .totalDigits, .fractionDigits]

theorem IsAboutNumber.isViolation {cause : Invalid} (h : cause.IsAboutNumber) :
    cause.IsViolation := by
  have hkinds : ∀ kind ∈ [ErrorKind.length, .minLength, .maxLength, .totalDigits, .fractionDigits],
      kind.isFacetViolation = true := by decide
  exact hkinds _ h

end Invalid

namespace FacetSet

variable {α : Type} {facets : FacetSet}

/-! ## Numbers and bounds -/

/-- The facets less the bounds, the enumeration and the patterns: the mode and the
numbers. -/
def numbers (facets : FacetSet) : FacetSet where
  whiteSpace := facets.whiteSpace
  length := facets.length
  minLength := facets.minLength
  maxLength := facets.maxLength
  totalDigits := facets.totalDigits
  fractionDigits := facets.fractionDigits

theorem numbers_setBound (facets : FacetSet) (kind : RangeKind) (value : Atom) :
    (facets.setBound kind value).numbers = facets.numbers := by
  cases kind <;> rfl

theorem enumeration_setBound (facets : FacetSet) (kind : RangeKind) (value : Atom) :
    (facets.setBound kind value).enumeration = facets.enumeration := by
  cases kind <;> rfl

theorem slot_setBound (facets : FacetSet) (kind kind' : RangeKind) (value : Atom) :
    (facets.setBound kind value).slot kind' =
      if kind' = kind then some ⟨kind, value⟩ else facets.slot kind' := by
  cases kind <;> cases kind' <;> rfl

/-! ## Conditions -/

theorem demand_eq_ok {holds : Bool} {cause : Invalid} :
    demand holds cause = .ok () ↔ holds = true := by
  cases holds <;> simp [demand]

theorem demand_eq_error {holds : Bool} {cause cause' : Invalid} :
    demand holds cause = .error cause' ↔ holds = false ∧ cause = cause' := by
  cases holds <;> simp [demand]

theorem testFacet_eq_ok {facet? : Option α} {test : α → Except Invalid Unit} :
    testFacet facet? test = .ok () ↔ ∀ facet, facet? = some facet → test facet = .ok () := by
  cases facet? <;> simp [testFacet]

theorem testFacet_eq_error {facet? : Option α} {test : α → Except Invalid Unit} {cause : Invalid} :
    testFacet facet? test = .error cause ↔ ∃ facet, facet? = some facet ∧ test facet = .error cause := by
  cases facet? <;> simp [testFacet]

/-- An exact length makes the least and the greatest length irrelevant. -/
theorem checkLength_eq_ok {count : Nat} :
    facets.checkLength count = .ok () ↔
      (∀ required, facets.length = some required → count = required) ∧
        (facets.length = none → (∀ least, facets.minLength = some least → least ≤ count) ∧
          ∀ most, facets.maxLength = some most → count ≤ most) := by
  unfold checkLength
  cases facets.length with
  | some required => simp [demand_eq_ok]
  | none => simp [then_eq_ok, testFacet_eq_ok, demand_eq_ok]

/-- Why facets refuse a length: the exact one is another, or else the least one is greater, or
else the greatest one is smaller. -/
inductive IsLengthFault (facets : FacetSet) (count : Nat) : Invalid → Prop
  | length {required : Nat} :
      facets.length = some required → count ≠ required →
      IsLengthFault facets count (.length required count)
  | minLength {least : Nat} :
      facets.length = none → facets.minLength = some least → count < least →
      IsLengthFault facets count (.minLength least count)
  | maxLength {most : Nat} :
      facets.length = none → (∀ least, facets.minLength = some least → least ≤ count) →
      facets.maxLength = some most → most < count →
      IsLengthFault facets count (.maxLength most count)

/-- A length is refused for its fault. -/
theorem checkLength_eq_error {count : Nat} {cause : Invalid} :
    facets.checkLength count = .error cause ↔ facets.IsLengthFault count cause := by
  unfold checkLength
  constructor
  · intro h
    split at h
    case h_1 required hexact =>
      obtain ⟨hne, rfl⟩ := demand_eq_error.mp h
      exact .length hexact (by simpa using hne)
    case h_2 hexact =>
      rcases then_eq_error.mp h with hfault | ⟨hleast, hfault⟩
      · obtain ⟨least, hfacet, htest⟩ := testFacet_eq_error.mp hfault
        obtain ⟨hlt, rfl⟩ := demand_eq_error.mp htest
        exact .minLength hexact hfacet (by simpa using hlt)
      · obtain ⟨most, hfacet, htest⟩ := testFacet_eq_error.mp hfault
        obtain ⟨hlt, rfl⟩ := demand_eq_error.mp htest
        refine .maxLength hexact (fun least hfacet => ?_) hfacet (by simpa using hlt)
        simpa [demand_eq_ok] using testFacet_eq_ok.mp hleast least hfacet
  · intro h
    cases h with
    | length hexact hne =>
      rw [hexact]
      exact demand_eq_error.mpr ⟨by simpa using hne, rfl⟩
    | minLength hexact hfacet hlt =>
      rw [hexact]
      refine then_eq_error.mpr (.inl (testFacet_eq_error.mpr ⟨_, hfacet, ?_⟩))
      exact demand_eq_error.mpr ⟨by simpa using hlt, rfl⟩
    | maxLength hexact hleast hfacet hlt =>
      rw [hexact]
      refine then_eq_error.mpr (.inr ⟨testFacet_eq_ok.mpr fun least hfacet => ?_,
        testFacet_eq_error.mpr ⟨_, hfacet, ?_⟩⟩)
      · exact demand_eq_ok.mpr (by simpa using hleast least hfacet)
      · exact demand_eq_error.mpr ⟨by simpa using hlt, rfl⟩

/-- Whether a decimal has no more digits than the digit facets allow. -/
def AdmitsDigits (facets : FacetSet) (value : Decimal) : Prop :=
  (∀ most, facets.totalDigits = some most → value.totalDigits ≤ most) ∧
    ∀ most, facets.fractionDigits = some most → value.fractionDigits ≤ most

theorem checkDigits_eq_ok {value : Decimal} :
    facets.checkDigits value = .ok () ↔ facets.AdmitsDigits value := by
  simp only [checkDigits, then_eq_ok, testFacet_eq_ok, demand_eq_ok, decide_eq_true_eq, AdmitsDigits]

theorem checkRange_eq_ok {value : Atom} :
    facets.checkRange value = .ok () ↔
      ∀ kind bound, facets.slot kind = some bound → bound.admits value = true := by
  simp only [checkRange, forM_eq_ok, checkBound, testFacet_eq_ok, demand_eq_ok]
  constructor
  · intro h kind
    exact h kind (by cases kind <;> decide)
  · intro h kind _
    exact h kind

/-- An atom passes if it meets the facets of lengths, digits and bounds. -/
theorem checkAtom_eq_ok {value : Atom} :
    facets.checkAtom value = .ok () ↔
      (∀ count, value.length? = some count → facets.checkLength count = .ok ()) ∧
        (∀ decimal, value.decimal? = some decimal → facets.AdmitsDigits decimal) ∧
        ∀ kind bound, facets.slot kind = some bound → bound.admits value = true := by
  simp only [checkAtom, then_eq_ok, testFacet_eq_ok, checkDigits_eq_ok, checkRange_eq_ok]

/-- A value passes if one of the enumerated values equals it. -/
theorem checkEnumeration_eq_ok {value : TypedValue} :
    facets.checkEnumeration value = .ok () ↔
      ∀ allowed, facets.enumeration = some allowed → ∃ one ∈ allowed, one.valueEq value = true := by
  simp only [checkEnumeration, testFacet_eq_ok, demand_eq_ok, List.any_eq_true]

theorem checkEnumeration_of_eq_none (h : facets.enumeration = none) (value : TypedValue) :
    facets.checkEnumeration value = .ok () := by
  rw [checkEnumeration_eq_ok, h]
  rintro _ ⟨⟩

theorem checkEnumeration_eq_error {value : TypedValue} {cause : Invalid}
    (h : facets.checkEnumeration value = .error cause) :
    ∃ allowed, facets.enumeration = some allowed ∧ cause = .enumeration allowed value := by
  obtain ⟨allowed, hallowed, htest⟩ := testFacet_eq_error.mp h
  exact ⟨allowed, hallowed, (demand_eq_error.mp htest).2.symm⟩

/-! ## Violations -/

theorem failsWith_demand {P : Invalid → Prop} {cause : Invalid} (h : P cause) (holds : Bool) :
    FailsWith P (demand holds cause) := by
  cases holds with
  | true => exact failsWith_ok ()
  | false => exact failsWith_error h

theorem failsWith_testFacet {P : Invalid → Prop} {test : α → Except Invalid Unit}
    (h : ∀ facet, FailsWith P (test facet)) (facet? : Option α) :
    FailsWith P (testFacet facet? test) := by
  cases facet? with
  | none => exact failsWith_ok ()
  | some facet => exact h facet

theorem failsWith_checkLength (facets : FacetSet) (count : Nat) :
    FailsWith Invalid.IsAboutNumber (facets.checkLength count) := by
  unfold checkLength
  split
  · exact failsWith_demand (by simp [Invalid.IsAboutNumber, Invalid.kind]) _
  · refine (failsWith_testFacet (fun _ => failsWith_demand ?_ _) _).bind fun _ _ =>
      failsWith_testFacet (fun _ => failsWith_demand ?_ _) _
    all_goals simp [Invalid.IsAboutNumber, Invalid.kind]

theorem failsWith_checkDigits (facets : FacetSet) (value : Decimal) :
    FailsWith Invalid.IsAboutNumber (facets.checkDigits value) := by
  refine (failsWith_testFacet (fun _ => failsWith_demand ?_ _) _).bind fun _ _ =>
    failsWith_testFacet (fun _ => failsWith_demand ?_ _) _
  all_goals simp [Invalid.IsAboutNumber, Invalid.kind]

/-- An atom that meets the bounds can only violate a facet that states a number. -/
theorem failsWith_checkAtom_of_checkRange {value : Atom} (h : facets.checkRange value = .ok ()) :
    FailsWith Invalid.IsAboutNumber (facets.checkAtom value) := by
  refine (failsWith_testFacet facets.failsWith_checkLength _).bind fun _ _ =>
    (failsWith_testFacet facets.failsWith_checkDigits _).bind fun _ _ => ?_
  rw [h]
  exact failsWith_ok ()

theorem failsWith_checkRange (facets : FacetSet) (value : Atom) :
    FailsWith Invalid.IsViolation (facets.checkRange value) := by
  refine .forM fun _ _ => failsWith_testFacet (fun _ => failsWith_demand ?_ _) _
  exact rfl

/-- An atom that does not pass violates a facet. -/
theorem failsWith_checkAtom (facets : FacetSet) (value : Atom) :
    FailsWith Invalid.IsViolation (facets.checkAtom value) := by
  refine (failsWith_testFacet (fun _ => (facets.failsWith_checkLength _).mono ?_) _).bind
    fun _ _ => (failsWith_testFacet (fun _ => (facets.failsWith_checkDigits _).mono ?_) _).bind
      fun _ _ => facets.failsWith_checkRange value
  all_goals exact fun _ => Invalid.IsAboutNumber.isViolation

theorem failsWith_checkEnumeration (facets : FacetSet) (value : TypedValue) :
    FailsWith Invalid.IsViolation (facets.checkEnumeration value) := by
  refine failsWith_testFacet (fun _ => failsWith_demand ?_ _) _
  exact rfl

end FacetSet

end SimpleTypes
