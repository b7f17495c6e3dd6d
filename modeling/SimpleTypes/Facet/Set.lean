import SimpleTypes.Error.Definition

/-!
# Facet sets

The facets in force on a type, those inherited from its base included, and what
they say about a value.

An exact length makes the least and the greatest length irrelevant. Digits are
counted in the value and not in its text, so zeros at the ends do not count. A
value that has no order to a bound violates it.
-/

namespace SimpleTypes

/-- A bound of a kind, held as a value. -/
structure Bound where
  kind : RangeKind
  value : Atom
  deriving DecidableEq, Repr

/-- Whether a value lies on the right side of a bound. -/
def Bound.admits (bound : Bound) (value : Atom) : Bool :=
  match value.order? bound.value with
  | some order => bound.kind.accepts order
  | none => false

/-- The facets in force on a type. There is one place for a bound of each
kind. -/
structure FacetSet where
  whiteSpace : Option WhiteSpace := none
  length : Option Nat := none
  minLength : Option Nat := none
  maxLength : Option Nat := none
  totalDigits : Option Nat := none
  fractionDigits : Option Nat := none
  minInclusive : Option Bound := none
  maxInclusive : Option Bound := none
  minExclusive : Option Bound := none
  maxExclusive : Option Bound := none
  patterns : List String := []
  enumeration : Option (List TypedValue) := none
  deriving DecidableEq, Repr

namespace FacetSet

/-! ## Bounds -/

/-- What is held in the place for bounds of a kind. -/
def slot (facets : FacetSet) : RangeKind → Option Bound
  | .minInclusive => facets.minInclusive
  | .maxInclusive => facets.maxInclusive
  | .minExclusive => facets.minExclusive
  | .maxExclusive => facets.maxExclusive

/-- The value of the bound of a kind. -/
def bound? (facets : FacetSet) (kind : RangeKind) : Option Atom :=
  (facets.slot kind).map Bound.value

/-- The facets with a new bound of a kind. The bounds of other kinds stay. -/
def setBound (facets : FacetSet) (kind : RangeKind) (value : Atom) : FacetSet :=
  match kind with
  | .minInclusive => { facets with minInclusive := some ⟨.minInclusive, value⟩ }
  | .maxInclusive => { facets with maxInclusive := some ⟨.maxInclusive, value⟩ }
  | .minExclusive => { facets with minExclusive := some ⟨.minExclusive, value⟩ }
  | .maxExclusive => { facets with maxExclusive := some ⟨.maxExclusive, value⟩ }

/-! ## Tests of values -/

/-- Tests one facet, if it is set. -/
def testFacet {α : Type} (facet? : Option α) (test : α → Except Invalid Unit) :
    Except Invalid Unit :=
  match facet? with
  | some facet => test facet
  | none => .ok ()

/-- Tests a condition. -/
def demand (holds : Bool) (cause : Invalid) : Except Invalid Unit :=
  if holds then .ok () else .error cause

/-- Tests a length: against the exact length, or else against the least and the
greatest. -/
def checkLength (facets : FacetSet) (count : Nat) : Except Invalid Unit :=
  match facets.length with
  | some required => demand (count == required) (.length required count)
  | none => do
    testFacet facets.minLength (fun least => demand (least ≤ count) (.minLength least count))
    testFacet facets.maxLength (fun most => demand (count ≤ most) (.maxLength most count))

/-- Tests the digits of a decimal. -/
def checkDigits (facets : FacetSet) (value : Decimal) : Except Invalid Unit := do
  testFacet facets.totalDigits
    (fun most => demand (value.totalDigits ≤ most) (.totalDigits most value))
  testFacet facets.fractionDigits
    (fun most => demand (value.fractionDigits ≤ most) (.fractionDigits most value))

/-- Tests a value against the bound in the place for a kind. -/
def checkBound (facets : FacetSet) (value : Atom) (kind : RangeKind) : Except Invalid Unit :=
  testFacet (facets.slot kind)
    (fun bound => demand (bound.admits value) (.range bound.kind bound.value value))

/-- Tests a value against all bounds. -/
def checkRange (facets : FacetSet) (value : Atom) : Except Invalid Unit :=
  RangeKind.all.forM (facets.checkBound value)

/-- Whether a facet measures lengths. -/
def hasLength (facets : FacetSet) : Bool :=
  facets.length.isSome || facets.minLength.isSome || facets.maxLength.isSome

/-- Tests the length, the digits and the bounds of an atom, in this order. An
atom without a length passes the facets that measure lengths. -/
def checkAtom (facets : FacetSet) (value : Atom) : Except Invalid Unit := do
  testFacet value.length? facets.checkLength
  testFacet value.decimal? facets.checkDigits
  facets.checkRange value

/-- Tests whether a value is one of the enumerated values. -/
def checkEnumeration (facets : FacetSet) (value : TypedValue) : Except Invalid Unit :=
  testFacet facets.enumeration
    (fun allowed => demand (allowed.any (fun one => one.valueEq value))
      (.enumeration allowed value))

/-! ## Consistency -/

/-- A least length above the greatest. -/
def lengthsFault? (facets : FacetSet) : Option DefinitionFault :=
  match facets.minLength, facets.maxLength with
  | some least, some most => if most < least then some (.lengthsCross least most) else none
  | _, _ => none

/-- More fraction digits than digits. -/
def digitsFault? (facets : FacetSet) : Option DefinitionFault :=
  match facets.fractionDigits, facets.totalDigits with
  | some fraction, some total =>
    if total < fraction then some (.digitsCross fraction total) else none
  | _, _ => none

/-- Why two numbers contradict each other, lengths first. Bounds are not
compared. -/
def contradiction? (facets : FacetSet) : Option DefinitionFault :=
  facets.lengthsFault?.or facets.digitsFault?

end FacetSet

end SimpleTypes
