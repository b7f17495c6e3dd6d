import SimpleTypes.Proofs.Facet.Checks
import SimpleTypes.Proofs.Value.Order

/-!
# Narrower facets

When facets let no value through that others stop. A new bound or enumeration
stands in the place of the old one, so it must itself be made of values that the
old facets let through.

* `Narrows.checkAtom`: what the narrower facets let through.
* `checkEnumeration_of_admitted`: an enumeration of values that were let through.
* `narrows_of_admitted`: facets are narrower if what is set in them was let through.
-/

namespace SimpleTypes

namespace FacetSet

/-- Whether facets are at least as narrow as those of a base. Every bound of the
base has one in the same place that admits no more. -/
structure Narrows (facets base : FacetSet) : Prop where
  lengths : ∀ count, facets.checkLength count = .ok () → base.checkLength count = .ok ()
  digits : ∀ value, facets.AdmitsDigits value → base.AdmitsDigits value
  bounds : ∀ kind bound, base.slot kind = some bound → ∃ bound', facets.slot kind = some bound' ∧
    ∀ value, bound'.admits value = true → bound.admits value = true
  enumeration : ∀ value, facets.checkEnumeration value = .ok () →
    base.checkEnumeration value = .ok ()

variable {facets base : FacetSet} {value : Atom}

/-- An atom that passes the narrower facets passes those of the base. -/
theorem Narrows.checkAtom (h : facets.Narrows base) (hvalue : facets.checkAtom value = .ok ()) :
    base.checkAtom value = .ok () := by
  obtain ⟨hlength, hdigits, hbounds⟩ := checkAtom_eq_ok.mp hvalue
  refine checkAtom_eq_ok.mpr ⟨fun count hcount => h.lengths count (hlength count hcount),
    fun decimal hdecimal => h.digits decimal (hdigits decimal hdecimal), ?_⟩
  intro kind bound hbound
  obtain ⟨bound', hbound', himplies⟩ := h.bounds kind bound hbound
  exact himplies value (hbounds kind bound' hbound')

/-- Facets are narrower than those of a base without lengths and enumerations if
each bound of the base admits the one in its place. -/
theorem narrows_of_bounds (hlength : base.hasLength = false) (htotal : base.totalDigits = none)
    (hfraction : base.fractionDigits = none ∨ facets.fractionDigits = base.fractionDigits)
    (henum : base.enumeration = none)
    (hbounds : ∀ kind ∈ RangeKind.all, ∀ bound ∈ base.slot kind, ∃ bound' ∈ facets.slot kind,
      bound'.kind = bound.kind ∧ bound.admits bound'.value = true) : facets.Narrows base := by
  refine ⟨fun count _ => ?_, fun value hvalue => ⟨?_, ?_⟩, fun kind bound hbound => ?_,
    fun value _ => ?_⟩
  · simp only [hasLength, Bool.or_eq_false_iff, Option.isSome_eq_false_iff, Option.isNone_iff_eq_none]
      at hlength
    obtain ⟨⟨hexact, hleast⟩, hmost⟩ := hlength
    simp [checkLength, testFacet, hexact, hleast, hmost, bind, Except.bind]
  · rintro most hmost
    rw [htotal] at hmost
    cases hmost
  · intro most hmost
    rcases hfraction with hnone | hsame
    · rw [hnone] at hmost
      cases hmost
    · exact hvalue.2 most (hsame.trans hmost)
  · obtain ⟨bound', hbound', hkind, hadmits⟩ := hbounds kind (by cases kind <;> decide) bound hbound
    exact ⟨bound', hbound', fun value => Bound.admits_trans hkind hadmits⟩
  · refine checkEnumeration_eq_ok.mpr ?_
    intro allowed hallowed
    rw [henum] at hallowed
    cases hallowed

/-- Only the numbers of facets say something about lengths and digits. -/
theorem checkLength_of_numbers (h : facets.numbers = base.numbers) {count : Nat}
    (hcount : facets.checkLength count = .ok ()) : base.checkLength count = .ok () :=
  calc
    base.checkLength count = base.numbers.checkLength count := rfl
    _ = facets.numbers.checkLength count := by rw [h]
    _ = .ok () := hcount

theorem admitsDigits_of_numbers (h : facets.numbers = base.numbers) {decimal : Decimal}
    (hdecimal : facets.AdmitsDigits decimal) : base.AdmitsDigits decimal := by
  have hnumbers : facets.numbers.AdmitsDigits decimal := hdecimal
  rwa [h] at hnumbers

/-- An enumeration of admitted values admits no others: what equals one of them equals one of
those that the base enumerates. -/
theorem checkEnumeration_of_admitted {values : List TypedValue}
    (henum : facets.enumeration = some values)
    (hpassed : ∀ one ∈ values, base.checkEnumeration one = .ok ()) {value : TypedValue}
    (hvalue : facets.checkEnumeration value = .ok ()) : base.checkEnumeration value = .ok () := by
  refine checkEnumeration_eq_ok.mpr ?_
  intro allowed hallowed
  obtain ⟨one, hone, heq⟩ := checkEnumeration_eq_ok.mp hvalue values henum
  obtain ⟨old, hold, heq'⟩ := checkEnumeration_eq_ok.mp (hpassed one hone) allowed hallowed
  exact ⟨old, hold, TypedValue.valueEq_trans heq' heq⟩

/-- Facets with the numbers of a base are narrower if each bound and each enumerated value
in them is inherited or was let through by the base. -/
theorem narrows_of_admitted (hnumbers : facets.numbers = base.numbers)
    (hkind : ∀ kind bound, base.slot kind = some bound → bound.kind = kind)
    (hbounds : ∀ kind, facets.slot kind = base.slot kind ∨ ∃ bound, facets.slot kind = some bound ∧
      bound.kind = kind ∧ base.checkAtom bound.value = .ok ())
    (henum : facets.enumeration = base.enumeration ∨ ∃ values, facets.enumeration = some values ∧
      ∀ value ∈ values, base.checkEnumeration value = .ok ()) : facets.Narrows base := by
  refine ⟨fun _ => checkLength_of_numbers hnumbers, fun _ => admitsDigits_of_numbers hnumbers,
    ?_, ?_⟩
  · intro kind bound hbound
    rcases hbounds kind with hsame | ⟨bound', hbound', hkind', hpassed⟩
    · exact ⟨bound, hsame.trans hbound, fun _ => id⟩
    · -- The old bound of this kind is forgotten, but it admits the new one.
      obtain ⟨-, -, hadmitted⟩ := checkAtom_eq_ok.mp hpassed
      exact ⟨bound', hbound', fun value => Bound.admits_trans
        (hkind'.trans (hkind kind bound hbound).symm) (hadmitted kind bound hbound)⟩
  · intro value hvalue
    rcases henum with hsame | ⟨values, hvalues, hpassed⟩
    · rwa [checkEnumeration, ← hsame]
    · exact checkEnumeration_of_admitted hvalues hpassed hvalue

end FacetSet

end SimpleTypes
