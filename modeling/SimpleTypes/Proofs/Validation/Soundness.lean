import SimpleTypes.Proofs.Number.Decimal
import SimpleTypes.Proofs.Time.Components
import SimpleTypes.Proofs.Time.Reading
import SimpleTypes.Proofs.Validation.Atoms

/-!
# Soundness of values

A value names the types that accepted its parts. These types stand in the type that
the text was validated against, and the parts are what these types demand.

* `Native.IsValueOf`: the form in which the values of each primitive type are held.
  Numbers have no idle zeros, and the fields of a moment are those of its kind.
* `readAtomic_isValueOf`: every text is read into this form, whatever the rule and the
  limits are.
* `Graph.IsSound`: each atom has the form of its primitive type and passes all tests
  of the type it names, and a list holds the values of its words.
* `run_validate_isSound`: validation in the graph of every run gives sound values.
-/

namespace SimpleTypes

variable {limits : Limits} {bindings? : Option Bindings} {handle : Handle} {type : SimpleType}
  {primitive : Primitive} {text : String} {value : TypedValue} {atom : Atom}

/-! ## Native values -/

/-- Whether a native value is held as the values of a primitive type are. Decimals have
no zeros at their ends, the fields of a moment are those of its kind and lie in the
calendar, and neither decimals nor durations have a negative zero. -/
inductive Native.IsValueOf : Primitive → Native → Prop
  | string (text : String) : IsValueOf .string (.string text)
  | anyUri (text : String) : IsValueOf .anyUri (.string text)
  | boolean (value : Bool) : IsValueOf .boolean (.boolean value)
  | decimal {value : Decimal} : value.IsProper → IsValueOf .decimal (.decimal value)
  | float (value : Floating) : IsValueOf .float (.float value)
  | double (value : Floating) : IsValueOf .double (.double value)
  | duration {value : Duration} : value.IsProper → IsValueOf .duration (.duration value)
  | moment {kind : TemporalKind} {value : Moment} :
      value.IsProper → value.kind = kind → IsValueOf (.temporal kind) (.moment value)
  | hexBinary (octets : List UInt8) : IsValueOf .hexBinary (.octets octets)
  | base64Binary (octets : List UInt8) : IsValueOf .base64Binary (.octets octets)
  | qName (name : QNameValue) : IsValueOf .qName (.qName name)
  | notationName (name : QNameValue) : IsValueOf .notationName (.qName name)

/-- Each primitive type reads its own native values. Only decimals, durations and
moments have a form to keep. -/
theorem readAtomic_isValueOf {rule : LexicalRule} {native : Native}
    (h : readAtomic primitive rule text bindings? limits = .ok native) :
    native.IsValueOf primitive := by
  cases primitive with
  | decimal =>
    obtain ⟨value, hread, rfl⟩ := map_eq_ok.mp h
    exact .decimal (Decimal.parse?_isProper (readDecimal_eq_ok.mp hread).2.2)
  | duration =>
    obtain ⟨value, hread, rfl⟩ := map_eq_ok.mp h
    exact .duration (Duration.parse?_isProper (readTemporal_eq_ok.mp hread).2)
  | temporal kind =>
    obtain ⟨value, hread, rfl⟩ := map_eq_ok.mp h
    have hparse := (readTemporal_eq_ok.mp hread).2
    exact .moment (Moment.parse?_isProper hparse) (Moment.parse?_kind hparse)
  | _ =>
    obtain ⟨value, -, rfl⟩ := map_eq_ok.mp h
    constructor

/-! ## What types demand -/

/-- What an atomic type demands of an atom. -/
structure SimpleType.AdmitsAtom (type : SimpleType) (atom : Atom) : Prop where
  variety : type.variety = .atomic atom.primitive
  native : atom.native.IsValueOf atom.primitive
  length : ∀ count, atom.length? = some count → type.facets.checkLength count = .ok ()
  digits : ∀ value, atom.decimal? = some value → type.facets.checkDigits value = .ok ()
  range : type.facets.checkRange atom = .ok ()
  enumeration : type.facets.checkEnumeration (.atomic atom) = .ok ()

/-- What a list type demands of a list. -/
structure SimpleType.AdmitsList (type : SimpleType) (list : ListValue) : Prop where
  variety : type.variety = .list list.itemType
  length : type.facets.checkLength list.items.length = .ok ()
  enumeration : type.facets.checkEnumeration (.list list) = .ok ()

/-- An atom is only returned after all tests of its type. -/
theorem admitsAtom_of_readAtom (hvariety : type.variety = .atomic primitive)
    (h : readAtom limits bindings? handle type primitive text = .ok atom) :
    type.AdmitsAtom atom := by
  obtain ⟨native, hnative, rfl, hatom, henum⟩ := readAtom_eq_ok.mp h
  obtain ⟨hlength, hdigits, hrange⟩ := FacetSet.checkAtom_eq_ok.mp hatom
  exact ⟨hvariety, readAtomic_isValueOf hnative, hlength,
    fun value hvalue => FacetSet.checkDigits_eq_ok.mpr (hdigits value hvalue),
    FacetSet.checkRange_eq_ok.mpr hrange, henum⟩

/-! ## Sound values -/

namespace Graph

variable {graph : Graph}

/-- What makes a value sound for a type and a text. Each atom names an atomic type that
stands in the type and admits it. A list is one of a list type that is the type or
stands in it as a member, and its items are the atoms that are read from the words of
the text. -/
structure IsSound (graph : Graph) (limits : Limits) (bindings? : Option Bindings)
    (handle : Handle) (text : String) (value : TypedValue) : Prop where
  atoms : ∀ atom ∈ value.atoms, ∃ type, graph.simpleType? atom.type = some type ∧
    graph.Reaches handle atom.type ∧ type.AdmitsAtom atom
  list : ∀ list, value = .list list → ∃ whole type, graph.simpleType? whole = some type ∧
    graph.ReachesMember handle whole ∧ type.AdmitsList list ∧
      List.Forall₂ (fun word atom => graph.readValue limits bindings? list.itemType
        (String.ofList word) = .ok (.atomic atom)) (words text.toList) list.items

/-- Every value that is read is sound. -/
theorem WellFormed.isSound_of_readValue (wf : graph.WellFormed)
    (h : graph.readValue limits bindings? handle text = .ok value) :
    graph.IsSound limits bindings? handle text value := by
  refine ⟨?_, ?_⟩
  · intro atom hatom
    obtain ⟨hreach, type, word, htype, hvariety, hread⟩ := wf.exists_readAtom h hatom
    exact ⟨type, htype, hreach, admitsAtom_of_readAtom hvariety hread⟩
  · rintro list rfl
    cases wf.hasOrigin h with
    | @list _ whole type hreach htype hvariety hread =>
      have hwords := wf.readList_words htype hvariety hread
      obtain ⟨values, -, hlength, -, -, henum⟩ := readList_eq_ok.mp hread
      rw [words_normalizeText, hwords.length_eq] at hlength
      exact ⟨whole, type, htype, hreach, ⟨hvariety, hlength, henum⟩, hwords⟩

end Graph

namespace Builder

/-- In the graph of every run, validation gives only values that are sound for the
type and the text. -/
theorem run_validate_isSound (steps : List Step)
    (h : (start.run steps).graph.validate limits bindings? handle text = .ok value) :
    (start.run steps).graph.IsSound limits bindings? handle text value := by
  obtain ⟨_, -, hread⟩ := bind_eq_ok.mp h
  exact (run_wellFormed steps).isSound_of_readValue hread

/-- Durations, or up to three decimals and instants. The decimals have one digit after
the point at most. -/
def readings : List Step := [
  .define (.restriction (Builtin.primitive .decimal).handle
    { fractionDigits := some 1, ranges := [(.minInclusive, "-1")] }),
  .define (.union none [⟨45⟩, (Builtin.primitive (.temporal .dateTime)).handle]),
  .define (.list none ⟨46⟩),
  .define (.restriction ⟨47⟩ { maxLength := some 3 }),
  .define (.union none [(Builtin.primitive .duration).handle, ⟨48⟩])]

/-- The value of `-00.50 1999-12-31T24:00:00`. -/
def halfAndNewYear : TypedValue :=
  .list ⟨⟨46⟩, [⟨.decimal ⟨true, [], ['5'], 1⟩, ⟨45⟩, .decimal⟩,
    ⟨.moment ⟨.dateTime ⟨2000, 1, 1⟩ ⟨0, 0, 0, []⟩, none⟩,
      (Builtin.primitive (.temporal .dateTime)).handle, .temporal .dateTime⟩]⟩

theorem run_validate_isSound_readings :
    (start.run readings).graph.validate .standard none ⟨49⟩ " -00.50\n1999-12-31T24:00:00"
        = .ok halfAndNewYear ∧
      (start.run readings).graph.IsSound .standard none ⟨49⟩ " -00.50\n1999-12-31T24:00:00"
        halfAndNewYear := by
  have hvalidate : (start.run readings).graph.validate .standard none ⟨49⟩
      " -00.50\n1999-12-31T24:00:00" = .ok halfAndNewYear := by decide +kernel
  exact ⟨hvalidate, run_validate_isSound readings hvalidate⟩

end Builder

end SimpleTypes
