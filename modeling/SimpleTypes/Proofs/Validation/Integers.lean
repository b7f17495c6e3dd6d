import SimpleTypes.Proofs.Number.DecimalText
import SimpleTypes.Proofs.Schema.Runs
import SimpleTypes.Proofs.Text.Words
import SimpleTypes.Proofs.Validation.Blanks
import SimpleTypes.Proofs.Value.Order

/-!
# Integers

What the integer types make of a text. An integer numeral is read as the integer that it
denotes, whatever zeros and blanks it is padded with, and then compared with the bounds of
the type. Both are held as digits, of whatever number.

* `Decimal.DenotesInteger`: a text is a numeral of an integer. `isIntegerNumeral_iff` says
  that the rule for integers asks for no more, and `DenotesInteger.parse?` what is read.
* `Builtin.Contains`: an integer lies between the bounds of a type.
* `Builtin.checkAtom_boundAtom`: the facets of an integer type test the bounds alone.
* `run_validate_integers`: which texts an integer type accepts, what their canonical texts
  are, and how the others are refused.
-/

namespace SimpleTypes

/-! ## Integer numerals -/

namespace Decimal

variable {text : List Char} {n : Int}

/-- Whether a text is a numeral of an integer: a sign or none, and one or more digits. -/
def DenotesInteger (text : List Char) (n : Int) : Prop :=
  ∃ (sign : Sign) (digits : List Char), digits ≠ [] ∧ (∀ c ∈ digits, c.isDigit = true) ∧
    sign.text ++ digits = text ∧ sign.apply (natOfDigits digits : Int) = n

/-- Digits are not taken for a sign. -/
theorem readSign_text_of_isDigit (sign : Sign) {digits : List Char}
    (h : ∀ c ∈ digits, c.isDigit = true) :
    readSign (sign.text ++ digits) = (sign.isMinus, digits) := by
  refine readSign_text sign ?_ ?_
  · intro hhead
    exact absurd (h _ (List.mem_of_head? hhead)) (by decide)
  · intro hhead
    exact absurd (h _ (List.mem_of_head? hhead)) (by decide)

theorem isIntegerNumeral_iff : isIntegerNumeral text = true ↔ ∃ n, DenotesInteger text n := by
  simp only [isIntegerNumeral, Bool.and_eq_true, Bool.not_eq_true', List.isEmpty_eq_false_iff,
    List.all_eq_true]
  constructor
  · rintro ⟨hne, hdigits⟩
    obtain ⟨sign, htext, -⟩ := exists_sign text
    exact ⟨_, sign, _, hne, hdigits, htext.symm, rfl⟩
  · rintro ⟨_, sign, digits, hne, hdigits, rfl, -⟩
    rw [readSign_text_of_isDigit sign hdigits]
    exact ⟨hne, hdigits⟩

theorem value_ofInt (n : Int) : (ofInt n).value = n := by
  have hwhole : natOfDigits (ofInt n).whole = n.natAbs := by
    rcases eq_or_ne n 0 with rfl | hne
    · rfl
    · simp [ofInt, hne, natOfDigits_numeral]
  have hmagnitude : (ofInt n).magnitude = |(n : ℚ)| := by
    rw [magnitude, hwhole, Nat.cast_natAbs, Int.cast_abs]
    simp [ofInt, fractionValue, natOfDigits_nil]
  rcases lt_or_ge n 0 with hneg | hnonneg
  · have hnegative : (ofInt n).negative = true := by simpa [ofInt] using hneg
    rw [value, if_pos hnegative, hmagnitude, abs_of_neg (by exact_mod_cast hneg), neg_neg]
  · have hnegative : (ofInt n).negative = false := by simpa [ofInt] using hnonneg
    rw [value, hnegative, hmagnitude, abs_of_nonneg (by exact_mod_cast hnonneg)]
    rfl

/-- Integers have the order of their decimals. -/
theorem order_ofInt (n m : Int) : (ofInt n).order (ofInt m) = compare n m := by
  rw [(ofInt_isProper n).order_eq_compare_value (ofInt_isProper m), value_ofInt, value_ofInt,
    ← cmp_eq_compare, ← cmp_eq_compare]
  exact Int.cast_strictMono.cmp_map_eq n m

/-- An integer numeral is read as its integer, with whatever zeros it begins. -/
theorem DenotesInteger.parse? (h : DenotesInteger text n) : Decimal.parse? text = some (ofInt n) := by
  obtain ⟨sign, digits, hne, hdigits, rfl, rfl⟩ := h
  have hnone : ∀ c ∈ (none : Option (List Char)).getD [], c.isDigit = true := by simp
  let numeral : Written := ⟨sign, digits, none, hdigits, hnone, .inl hne⟩
  have htext : sign.text ++ digits = numeral.text := by
    simp [Written.text, numeral, pointText]
  have hvalue : (ofInt (sign.apply (natOfDigits digits : Int))).value = numeral.decimal.value := by
    rw [value_ofInt, numeral.value_decimal]
    cases sign <;>
      simp [Written.value, numeral, Sign.apply, Sign.isMinus, fractionValue, natOfDigits_nil]
  have hproper : numeral.decimal.IsProper := ofDigits_isProper _ hdigits hnone
  have hsame := ((ofInt_isProper _).value_eq_iff hproper).mp hvalue
  rw [htext, numeral.parse?_eq_some]
  exact ⟨Nat.two_pow_pos 32, hsame⟩

/-- The canonical text of an integer is its usual numeral. -/
theorem ofList_integerText (n : Int) : String.ofList (integerText n) = toString n := by
  cases n with
  | ofNat n => rfl
  | negSucc n =>
    rw [integerText, if_pos (Int.negSucc_lt_zero n), String.ofList_append]
    rfl

end Decimal

/-! ## Bounds -/

/-- Bounds that are not set are not tested. -/
theorem FacetSet.checkRange_of_inclusive {facets : FacetSet} (hlower : facets.minExclusive = none)
    (hupper : facets.maxExclusive = none) (value : Atom) :
    facets.checkRange value = (do
      facets.checkBound value .minInclusive
      facets.checkBound value .maxInclusive) := by
  have hskip {kind : RangeKind} (h : facets.slot kind = none) :
      facets.checkBound value kind = pure () := by
    rw [checkBound, h]
    rfl
  have hlower' : facets.checkBound value .minExclusive = pure () := hskip hlower
  have hupper' : facets.checkBound value .maxExclusive = pure () := hskip hupper
  simp [checkRange, RangeKind.all, hlower', hupper']

namespace Builtin

variable {type : Builtin} {n : Int}

/-- Whether an integer lies between the bounds of a type. -/
structure Contains (type : Builtin) (n : Int) : Prop where
  least : ∀ least, type.least? = some least → least ≤ n
  greatest : ∀ most, type.greatest? = some most → n ≤ most

theorem least_le_greatest {least most : Int} (hleast : type.least? = some least)
    (hmost : type.greatest? = some most) : least ≤ most := by
  have hbounds : ∀ type ∈ all, ∀ least ∈ type.least?, ∀ most ∈ type.greatest?, least ≤ most := by
    decide
  exact hbounds type (mem_all type) least hleast most hmost

/-- The facets of an integer type are its bounds, and that there is no fraction. -/
theorem facets_of_mem_integers (h : type ∈ integers) : type.facets =
    { whiteSpace := some .collapse, fractionDigits := some 0,
      minInclusive := type.least?.map (⟨.minInclusive, type.boundAtom ·⟩),
      maxInclusive := type.greatest?.map (⟨.maxInclusive, type.boundAtom ·⟩) } := by
  have hshape : ∀ type ∈ integers, type.shape = .atomic .decimal ∧
      type.whiteSpace? = some .collapse ∧ type.rule = .integer := by decide
  obtain ⟨hshape, hspace, hrule⟩ := hshape type h
  rw [facets, hshape, hspace, hrule]
  rfl

/-- An integer is tested against a bound by the order of the integers. -/
theorem checkBound_boundAtom {kind : RangeKind} {bound? : Option Int}
    (hslot : type.facets.slot kind = bound?.map (⟨kind, type.boundAtom ·⟩)) (n : Int) :
    type.facets.checkBound (type.boundAtom n) kind = FacetSet.testFacet bound? (fun bound =>
      FacetSet.demand (kind.accepts (compare n bound))
        (.range kind (type.boundAtom bound) (type.boundAtom n))) := by
  rw [FacetSet.checkBound, hslot]
  cases bound? with
  | none => rfl
  | some bound =>
    have hadmits : (⟨kind, type.boundAtom bound⟩ : Bound).admits (type.boundAtom n)
        = kind.accepts (compare n bound) := by
      rw [Bound.admits_eq]
      exact congrArg kind.accepts (Decimal.order_ofInt n bound)
    rw [Option.map_some, FacetSet.testFacet, FacetSet.testFacet, hadmits]

/-- An integer is tested against the two bounds, the least first. -/
theorem checkAtom_boundAtom (h : type ∈ integers) (n : Int) :
    type.facets.checkAtom (type.boundAtom n) = (do
      FacetSet.testFacet type.least? (fun least =>
        FacetSet.demand (RangeKind.minInclusive.accepts (compare n least))
          (.range .minInclusive (type.boundAtom least) (type.boundAtom n)))
      FacetSet.testFacet type.greatest? (fun most =>
        FacetSet.demand (RangeKind.maxInclusive.accepts (compare n most))
          (.range .maxInclusive (type.boundAtom most) (type.boundAtom n)))) := by
  have hfacets := facets_of_mem_integers h
  have hnumbers : type.facets.checkAtom (type.boundAtom n)
      = type.facets.checkRange (type.boundAtom n) := by
    rw [hfacets]
    rfl
  have hleast : type.facets.slot .minInclusive
      = type.least?.map (⟨.minInclusive, type.boundAtom ·⟩) := by
    rw [hfacets]
    rfl
  have hmost : type.facets.slot .maxInclusive
      = type.greatest?.map (⟨.maxInclusive, type.boundAtom ·⟩) := by
    rw [hfacets]
    rfl
  rw [hnumbers, FacetSet.checkRange_of_inclusive (by rw [hfacets]) (by rw [hfacets]),
    checkBound_boundAtom hleast, checkBound_boundAtom hmost]

theorem accepts_minInclusive {n least : Int} :
    RangeKind.minInclusive.accepts (compare n least) = true ↔ least ≤ n := by
  rw [RangeKind.accepts, bne_iff_ne, compare_ge_iff_ge]

theorem accepts_maxInclusive {n most : Int} :
    RangeKind.maxInclusive.accepts (compare n most) = true ↔ n ≤ most := by
  rw [RangeKind.accepts, bne_iff_ne, compare_le_iff_le]

theorem checkAtom_of_contains (h : type ∈ integers) (hn : type.Contains n) :
    type.facets.checkAtom (type.boundAtom n) = .ok () := by
  rw [checkAtom_boundAtom h, then_eq_ok]
  simp only [FacetSet.testFacet_eq_ok, FacetSet.demand_eq_ok, accepts_minInclusive,
    accepts_maxInclusive]
  exact ⟨hn.least, hn.greatest⟩

theorem checkAtom_of_lt_least (h : type ∈ integers) {least : Int}
    (hleast : type.least? = some least) (hn : n < least) :
    type.facets.checkAtom (type.boundAtom n)
      = .error (.range .minInclusive (type.boundAtom least) (type.boundAtom n)) := by
  have hrefused := Bool.eq_false_iff.mpr (mt accepts_minInclusive.mp (not_le.mpr hn))
  rw [checkAtom_boundAtom h, hleast, FacetSet.testFacet, hrefused]
  rfl

/-- An integer above the greatest one is not below the least one. -/
theorem checkAtom_of_greatest_lt (h : type ∈ integers) {most : Int}
    (hmost : type.greatest? = some most) (hn : most < n) :
    type.facets.checkAtom (type.boundAtom n)
      = .error (.range .maxInclusive (type.boundAtom most) (type.boundAtom n)) := by
  have hrefused := Bool.eq_false_iff.mpr (mt accepts_maxInclusive.mp (not_le.mpr hn))
  have hpassed : FacetSet.testFacet type.least? (fun least =>
      FacetSet.demand (RangeKind.minInclusive.accepts (compare n least))
        (.range .minInclusive (type.boundAtom least) (type.boundAtom n))) = .ok () := by
    simp only [FacetSet.testFacet_eq_ok, FacetSet.demand_eq_ok, accepts_minInclusive]
    intro least hleast
    exact (least_le_greatest hleast hmost).trans hn.le
  rw [checkAtom_boundAtom h, hpassed, hmost]
  simp only [FacetSet.testFacet, hrefused]
  rfl

end Builtin

/-! ## Texts -/

/-- Whether a text was found invalid for a cause of a kind. -/
def IsRefusal (outcome : Except Error TypedValue) (kind : ErrorKind) : Prop :=
  ∃ cause, outcome = .error (.invalid cause) ∧ cause.kind = kind

/-- What an integer type makes of a text whose blanks are collapsed. It accepts the numerals
of the integers between its bounds, writes these integers in the usual way, and tells what
is no numeral from what is too small and from what is too large. -/
structure Builtin.JudgesInteger (type : Builtin) (text : List Char)
    (outcome : Except Error TypedValue) : Prop where
  accepts : (∃ value, outcome = .ok value) ↔
    ∃ n, Decimal.DenotesInteger text n ∧ type.Contains n
  canonical : ∀ n value, Decimal.DenotesInteger text n → outcome = .ok value →
    value.canonical = toString n
  malformed : (¬∃ n, Decimal.DenotesInteger text n) → IsRefusal outcome (.lexical .integer)
  tooSmall : ∀ n least, Decimal.DenotesInteger text n → type.least? = some least → n < least →
    IsRefusal outcome (.range .minInclusive)
  tooLarge : ∀ n most, Decimal.DenotesInteger text n → type.greatest? = some most → most < n →
    IsRefusal outcome (.range .maxInclusive)

variable {limits : Limits} {bindings? : Option Bindings} {type : Builtin} {text : String} {n : Int}

theorem checkDecimalDigits_of_le {count : Nat} (h : count ≤ limits.decimalDigits) :
    limits.checkDecimalDigits count = .ok () := by
  rw [Limits.checkDecimalDigits, if_neg (Nat.not_lt.mpr h)]

theorem readDecimal_of_denotes (hdigits : text.toList.countP Char.isDigit ≤ limits.decimalDigits)
    (h : Decimal.DenotesInteger text.toList n) :
    readDecimal .integer text limits = .ok (Decimal.ofInt n) :=
  readDecimal_eq_ok.mpr ⟨checkDecimalDigits_of_le hdigits,
    fun _ => Decimal.isIntegerNumeral_iff.mpr ⟨n, h⟩, h.parse?⟩

theorem readDecimal_of_not_denotes
    (hdigits : text.toList.countP Char.isDigit ≤ limits.decimalDigits)
    (h : ¬∃ n, Decimal.DenotesInteger text.toList n) :
    readDecimal .integer text limits = .error (.invalid (.lexical .integer text)) := by
  rw [← Decimal.isIntegerNumeral_iff, Bool.not_eq_true] at h
  rw [readDecimal, checkDecimalDigits_of_le hdigits, h]
  rfl

theorem Builtin.simpleType_of_mem_integers (h : type ∈ integers) :
    type.simpleType.variety = .atomic .decimal ∧ type.simpleType.rule = .integer ∧
      type.simpleType.facets.whiteSpace = some .collapse ∧
      type.simpleType.facets.enumeration = none := by
  have hkept : ∀ type ∈ integers, type.simpleType.variety = .atomic .decimal ∧
      type.simpleType.rule = .integer ∧ type.simpleType.facets.whiteSpace = some .collapse ∧
      type.simpleType.facets.enumeration = none := by decide
  exact hkept type h

namespace Graph

variable {graph : Graph}

/-- An integer type reads the collapsed text and tests what it has read. -/
theorem WellFormed.validate_integer (wf : graph.WellFormed) (h : type ∈ Builtin.integers)
    (hlength : text.length ≤ limits.lexicalLength) :
    graph.validate limits bindings? type.handle text = (do
      let value ← readDecimal .integer (String.ofList (collapseBlanks text.toList)) limits
      Error.ofInvalid (type.facets.checkAtom ⟨.decimal value, type.handle, .decimal⟩)
      return .atomic ⟨.decimal value, type.handle, .decimal⟩) := by
  obtain ⟨hvariety, hrule, hspace, henumeration⟩ := Builtin.simpleType_of_mem_integers h
  rw [validate_eq_readValue hlength, wf.readValue_eq (wf.builtins type), hvariety]
  have hdone (value : TypedValue) :
      Error.ofInvalid (type.simpleType.facets.checkEnumeration value) = pure () := by
    rw [FacetSet.checkEnumeration, henumeration]
    rfl
  simp only [readAtom, hrule, hspace, hdone, readAtomic, map_eq_pure_bind, bind_assoc, pure_bind]
  rfl

section

variable (wf : graph.WellFormed) (h : type ∈ Builtin.integers)
  (hlength : text.length ≤ limits.lexicalLength)
  (hdigits : text.toList.countP Char.isDigit ≤ limits.decimalDigits)

include wf h hlength hdigits

theorem WellFormed.validate_of_not_denotes
    (hn : ¬∃ n, Decimal.DenotesInteger (collapseBlanks text.toList) n) :
    graph.validate limits bindings? type.handle text
      = .error (.invalid (.lexical .integer (String.ofList (collapseBlanks text.toList)))) := by
  rw [wf.validate_integer h hlength, readDecimal_of_not_denotes]
  · rfl
  · rwa [String.toList_ofList, countP_isDigit_collapseBlanks]
  · rwa [String.toList_ofList]

theorem WellFormed.validate_of_denotes
    (hn : Decimal.DenotesInteger (collapseBlanks text.toList) n) :
    graph.validate limits bindings? type.handle text
      = (fun _ => .atomic (type.boundAtom n)) <$>
        Error.ofInvalid (type.facets.checkAtom (type.boundAtom n)) := by
  rw [wf.validate_integer h hlength, readDecimal_of_denotes]
  · rfl
  · rwa [String.toList_ofList, countP_isDigit_collapseBlanks]
  · rwa [String.toList_ofList]

theorem WellFormed.validate_of_contains
    (hn : Decimal.DenotesInteger (collapseBlanks text.toList) n) (hcontains : type.Contains n) :
    graph.validate limits bindings? type.handle text = .ok (.atomic (type.boundAtom n)) := by
  rw [wf.validate_of_denotes h hlength hdigits hn, Builtin.checkAtom_of_contains h hcontains]
  rfl

theorem WellFormed.validate_of_lt_least {least : Int}
    (hn : Decimal.DenotesInteger (collapseBlanks text.toList) n)
    (hleast : type.least? = some least) (hlt : n < least) :
    graph.validate limits bindings? type.handle text
      = .error (.invalid (.range .minInclusive (type.boundAtom least) (type.boundAtom n))) := by
  rw [wf.validate_of_denotes h hlength hdigits hn, Builtin.checkAtom_of_lt_least h hleast hlt]
  rfl

theorem WellFormed.validate_of_greatest_lt {most : Int}
    (hn : Decimal.DenotesInteger (collapseBlanks text.toList) n)
    (hmost : type.greatest? = some most) (hlt : most < n) :
    graph.validate limits bindings? type.handle text
      = .error (.invalid (.range .maxInclusive (type.boundAtom most) (type.boundAtom n))) := by
  rw [wf.validate_of_denotes h hlength hdigits hn, Builtin.checkAtom_of_greatest_lt h hmost hlt]
  rfl

/-- The text of a value is a numeral of an integer between the bounds. -/
theorem WellFormed.exists_denotes {value : TypedValue}
    (hvalue : graph.validate limits bindings? type.handle text = .ok value) :
    ∃ n, Decimal.DenotesInteger (collapseBlanks text.toList) n ∧ type.Contains n := by
  by_cases hdenotes : ∃ n, Decimal.DenotesInteger (collapseBlanks text.toList) n
  · obtain ⟨n, hn⟩ := hdenotes
    refine ⟨n, hn, fun least hleast => ?_, fun most hmost => ?_⟩
    · by_contra hlt
      rw [wf.validate_of_lt_least h hlength hdigits hn hleast (not_le.mp hlt)] at hvalue
      cases hvalue
    · by_contra hlt
      rw [wf.validate_of_greatest_lt h hlength hdigits hn hmost (not_le.mp hlt)] at hvalue
      cases hvalue
  · rw [wf.validate_of_not_denotes h hlength hdigits hdenotes] at hvalue
    cases hvalue

theorem WellFormed.judgesInteger : type.JudgesInteger (collapseBlanks text.toList)
    (graph.validate limits bindings? type.handle text) where
  accepts := by
    constructor
    · rintro ⟨value, hvalue⟩
      exact wf.exists_denotes h hlength hdigits hvalue
    · rintro ⟨n, hn, hcontains⟩
      exact ⟨_, wf.validate_of_contains h hlength hdigits hn hcontains⟩
  canonical n value hn hvalue := by
    rw [wf.validate_of_denotes h hlength hdigits hn] at hvalue
    obtain ⟨_, -, rfl⟩ := map_eq_ok.mp hvalue
    exact (congrArg String.ofList (Decimal.canonical_ofInt n)).trans (Decimal.ofList_integerText n)
  malformed hn := ⟨_, wf.validate_of_not_denotes h hlength hdigits hn, rfl⟩
  tooSmall n least hn hleast hlt :=
    ⟨_, wf.validate_of_lt_least h hlength hdigits hn hleast hlt, rfl⟩
  tooLarge n most hn hmost hlt :=
    ⟨_, wf.validate_of_greatest_lt h hlength hdigits hn hmost hlt, rfl⟩

end

end Graph

namespace Builder

/-- In the graph of every run, an integer type accepts a text if its words, with single
spaces between them, are a numeral of an integer between the bounds of the type. -/
theorem run_validate_integers (steps : List Step) (h : type ∈ Builtin.integers)
    (hlength : text.length ≤ limits.lexicalLength)
    (hdigits : text.toList.countP Char.isDigit ≤ limits.decimalDigits) :
    type.JudgesInteger ([' '].intercalate (words text.toList))
      ((start.run steps).graph.validate limits bindings? type.handle text) := by
  rw [← collapseBlanks_eq]
  exact (run_wellFormed steps).judgesInteger h hlength hdigits

/-- Lists of bytes. -/
def bytes : List Step := [.define (.list none Builtin.byte.handle)]

/-- A byte is found under its zeros and blanks, and the least integer above the bytes is
refused as too large. -/
theorem run_validate_integers_paddedByte :
    (∃ value, (start.run bytes).graph.validate .standard none Builtin.byte.handle "\t-0128 "
      = .ok value ∧ value.canonical = "-128") ∧
    IsRefusal ((start.run bytes).graph.validate .standard none Builtin.byte.handle "+128")
      (.range .maxInclusive) := by
  have hbyte : Builtin.byte ∈ Builtin.integers := by decide
  constructor
  · have hjudges : Builtin.byte.JudgesInteger ([' '].intercalate (words "\t-0128 ".toList))
        ((start.run bytes).graph.validate .standard none Builtin.byte.handle "\t-0128 ") :=
      run_validate_integers bytes hbyte (by decide +kernel) (by decide +kernel)
    have hwords : words "\t-0128 ".toList = [['-', '0', '1', '2', '8']] := by decide +kernel
    have hn : Decimal.DenotesInteger ([' '].intercalate (words "\t-0128 ".toList)) (-128) := by
      rw [hwords]
      exact ⟨.minus, ['0', '1', '2', '8'], by decide, by simp, rfl, by decide⟩
    have hcontains : Builtin.byte.Contains (-128) := by
      constructor <;> (rintro _ ⟨⟩; decide)
    obtain ⟨value, hvalue⟩ := hjudges.accepts.mpr ⟨_, hn, hcontains⟩
    exact ⟨value, hvalue, hjudges.canonical _ value hn hvalue⟩
  · have hjudges : Builtin.byte.JudgesInteger ([' '].intercalate (words "+128".toList))
        ((start.run bytes).graph.validate .standard none Builtin.byte.handle "+128") :=
      run_validate_integers bytes hbyte (by decide +kernel) (by decide +kernel)
    have hwords : words "+128".toList = [['+', '1', '2', '8']] := by decide +kernel
    have hn : Decimal.DenotesInteger ([' '].intercalate (words "+128".toList)) 128 := by
      rw [hwords]
      exact ⟨.plus, ['1', '2', '8'], by decide, by simp, rfl, by decide⟩
    exact hjudges.tooLarge 128 127 hn rfl (by decide)

end Builder

end SimpleTypes
