import SimpleTypes.Proofs.Outcome
import SimpleTypes.Validation.Simple

/-!
# Texts in UTF-16 units

A text that arrives in units is validated as the text itself. Units that are those of no text
are refused for their first unpaired surrogate, whatever they are validated against.

* `decodeFrom_encode_append`: characters are read back from their units, with any units
  behind them.
* `IsFirstUnpaired`: the fault of units, in terms of the characters before it.
* `isTextOrFaulty`: units are those of a text, or they have such a fault.
* `Graph.validateUnits_agrees`: both cases, at the entry point for units.
-/

namespace SimpleTypes

namespace Units

/-! ## Units of one character -/

variable {unit high low : UInt16} {c : Char}

theorem isHigh_iff : isHigh unit = true ↔ 0xD800 ≤ unit.toNat ∧ unit.toNat ≤ 0xDBFF := by
  simp only [isHigh, Bool.and_eq_true, decide_eq_true_eq, UInt16.le_iff_toNat_le]
  rfl

theorem isLow_iff : isLow unit = true ↔ 0xDC00 ≤ unit.toNat ∧ unit.toNat ≤ 0xDFFF := by
  simp only [isLow, Bool.and_eq_true, decide_eq_true_eq, UInt16.le_iff_toNat_le]
  rfl

theorem isLow_of_isHigh (h : isHigh unit = true) : isLow unit = false := by
  have := isHigh_iff.mp h
  refine Bool.eq_false_iff.mpr fun hlow => ?_
  have := isLow_iff.mp hlow
  omega

/-- Every number of a character stays outside the surrogates. -/
theorem toNat_cases (c : Char) : c.toNat < 0xD800 ∨ 0xDFFF < c.toNat ∧ c.toNat < 0x110000 :=
  c.valid

theorem toNat_ofNat {n : Nat} (h : n < 0xD800 ∨ 0xDFFF < n ∧ n < 0x110000) :
    (Char.ofNat n).toNat = n := by
  have hvalid : n.isValidChar := h
  rw [Char.ofNat, dif_pos hvalid]
  rfl

theorem toNat_combine (hhigh : isHigh high = true) (hlow : isLow low = true) :
    (combine high low).toNat
      = 0x10000 + (high.toNat - 0xD800) * 0x400 + (low.toNat - 0xDC00) := by
  have := isHigh_iff.mp hhigh
  have := isLow_iff.mp hlow
  exact toNat_ofNat (by omega)

/-- A unit that is no surrogate is the only unit of its character. -/
theorem encodeChar_ofNat (hhigh : ¬isHigh unit = true) (hlow : ¬isLow unit = true) :
    encodeChar (Char.ofNat unit.toNat) = [unit] := by
  have hunit := unit.toNat_lt
  rw [isHigh_iff] at hhigh
  rw [isLow_iff] at hlow
  rw [encodeChar, toNat_ofNat (by omega), if_pos hunit, UInt16.ofNat_toNat]

/-- A pair is what its character is written in. -/
theorem encodeChar_combine (hhigh : isHigh high = true) (hlow : isLow low = true) :
    encodeChar (combine high low) = [high, low] := by
  have hnumber := toNat_combine hhigh hlow
  have hh := isHigh_iff.mp hhigh
  have hl := isLow_iff.mp hlow
  have hupper : 0xD800 + ((combine high low).toNat - 0x10000) / 0x400 = high.toNat := by omega
  have hlower : 0xDC00 + ((combine high low).toNat - 0x10000) % 0x400 = low.toNat := by omega
  rw [encodeChar, if_neg (by omega)]
  simp only [hupper, hlower, UInt16.ofNat_toNat]

/-! ## Decoding the units of a text -/

/-- Whether a unit, with the units behind it, is a surrogate without a partner: a low one that
no high one has taken, or a high one with no low one directly behind it. -/
def IsUnpaired (unit : UInt16) (rest : List UInt16) : Prop :=
  isLow unit = true ∨ isHigh unit = true ∧ ∀ next ∈ rest.head?, isLow next = false

theorem decodeFrom_single (position : Nat) (rest : List UInt16) (hhigh : ¬isHigh unit = true)
    (hlow : ¬isLow unit = true) : decodeFrom position (unit :: rest)
      = (decodeFrom (position + 1) rest).map (Char.ofNat unit.toNat :: ·) := by
  rw [decodeFrom.eq_def]
  simp only [if_neg hhigh, if_neg hlow]

theorem decodeFrom_pair (position : Nat) (rest : List UInt16) (hhigh : isHigh high = true)
    (hlow : isLow low = true) : decodeFrom position (high :: low :: rest)
      = (decodeFrom (position + 1) rest).map (combine high low :: ·) := by
  rw [decodeFrom.eq_def]
  simp only [if_pos hhigh, if_pos hlow]

theorem decodeFrom_unpaired {rest : List UInt16} (position : Nat) (h : IsUnpaired unit rest) :
    decodeFrom position (unit :: rest) = .error ⟨unit, position⟩ := by
  rw [decodeFrom.eq_def]
  rcases h with hlow | ⟨hhigh, hnext⟩
  · have hhigh : ¬isHigh unit = true := fun hhigh => by simp [isLow_of_isHigh hhigh] at hlow
    simp only [if_neg hhigh, if_pos hlow]
  · cases rest with
    | nil => simp only [if_pos hhigh]
    | cons next rest => simp only [if_pos hhigh, hnext next rfl, Bool.false_eq_true, if_false]

/-- A character is read back from its units. -/
theorem decodeFrom_encodeChar_append (position : Nat) (c : Char) (rest : List UInt16) :
    decodeFrom position (encodeChar c ++ rest)
      = (decodeFrom (position + 1) rest).map (c :: ·) := by
  have hc := toNat_cases c
  rw [encodeChar]
  split
  case isTrue hsmall =>
    have hunit : (UInt16.ofNat c.toNat).toNat = c.toNat := UInt16.toNat_ofNat_of_lt' hsmall
    have hhigh : ¬isHigh (UInt16.ofNat c.toNat) = true := by
      rw [isHigh_iff, hunit]
      omega
    have hlow : ¬isLow (UInt16.ofNat c.toNat) = true := by
      rw [isLow_iff, hunit]
      omega
    rw [List.singleton_append, decodeFrom_single position rest hhigh hlow, hunit,
      Char.ofNat_toNat]
  case isFalse hlarge =>
    have hupper : (UInt16.ofNat (0xD800 + (c.toNat - 0x10000) / 0x400)).toNat
        = 0xD800 + (c.toNat - 0x10000) / 0x400 :=
      UInt16.toNat_ofNat_of_lt' (by rw [UInt16.size]; omega)
    have hlower : (UInt16.ofNat (0xDC00 + (c.toNat - 0x10000) % 0x400)).toNat
        = 0xDC00 + (c.toNat - 0x10000) % 0x400 :=
      UInt16.toNat_ofNat_of_lt' (by rw [UInt16.size]; omega)
    have hhigh := isHigh_iff.mpr (by rw [hupper]; omega)
    have hlow := isLow_iff.mpr (by rw [hlower]; omega)
    have hchar : combine (UInt16.ofNat (0xD800 + (c.toNat - 0x10000) / 0x400))
        (UInt16.ofNat (0xDC00 + (c.toNat - 0x10000) % 0x400)) = c := by
      rw [← Char.toNat_inj, toNat_combine hhigh hlow, hupper, hlower]
      omega
    simp only [List.cons_append, List.nil_append]
    rw [decodeFrom_pair position rest hhigh hlow, hchar]

/-- A text is read back from its units, with any units behind them. -/
theorem decodeFrom_encode_append (position : Nat) (text : List Char) (rest : List UInt16) :
    decodeFrom position (encode text ++ rest)
      = (decodeFrom (position + text.length) rest).map (text ++ ·) := by
  induction text generalizing position with
  | nil =>
    show decodeFrom position rest = (decodeFrom position rest).map ([] ++ ·)
    cases decodeFrom position rest <;> rfl
  | cons c text ih =>
    have hunits : encode (c :: text) ++ rest = encodeChar c ++ (encode text ++ rest) := by
      simp [encode]
    have hcount : position + 1 + text.length = position + (c :: text).length := by
      rw [List.length_cons]
      omega
    rw [hunits, decodeFrom_encodeChar_append, ih, hcount]
    cases decodeFrom (position + (c :: text).length) rest <;> rfl

theorem decode_encode (text : List Char) : decode (encode text) = .ok text := by
  have h := decodeFrom_encode_append 0 text []
  rw [List.append_nil] at h
  rw [decode, h, decodeFrom]
  exact congrArg Except.ok (List.append_nil text)

/-! ## Units of no text -/

/-- Whether a fault is the first one of some units: whole characters stand before it, and its
position is their number. -/
def IsFirstUnpaired (units : List UInt16) (fault : Unpaired) : Prop :=
  ∃ before rest, units = encode before ++ fault.unit :: rest ∧ fault.position = before.length ∧
    IsUnpaired fault.unit rest

variable {units : List UInt16} {fault : Unpaired}

theorem IsFirstUnpaired.decode_eq (h : IsFirstUnpaired units fault) :
    decode units = .error fault := by
  obtain ⟨before, rest, rfl, hposition, hunpaired⟩ := h
  rw [decode, decodeFrom_encode_append, decodeFrom_unpaired _ hunpaired, Nat.zero_add, ← hposition]
  rfl

/-- No text has units with a fault. -/
theorem IsFirstUnpaired.ne_encode (h : IsFirstUnpaired units fault) (text : List Char) :
    units ≠ encode text := by
  rintro rfl
  have hdecode := h.decode_eq
  rw [decode_encode] at hdecode
  cases hdecode

theorem IsFirstUnpaired.cons (c : Char) (h : IsFirstUnpaired units fault) :
    IsFirstUnpaired (encodeChar c ++ units) ⟨fault.unit, fault.position + 1⟩ := by
  obtain ⟨before, rest, rfl, hposition, hunpaired⟩ := h
  refine ⟨c :: before, rest, ?_, ?_, hunpaired⟩
  · simp [encode]
  · rw [hposition, List.length_cons]

/-- What units are made of: the units of whole characters, up to the end or to a fault. -/
def IsTextOrFaulty (units : List UInt16) : Prop :=
  (∃ text, units = encode text) ∨ ∃ fault, IsFirstUnpaired units fault

theorem IsTextOrFaulty.cons (c : Char) (h : IsTextOrFaulty units) :
    IsTextOrFaulty (encodeChar c ++ units) := by
  rcases h with ⟨text, rfl⟩ | ⟨fault, hfault⟩
  · exact .inl ⟨c :: text, rfl⟩
  · exact .inr ⟨_, hfault.cons c⟩

theorem isTextOrFaulty_of_isUnpaired {rest : List UInt16} (h : IsUnpaired unit rest) :
    IsTextOrFaulty (unit :: rest) :=
  .inr ⟨⟨unit, 0⟩, [], rest, rfl, rfl, h⟩

/-- Units are those of a text, or they have a first fault. The cases are those in which units
are read, so a pair takes two of them. -/
theorem isTextOrFaulty : ∀ units : List UInt16, IsTextOrFaulty units
  | [] => .inl ⟨[], rfl⟩
  | unit :: rest => by
    by_cases hlow : isLow unit = true
    · exact isTextOrFaulty_of_isUnpaired (.inl hlow)
    by_cases hhigh : isHigh unit = true
    · match rest with
      | [] => exact isTextOrFaulty_of_isUnpaired (.inr ⟨hhigh, nofun⟩)
      | next :: rest =>
        by_cases hnext : isLow next = true
        · have hrest := (isTextOrFaulty rest).cons (combine unit next)
          rwa [encodeChar_combine hhigh hnext] at hrest
        · refine isTextOrFaulty_of_isUnpaired (.inr ⟨hhigh, ?_⟩)
          rintro _ ⟨⟩
          exact Bool.eq_false_iff.mpr hnext
    · have hrest := (isTextOrFaulty rest).cons (Char.ofNat unit.toNat)
      rwa [encodeChar_ofNat hhigh hlow] at hrest

end Units

/-! ## Validating units -/

namespace Graph

/-- The units of a text are validated as the text. Units of no text are refused for their first
unpaired surrogate, whatever the schema, the type, the bindings and the limits are. -/
theorem validateUnits_agrees (units : List UInt16) :
    (∀ text : String, units = Units.encode text.toList →
      ∀ (graph : Graph) (limits : Limits) (bindings? : Option Bindings) (handle : Handle),
        graph.validateUnits limits bindings? handle units
          = graph.validate limits bindings? handle text) ∧
    ((∀ text : String, units ≠ Units.encode text.toList) →
      ∃ fault, Units.IsFirstUnpaired units fault ∧
        ∀ (graph : Graph) (limits : Limits) (bindings? : Option Bindings) (handle : Handle),
          graph.validateUnits limits bindings? handle units
            = .error (.invalid (.surrogatePair fault))) := by
  constructor
  · rintro text rfl graph limits bindings? handle
    rw [validateUnits, Units.decode_encode]
    show graph.validate limits bindings? handle (String.ofList text.toList) = _
    rw [String.ofList_toList]
  · intro hnone
    rcases Units.isTextOrFaulty units with ⟨text, htext⟩ | ⟨fault, hfault⟩
    · exact absurd (htext.trans (by rw [String.toList_ofList])) (hnone (String.ofList text))
    · refine ⟨fault, hfault, fun graph limits bindings? handle => ?_⟩
      rw [validateUnits, hfault.decode_eq]
      rfl

/-- A pair is one character of a string. A second low surrogate behind it is refused, although
the handle addresses nothing and the text before it is longer than the limit. -/
theorem validateUnits_agrees_doubledLow :
    [0x61, 0xD83D, 0xDE00] = Units.encode "a😀".toList ∧
    builtins.validateUnits .standard none (Builtin.primitive .string).handle
        [0x61, 0xD83D, 0xDE00]
      = .ok (.atomic ⟨.string "a😀", (Builtin.primitive .string).handle, .string⟩) ∧
    (∀ text : String, [0x61, 0xD83D, 0xDE00, 0xDE00] ≠ Units.encode text.toList) ∧
    builtins.validateUnits { Limits.strict with lexicalLength := 1 } none .absent
        [0x61, 0xD83D, 0xDE00, 0xDE00]
      = .error (.invalid (.surrogatePair ⟨0xDE00, 2⟩)) := by
  have htext : [0x61, 0xD83D, 0xDE00] = Units.encode "a😀".toList := by decide
  have hstring : builtins.validate .standard none (Builtin.primitive .string).handle "a😀"
      = .ok (.atomic ⟨.string "a😀", (Builtin.primitive .string).handle, .string⟩) := by
    decide +kernel
  have hfirst : Units.IsFirstUnpaired [0x61, 0xD83D, 0xDE00, 0xDE00] ⟨0xDE00, 2⟩ :=
    ⟨['a', '😀'], [], by decide, rfl, .inl (by decide)⟩
  have hnone (text : String) : [0x61, 0xD83D, 0xDE00, 0xDE00] ≠ Units.encode text.toList :=
    hfirst.ne_encode text.toList
  refine ⟨htext, ?_, hnone, ?_⟩
  · rw [(validateUnits_agrees _).1 _ htext, hstring]
  · obtain ⟨fault, hfault, hrefused⟩ := (validateUnits_agrees _).2 hnone
    have hsame := hfault.decode_eq.symm.trans hfirst.decode_eq
    rw [hrefused, Except.error.inj hsame]

end Graph

end SimpleTypes
