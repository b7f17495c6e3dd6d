import SimpleTypes.Proofs.Schema.Runs
import SimpleTypes.Proofs.Text.Words

/-!
# Language tags

Every text falls into subtags at its hyphens in one way. The tag is malformed in its primary
subtag, or else in a later one, or it is a language tag, and the type of language tags tells
these three apart.

* `isShortRun_iff`: bytes of ASCII are characters of ASCII, so that the lengths in bytes are
  lengths in characters.
* `AreSubtags`: the subtags of a tag, in terms of the tag they make up.
* `classifiesTag_languageFault?`: the fault of a tag in terms of its subtags.
* `Builder.run_validate_language`: what the type of language tags makes of a text.
-/

namespace SimpleTypes

/-! ## Letters and digits -/

/-- Whether a character is a letter of ASCII. -/
def IsLetter (c : Char) : Prop := ('A' ≤ c ∧ c ≤ 'Z') ∨ ('a' ≤ c ∧ c ≤ 'z')

instance (c : Char) : Decidable (IsLetter c) :=
  inferInstanceAs (Decidable (_ ∨ _))

/-- Whether a character is a letter or a digit of ASCII. -/
def IsAlphanumeric (c : Char) : Prop := IsLetter c ∨ ('0' ≤ c ∧ c ≤ '9')

instance (c : Char) : Decidable (IsAlphanumeric c) :=
  inferInstanceAs (Decidable (_ ∨ _))

variable {c : Char} {isOfKind : UInt8 → Bool} {text subtag : List Char}

theorem utf8EncodeChar_of_lt (h : c.toNat < 128) :
    String.utf8EncodeChar c = [UInt8.ofNat c.toNat] := by
  rw [String.utf8EncodeChar]
  exact if_pos (Nat.le_of_lt_succ h)

/-- A character beyond ASCII begins with a byte beyond ASCII. -/
theorem exists_utf8EncodeChar_of_le (h : 128 ≤ c.toNat) :
    ∃ byte rest, String.utf8EncodeChar c = byte :: rest ∧ 128 ≤ byte.toNat := by
  have hsize : ¬c.val.toNat ≤ 127 := Nat.not_le.mpr h
  rw [String.utf8EncodeChar]
  simp only [if_neg hsize]
  split
  · exact ⟨_, _, rfl, by rw [UInt8.toNat_ofNat']; omega⟩
  · split
    · exact ⟨_, _, rfl, by rw [UInt8.toNat_ofNat']; omega⟩
    · exact ⟨_, _, rfl, by rw [UInt8.toNat_ofNat']; omega⟩

/-- The bytes of a character are of a kind of ASCII bytes if the character is one byte and this
byte is. -/
theorem all_utf8EncodeChar (hkind : ∀ byte, isOfKind byte = true → byte.toNat < 128) :
    (String.utf8EncodeChar c).all isOfKind = true ↔
      c.toNat < 128 ∧ isOfKind (UInt8.ofNat c.toNat) = true := by
  by_cases hc : c.toNat < 128
  · rw [utf8EncodeChar_of_lt hc]
    simp [hc]
  · obtain ⟨byte, rest, hbytes, hbyte⟩ := exists_utf8EncodeChar_of_le (Nat.not_lt.mp hc)
    refine iff_of_false (fun hall => ?_) fun h => hc h.1
    rw [hbytes, List.all_cons, Bool.and_eq_true] at hall
    exact absurd (hkind byte hall.1) (Nat.not_lt.mpr hbyte)

theorem length_utf8Bytes (h : ∀ c ∈ text, c.toNat < 128) :
    (utf8Bytes text).length = text.length := by
  induction text with
  | nil => rfl
  | cons c rest ih =>
    obtain ⟨hc, hrest⟩ := List.forall_mem_cons.mp h
    rw [utf8Bytes, List.flatMap_cons, List.length_append, utf8EncodeChar_of_lt hc,
      List.length_singleton, Nat.add_comm, List.length_cons]
    exact congrArg (· + 1) (ih hrest)

/-- A text that is short in bytes of a kind of ASCII is short in characters of that kind. -/
theorem isShortRun_iff {IsOfKind : Char → Prop}
    (hbyte : ∀ byte, isOfKind byte = true → byte.toNat < 128)
    (hchar : ∀ c, IsOfKind c → c.toNat < 128)
    (hsame : ∀ n < 128, isOfKind (UInt8.ofNat n) = true ↔ IsOfKind (Char.ofNat n)) :
    isShortRun isOfKind text = true ↔
      1 ≤ text.length ∧ text.length ≤ 8 ∧ ∀ c ∈ text, IsOfKind c := by
  have hone (c : Char) : (String.utf8EncodeChar c).all isOfKind = true ↔ IsOfKind c := by
    rw [all_utf8EncodeChar hbyte]
    constructor
    · rintro ⟨hc, hkind⟩
      rwa [hsame _ hc, Char.ofNat_toNat] at hkind
    · intro hc
      refine ⟨hchar c hc, ?_⟩
      rwa [hsame _ (hchar c hc), Char.ofNat_toNat]
  have hall : (utf8Bytes text).all isOfKind = true ↔ ∀ c ∈ text, IsOfKind c := by
    rw [utf8Bytes, List.all_flatMap, List.all_eq_true]
    exact forall₂_congr fun c _ => hone c
  simp only [isShortRun, Bool.and_eq_true, hall, decide_eq_true_eq]
  rw [← and_assoc]
  refine and_congr_left fun hchars => ?_
  have hlength := length_utf8Bytes fun c hc => hchar c (hchars c hc)
  rw [Bool.not_eq_true', List.isEmpty_eq_false_iff, ← List.length_pos_iff, hlength]
  rfl

theorem IsAlphanumeric.toNat_lt (h : IsAlphanumeric c) : c.toNat < 128 := by
  rcases h with (⟨-, hle⟩ | ⟨-, hle⟩) | ⟨-, hle⟩ <;>
    exact Nat.lt_of_le_of_lt (UInt32.le_iff_toNat_le.mp hle) (by decide)

theorem toNat_lt_of_isAlphanumericByte {byte : UInt8} (h : isAlphanumericByte byte = true) :
    byte.toNat < 128 := by
  simp only [isAlphanumericByte, isLetterByte, Bool.or_eq_true, Bool.and_eq_true,
    decide_eq_true_eq, UInt8.le_iff_toNat_le, UInt8.reduceToNat] at h
  omega

theorem isShortRun_letter : isShortRun isLetterByte text = true ↔
    1 ≤ text.length ∧ text.length ≤ 8 ∧ ∀ c ∈ text, IsLetter c :=
  isShortRun_iff
    (fun byte h => toNat_lt_of_isAlphanumericByte (by rw [isAlphanumericByte, h, Bool.true_or]))
    (fun c h => IsAlphanumeric.toNat_lt (.inl h)) (by decide)

theorem isShortRun_alphanumeric : isShortRun isAlphanumericByte text = true ↔
    1 ≤ text.length ∧ text.length ≤ 8 ∧ ∀ c ∈ text, IsAlphanumeric c :=
  isShortRun_iff (fun _ => toNat_lt_of_isAlphanumericByte) (fun _ => IsAlphanumeric.toNat_lt)
    (by decide)

/-! ## Subtags -/

/-- Two to eight letters, or one of the two single letters in either case. -/
def IsPrimarySubtag (subtag : List Char) : Prop :=
  2 ≤ subtag.length ∧ subtag.length ≤ 8 ∧ (∀ c ∈ subtag, IsLetter c) ∨
    subtag ∈ [['i'], ['I'], ['x'], ['X']]

/-- One to eight letters or digits. -/
def IsLaterSubtag (subtag : List Char) : Prop :=
  1 ≤ subtag.length ∧ subtag.length ≤ 8 ∧ ∀ c ∈ subtag, IsAlphanumeric c

theorem isLaterSubtag_iff : isLaterSubtag subtag = true ↔ IsLaterSubtag subtag :=
  isShortRun_alphanumeric

/-- A single letter is told apart by its lower case. -/
theorem isPrimarySubtag_singleton :
    isPrimarySubtag [c] = true ↔ [c] ∈ [['i'], ['I'], ['x'], ['X']] := by
  have hlower : ∀ n < 128, (Char.ofNat n).toLower = 'i' ∨ (Char.ofNat n).toLower = 'x' →
      [Char.ofNat n] ∈ [['i'], ['I'], ['x'], ['X']] := by
    decide
  have haccepted : ∀ subtag ∈ [['i'], ['I'], ['x'], ['X']], isPrimarySubtag subtag = true := by
    decide
  refine ⟨fun h => ?_, haccepted [c]⟩
  rw [isPrimarySubtag, Bool.and_eq_true, isShortRun_letter] at h
  obtain ⟨⟨-, -, hletters⟩, hsingle⟩ := h
  have hc : c.toNat < 128 := IsAlphanumeric.toNat_lt (.inl (hletters c List.mem_cons_self))
  have hlength : (utf8Bytes [c]).length = 1 :=
    length_utf8Bytes (List.forall_mem_singleton.mpr hc)
  have hcase := hlower c.toNat hc
  rw [Char.ofNat_toNat] at hcase
  exact hcase (by simpa [hlength] using hsingle)

theorem isPrimarySubtag_iff : isPrimarySubtag subtag = true ↔ IsPrimarySubtag subtag := by
  match subtag with
  | [] => exact iff_of_false (by decide) (by simp [IsPrimarySubtag])
  | [c] =>
    rw [isPrimarySubtag_singleton, IsPrimarySubtag]
    exact ⟨.inr, fun h => h.resolve_left fun h => absurd h.1 (Nat.not_succ_le_self 1)⟩
  | c :: d :: rest =>
    -- Of two letters or more nothing else is asked.
    have hlength : 2 ≤ (c :: d :: rest).length := by simp
    have hnone : c :: d :: rest ∉ [['i'], ['I'], ['x'], ['X']] := by simp
    rw [isPrimarySubtag, Bool.and_eq_true, isShortRun_letter, IsPrimarySubtag]
    constructor
    · rintro ⟨⟨-, hle, hletters⟩, -⟩
      exact .inl ⟨hlength, hle, hletters⟩
    · rintro (⟨-, hle, hletters⟩ | hmem)
      · have hbytes : (utf8Bytes (c :: d :: rest)).length = (c :: d :: rest).length :=
          length_utf8Bytes fun a ha => IsAlphanumeric.toNat_lt (.inl (hletters a ha))
        refine ⟨⟨by omega, hle, hletters⟩, ?_⟩
        rw [hbytes]
        simp
      · exact absurd hmem hnone

instance (subtag : List Char) : Decidable (IsPrimarySubtag subtag) :=
  decidable_of_iff _ isPrimarySubtag_iff

instance (subtag : List Char) : Decidable (IsLaterSubtag subtag) :=
  decidable_of_iff _ isLaterSubtag_iff

/-! ## Tags -/

variable {tag primary : List Char} {later : List (List Char)}

/-- Whether some texts are the subtags of a tag: the tag is made up of them with hyphens
between them, and none of them has a hyphen. -/
structure AreSubtags (tag primary : List Char) (later : List (List Char)) : Prop where
  made : tag = ['-'].intercalate (primary :: later)
  hyphenFree : ∀ subtag ∈ primary :: later, '-' ∉ subtag

/-- Every text has subtags in one way. -/
theorem areSubtags_iff : AreSubtags tag primary later ↔ tag.splitOn '-' = primary :: later := by
  constructor
  · rintro ⟨rfl, hfree⟩
    exact List.splitOn_intercalate '-' hfree (List.cons_ne_nil _ _)
  · intro hsplit
    refine ⟨?_, fun subtag hsubtag hmem => ?_⟩
    · rw [← hsplit, List.intercalate_splitOn]
    · rw [← hsplit] at hsubtag
      exact absurd (eq_false_of_mem_splitOnP hsubtag '-' hmem) (by decide)

theorem exists_areSubtags (tag : List Char) : ∃ primary later, AreSubtags tag primary later := by
  obtain ⟨primary, later, hsplit⟩ :=
    List.exists_cons_of_ne_nil (List.splitOn_ne_nil '-' tag)
  exact ⟨primary, later, areSubtags_iff.mpr hsplit⟩

/-- Which fault is that of some subtags. The primary one decides before the later ones. -/
structure ClassifiesSubtags (primary : List Char) (later : List (List Char))
    (fault? : Option LanguageFault) : Prop where
  primaryTag : fault? = some .primaryTag ↔ ¬IsPrimarySubtag primary
  subsequentTag : fault? = some .subsequentTag ↔
    IsPrimarySubtag primary ∧ ∃ subtag ∈ later, ¬IsLaterSubtag subtag
  accepted : fault? = none ↔
    IsPrimarySubtag primary ∧ ∀ subtag ∈ later, IsLaterSubtag subtag

/-- Which fault is that of a tag: the tag has subtags, and it is their fault. -/
structure ClassifiesTag (tag : List Char) (fault? : Option LanguageFault) : Prop where
  subtags : ∃ primary later, AreSubtags tag primary later
  classifies : ∀ primary later, AreSubtags tag primary later →
    ClassifiesSubtags primary later fault?

section Faults

variable (h : AreSubtags tag primary later)

include h

theorem AreSubtags.languageFault?_of_not_primary (hprimary : ¬IsPrimarySubtag primary) :
    languageFault? tag = some .primaryTag := by
  rw [← isPrimarySubtag_iff, Bool.not_eq_true] at hprimary
  simp [languageFault?, areSubtags_iff.mp h, hprimary]

theorem AreSubtags.languageFault?_of_not_later (hprimary : IsPrimarySubtag primary)
    {subtag : List Char} (hmem : subtag ∈ later) (hlater : ¬IsLaterSubtag subtag) :
    languageFault? tag = some .subsequentTag := by
  have hall : later.all isLaterSubtag = false := by
    rw [← isLaterSubtag_iff, Bool.not_eq_true] at hlater
    exact List.all_eq_false.mpr ⟨subtag, hmem, by simp [hlater]⟩
  simp [languageFault?, areSubtags_iff.mp h, isPrimarySubtag_iff.mpr hprimary, hall]

theorem AreSubtags.languageFault?_eq_none (hprimary : IsPrimarySubtag primary)
    (hlater : ∀ subtag ∈ later, IsLaterSubtag subtag) : languageFault? tag = none := by
  have hall : later.all isLaterSubtag = true :=
    List.all_eq_true.mpr fun subtag hmem => isLaterSubtag_iff.mpr (hlater subtag hmem)
  simp [languageFault?, areSubtags_iff.mp h, isPrimarySubtag_iff.mpr hprimary, hall]

/-- The fault of a tag is that of its subtags. -/
theorem AreSubtags.classifies : ClassifiesSubtags primary later (languageFault? tag) := by
  by_cases hprimary : IsPrimarySubtag primary
  · by_cases hlater : ∃ subtag ∈ later, ¬IsLaterSubtag subtag
    · obtain ⟨subtag, hmem, hfault⟩ := hlater
      rw [h.languageFault?_of_not_later hprimary hmem hfault]
      exact ⟨iff_of_false nofun (not_not_intro hprimary),
        iff_of_true rfl ⟨hprimary, subtag, hmem, hfault⟩,
        iff_of_false nofun fun hall => hfault (hall.2 subtag hmem)⟩
    · have hall : ∀ subtag ∈ later, IsLaterSubtag subtag := by simpa using hlater
      rw [h.languageFault?_eq_none hprimary hall]
      exact ⟨iff_of_false nofun (not_not_intro hprimary), iff_of_false nofun fun h => hlater h.2,
        iff_of_true rfl ⟨hprimary, hall⟩⟩
  · rw [h.languageFault?_of_not_primary hprimary]
    exact ⟨iff_of_true rfl hprimary, iff_of_false nofun fun h => hprimary h.1,
      iff_of_false nofun fun h => hprimary h.1⟩

end Faults

theorem classifiesTag_languageFault? (tag : List Char) :
    ClassifiesTag tag (languageFault? tag) :=
  ⟨exists_areSubtags tag, fun _ _ h => h.classifies⟩

/-! ## The type of language tags -/

/-- What the type of language tags makes of a collapsed text of some fault: the text as a
string, or the fault. -/
def languageOutcome (text : String) : Option LanguageFault → Except Error TypedValue
  | some fault => .error (.invalid (.lexical (.language fault) text))
  | none => .ok (.atomic ⟨.string text, Builtin.language.handle, .string⟩)

variable {limits : Limits} {bindings? : Option Bindings} {text : String}

/-- The type of language tags looks for the fault in the collapsed text. -/
theorem Graph.WellFormed.validate_language {graph : Graph} (wf : graph.WellFormed)
    (hlength : text.length ≤ limits.lexicalLength) :
    graph.validate limits bindings? Builtin.language.handle text
      = languageOutcome (String.ofList (collapseBlanks text.toList))
          (languageFault? (collapseBlanks text.toList)) := by
  rw [validate_eq_readValue hlength, wf.readValue_eq (wf.builtins .language)]
  show TypedValue.atomic <$> readAtom limits bindings? _ Builtin.language.simpleType .string text
    = _
  have hnormalized : normalizeText Builtin.language.simpleType.facets.whiteSpace text
      = String.ofList (collapseBlanks text.toList) := rfl
  have hrule : Builtin.language.simpleType.rule = .language := rfl
  rw [readAtom, hnormalized, hrule, readAtomic, readString, String.toList_ofList]
  cases languageFault? (collapseBlanks text.toList) <;> rfl

namespace Builder

/-- Tags are told apart by their subtags. In the graph of every run, a text within the limit is
a language tag of the type of language tags if its words, with single spaces between them, are
one, and is refused for the fault of that tag if not. -/
theorem run_validate_language (steps : List Step)
    (hlength : text.length ≤ limits.lexicalLength) :
    (∀ tag, ClassifiesTag tag (languageFault? tag)) ∧
    ∃ fault?, ClassifiesTag ([' '].intercalate (words text.toList)) fault? ∧
      (start.run steps).graph.validate limits bindings? Builtin.language.handle text
        = languageOutcome (String.ofList ([' '].intercalate (words text.toList))) fault? := by
  refine ⟨classifiesTag_languageFault?, _, classifiesTag_languageFault? _, ?_⟩
  rw [← collapseBlanks_eq]
  exact (run_wellFormed steps).validate_language hlength

/-- A single letter before the hyphen is enough if it is the right one, in either case. A letter
beyond ASCII behind the hyphen is a fault of the later subtag, although it is one character. -/
theorem run_validate_language_accents :
    (start.run []).graph.validate .standard none Builtin.language.handle " I-klingon\t"
      = .ok (.atomic ⟨.string "I-klingon", Builtin.language.handle, .string⟩) ∧
    (start.run []).graph.validate .standard none Builtin.language.handle "zh-é"
      = .error (.invalid (.lexical (.language .subsequentTag) "zh-é")) := by
  constructor
  · obtain ⟨-, fault?, hclass, hvalidate⟩ :=
      @run_validate_language .standard none " I-klingon\t" [] (by decide +kernel)
    have hwords : [' '].intercalate (words " I-klingon\t".toList) = "I-klingon".toList := by
      decide +kernel
    rw [hwords] at hclass hvalidate
    have hsubtags : AreSubtags "I-klingon".toList ['I'] ["klingon".toList] :=
      ⟨by decide, by decide⟩
    have hnone : fault? = none :=
      (hclass.classifies _ _ hsubtags).accepted.mpr ⟨by decide, by decide⟩
    rw [hvalidate, hnone, languageOutcome, String.ofList_toList]
  · obtain ⟨-, fault?, hclass, hvalidate⟩ :=
      @run_validate_language .standard none "zh-é" [] (by decide +kernel)
    have hwords : [' '].intercalate (words "zh-é".toList) = "zh-é".toList := by
      decide +kernel
    rw [hwords] at hclass hvalidate
    have hsubtags : AreSubtags "zh-é".toList ['z', 'h'] [['é']] :=
      ⟨by decide, by decide⟩
    have hfault : fault? = some .subsequentTag :=
      (hclass.classifies _ _ hsubtags).subsequentTag.mpr ⟨by decide, by decide⟩
    rw [hvalidate, hfault, languageOutcome, String.ofList_toList]

end Builder

end SimpleTypes
