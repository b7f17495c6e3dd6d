import SimpleTypes.Lexical

/-!
# Words and blanks

How the three white space modes act on a text and on its words.

* `words_append_cons`: a blank separates the words before it from those after
  it. What is said here about words follows from this.
* `areRuns_iff`: the words are the longest runs without blanks.
* `collapseBlanks_eq`: to collapse blanks is to write the words with single
  spaces between them.
* `normalizeText_idem` and `words_normalizeText`: a mode changes a text only once
  and never changes its words.
* `isNormalized_replaceBlanks` and `isToken_collapseBlanks`: each mode makes texts
  of the form that is named after it.
-/

namespace SimpleTypes

/-! ## Words -/

/-- Whether a text has no blanks. -/
def BlankFree (text : List Char) : Prop := ∀ c ∈ text, isBlank c = false

instance (text : List Char) : Decidable (BlankFree text) :=
  List.decidableBAll (isBlank · = false) text

/-- Whether a text is one word. -/
def IsWord (text : List Char) : Prop := text ≠ [] ∧ BlankFree text

instance (text : List Char) : Decidable (IsWord text) :=
  inferInstanceAs (Decidable (text ≠ [] ∧ BlankFree text))

variable {text word : List Char} {c : Char}

theorem isWord_singleton (h : isBlank c = false) : IsWord [c] := by
  refine ⟨by simp, ?_⟩
  intro d hd
  obtain rfl : d = c := by simpa using hd
  exact h

theorem words_nil : words [] = [] := rfl

/-- A blank separates the words before it from those after it. -/
theorem words_append_cons (h : isBlank c = true) (before after : List Char) :
    words (before ++ c :: after) = words before ++ words after := by
  rw [words, List.splitOnP_append_cons before after h, List.filter_append]
  rfl

theorem words_cons (h : isBlank c = true) (rest : List Char) : words (c :: rest) = words rest :=
  words_append_cons h [] rest

theorem words_eq_singleton (h : IsWord word) : words word = [word] := by
  rw [words, List.splitOnP_eq_singleton h.2]
  simp [h.1]

theorem words_ne_nil (h : isBlank c = false) (rest : List Char) : words (c :: rest) ≠ [] := by
  rw [words, List.splitOnP_cons_eq_if_modifyHead, h]
  obtain ⟨first, others, hsplit⟩ :=
    List.exists_cons_of_ne_nil (List.splitOnP_ne_nil isBlank rest)
  simp [hsplit]

/-- The pieces of a list have nothing at which it was split. -/
theorem eq_false_of_mem_splitOnP {α : Type} {p : α → Bool} {whole piece : List α}
    (h : piece ∈ whole.splitOnP p) : ∀ a ∈ piece, p a = false := by
  induction whole generalizing piece with
  | nil =>
    obtain rfl : piece = [] := by simpa using h
    intro a ha
    cases ha
  | cons b rest ih =>
    rw [List.splitOnP_cons_eq_if_modifyHead] at h
    obtain ⟨first, others, hsplit⟩ := List.exists_cons_of_ne_nil (List.splitOnP_ne_nil p rest)
    rw [hsplit] at h ih
    split at h
    case isTrue =>
      rcases List.mem_cons.mp h with rfl | hmem
      · intro a ha
        cases ha
      · exact ih hmem
    case isFalse hb =>
      rcases List.mem_cons.mp h with rfl | hmem
      · intro a ha
        rcases List.mem_cons.mp ha with rfl | ha
        · exact Bool.eq_false_iff.mpr hb
        · exact ih List.mem_cons_self a ha
      · exact ih (List.mem_cons_of_mem _ hmem)

/-- The pieces between blanks have no blanks. -/
theorem blankFree_of_mem_splitOnP (h : word ∈ text.splitOnP isBlank) : BlankFree word :=
  eq_false_of_mem_splitOnP h

theorem isWord_of_mem_words (h : word ∈ words text) : IsWord word := by
  obtain ⟨hmem, hne⟩ := List.mem_filter.mp h
  exact ⟨by simpa using hne, blankFree_of_mem_splitOnP hmem⟩

/-- Words with single spaces between them are found again. -/
theorem words_intercalate {pieces : List (List Char)} (h : ∀ piece ∈ pieces, IsWord piece) :
    words ([' '].intercalate pieces) = pieces := by
  induction pieces with
  | nil => rfl
  | cons piece rest ih =>
    obtain ⟨hpiece, hrest⟩ := List.forall_mem_cons.mp h
    cases rest with
    | nil =>
      rw [List.intercalate_singleton]
      exact words_eq_singleton hpiece
    | cons next rest =>
      rw [List.intercalate_cons_cons, List.append_assoc, List.singleton_append,
        words_append_cons (by rfl), words_eq_singleton hpiece, ih hrest]
      rfl

theorem isBlank_of_isDigit (h : c.isDigit = true) : isBlank c = false := by
  cases hblank : isBlank c with
  | false => rfl
  | true =>
    simp only [isBlank, Bool.or_eq_true, beq_iff_eq] at hblank
    rcases hblank with ((rfl | rfl) | rfl) | rfl <;> exact absurd h (by decide)

theorem BlankFree.append {before after : List Char} (h : BlankFree before) (h' : BlankFree after) :
    BlankFree (before ++ after) := by
  intro c hc
  rcases List.mem_append.mp hc with hmem | hmem
  · exact h c hmem
  · exact h' c hmem

theorem BlankFree.cons {rest : List Char} (hc : isBlank c = false) (h : BlankFree rest) :
    BlankFree (c :: rest) :=
  List.forall_mem_cons.mpr ⟨hc, h⟩

theorem blankFree_nil : BlankFree [] := by
  intro c hc
  cases hc

theorem blankFree_of_isDigit {digits : List Char} (h : ∀ c ∈ digits, c.isDigit = true) :
    BlankFree digits := by
  intro c hc
  exact isBlank_of_isDigit (h c hc)

/-! ## Runs -/

/-- Whether some lists of characters are the longest runs without blanks in a text, in the
order of the text. A run ends at a blank or at the end of the text. -/
inductive AreRuns : List Char → List (List Char) → Prop
  | nil : AreRuns [] []
  | blank {c : Char} {rest : List Char} {runs : List (List Char)} :
      isBlank c = true → AreRuns rest runs → AreRuns (c :: rest) runs
  | run {word rest : List Char} {runs : List (List Char)} :
      IsWord word → (∀ c ∈ rest.head?, isBlank c = true) → AreRuns rest runs →
      AreRuns (word ++ rest) (word :: runs)

theorem AreRuns.words_eq {runs : List (List Char)} (h : AreRuns text runs) :
    words text = runs := by
  induction h with
  | nil => rfl
  | blank hc _ ih => rw [words_cons hc, ih]
  | @run word rest runs hword hend _ ih =>
    cases rest with
    | nil =>
      rw [List.append_nil, words_eq_singleton hword, ← ih, words_nil]
    | cons c rest =>
      have hc : isBlank c = true := hend c rfl
      rw [words_append_cons hc, words_eq_singleton hword, ← words_cons hc, ih]
      rfl

/-- A character that is no blank makes the first run longer, or is a run of its own. -/
theorem exists_areRuns (text : List Char) : ∃ runs, AreRuns text runs := by
  induction text with
  | nil => exact ⟨[], .nil⟩
  | cons c rest ih =>
    obtain ⟨runs, hruns⟩ := ih
    cases hc : isBlank c with
    | true => exact ⟨runs, .blank hc hruns⟩
    | false =>
      cases hruns with
      | nil =>
        have hruns : AreRuns ([c] ++ []) [[c]] := .run (isWord_singleton hc) nofun .nil
        exact ⟨[[c]], hruns⟩
      | @blank d rest _ hd hruns =>
        refine ⟨[c] :: runs, .run (isWord_singleton hc) ?_ (.blank hd hruns)⟩
        rintro _ ⟨⟩
        exact hd
      | @run word rest runs hword hend hruns =>
        exact ⟨(c :: word) :: runs, .run ⟨by simp, hword.2.cons hc⟩ hend hruns⟩

/-- The words of a text are its longest runs without blanks. -/
theorem areRuns_iff {runs : List (List Char)} : AreRuns text runs ↔ words text = runs := by
  refine ⟨AreRuns.words_eq, ?_⟩
  rintro rfl
  obtain ⟨runs, hruns⟩ := exists_areRuns text
  rwa [hruns.words_eq]

theorem AreRuns.length_le {runs : List (List Char)} (h : AreRuns text runs) (hword : word ∈ runs) :
    word.length ≤ text.length := by
  induction h with
  | nil => cases hword
  | blank _ _ ih => exact Nat.le_succ_of_le (ih hword)
  | run _ _ _ ih =>
    rw [List.length_append]
    rcases List.mem_cons.mp hword with rfl | hmem
    · exact Nat.le_add_right _ _
    · exact Nat.le_add_left_of_le (ih hmem)

/-! ## Collapsing -/

/-- What stands after a word. The induction is on the rest of the text, and the
word grows until a blank ends it. -/
theorem collapseRest_eq (hword : IsWord word) (text : List Char) :
    word ++ collapseRest false text = [' '].intercalate (words (word ++ text)) ∧
      word ++ collapseRest true text = [' '].intercalate (word :: words text) := by
  induction text generalizing word with
  | nil =>
    rw [List.append_nil, words_eq_singleton hword, words_nil]
    simp [collapseRest]
  | cons c rest ih =>
    by_cases hc : isBlank c = true
    · -- A blank ends the word, and further blanks change nothing.
      have hgap := (ih hword).2
      rw [words_append_cons hc, words_eq_singleton hword, words_cons hc]
      simp only [collapseRest, hc, if_true]
      exact ⟨hgap, hgap⟩
    · have hc' : isBlank c = false := Bool.eq_false_iff.mpr hc
      -- Another character makes the word longer, or begins the next word after a gap.
      have hgrown : IsWord (word ++ [c]) := by
        refine ⟨by simp, ?_⟩
        intro d hd
        rcases List.mem_append.mp hd with hmem | hmem
        · exact hword.2 d hmem
        · obtain rfl : d = c := by simpa using hmem
          exact hc'
      constructor
      · have := (ih hgrown).1
        simpa [collapseRest, hc'] using this
      · have := (ih (isWord_singleton hc')).1
        rw [List.intercalate_cons_of_ne_nil (words_ne_nil hc' rest)]
        simp only [List.singleton_append] at this
        simp [collapseRest, hc', ← this]

/-- To collapse blanks is to write the words with single spaces between them. -/
theorem collapseBlanks_eq (text : List Char) :
    collapseBlanks text = [' '].intercalate (words text) := by
  induction text with
  | nil => rfl
  | cons c rest ih =>
    simp only [collapseBlanks]
    split
    case isTrue hc => rw [ih, words_cons hc]
    case isFalse hc =>
      exact (collapseRest_eq (isWord_singleton (Bool.eq_false_iff.mpr hc)) rest).1

theorem words_collapseBlanks (text : List Char) : words (collapseBlanks text) = words text := by
  rw [collapseBlanks_eq]
  exact words_intercalate fun _ => isWord_of_mem_words

theorem isDigit_of_isBlank (h : isBlank c = true) : c.isDigit = false := by
  cases hdigit : c.isDigit with
  | false => rfl
  | true =>
    rw [isBlank_of_isDigit hdigit] at h
    cases h

theorem countP_isDigit_collapseRest (gap : Bool) (text : List Char) :
    (collapseRest gap text).countP Char.isDigit = text.countP Char.isDigit := by
  have hspace : ' '.isDigit = false := by decide
  induction text generalizing gap with
  | nil => rfl
  | cons c rest ih =>
    cases hblank : isBlank c with
    | true => simp [collapseRest, hblank, ih, isDigit_of_isBlank hblank]
    | false => cases gap <;> simp [collapseRest, hblank, List.countP_cons, ih, hspace]

/-- To collapse blanks loses no digit. -/
theorem countP_isDigit_collapseBlanks (text : List Char) :
    (collapseBlanks text).countP Char.isDigit = text.countP Char.isDigit := by
  induction text with
  | nil => rfl
  | cons c rest ih =>
    cases hblank : isBlank c with
    | true => simp [collapseBlanks, hblank, ih, isDigit_of_isBlank hblank]
    | false =>
      simp [collapseBlanks, hblank, List.countP_cons, countP_isDigit_collapseRest]

theorem collapseBlanks_of_blankFree (h : BlankFree text) : collapseBlanks text = text := by
  rw [collapseBlanks_eq]
  cases text with
  | nil => rfl
  | cons c rest => rw [words_eq_singleton ⟨by simp, h⟩, List.intercalate_singleton]

/-! ## Replacing -/

theorem replaceBlanks_of_blankFree (h : BlankFree text) : replaceBlanks text = text := by
  unfold replaceBlanks
  refine (List.map_congr_left ?_).trans (List.map_id text)
  intro c hc
  simp [h c hc]

theorem replaceBlanks_idem (text : List Char) :
    replaceBlanks (replaceBlanks text) = replaceBlanks text := by
  unfold replaceBlanks
  rw [List.map_map]
  refine List.map_congr_left ?_
  intro c _
  by_cases hc : isBlank c = true
  · simp [hc]
  · simp [hc]

theorem splitOnP_replaceBlanks (text : List Char) :
    (replaceBlanks text).splitOnP isBlank = text.splitOnP isBlank := by
  induction text with
  | nil => rfl
  | cons c rest ih =>
    have hcons : replaceBlanks (c :: rest) = (if isBlank c then ' ' else c) :: replaceBlanks rest :=
      rfl
    rw [hcons, List.splitOnP_cons_eq_if_modifyHead, List.splitOnP_cons_eq_if_modifyHead, ih]
    by_cases hc : isBlank c = true
    · rw [if_pos hc, if_pos hc, if_pos (by rfl)]
    · rw [if_neg hc, if_neg hc]

theorem words_replaceBlanks (text : List Char) : words (replaceBlanks text) = words text := by
  rw [words, splitOnP_replaceBlanks]
  rfl

/-! ## Modes -/

theorem words_apply (mode : WhiteSpace) (text : List Char) : words (mode.apply text) = words text := by
  cases mode with
  | preserve => rfl
  | replace => exact words_replaceBlanks text
  | collapse => exact words_collapseBlanks text

theorem apply_idem (mode : WhiteSpace) (text : List Char) :
    mode.apply (mode.apply text) = mode.apply text := by
  cases mode with
  | preserve => rfl
  | replace => exact replaceBlanks_idem text
  | collapse =>
    change collapseBlanks (collapseBlanks text) = collapseBlanks text
    rw [collapseBlanks_eq, words_collapseBlanks, ← collapseBlanks_eq]

theorem apply_of_blankFree (mode : WhiteSpace) (h : BlankFree text) : mode.apply text = text := by
  cases mode with
  | preserve => rfl
  | replace => exact replaceBlanks_of_blankFree h
  | collapse => exact collapseBlanks_of_blankFree h

/-- A mode, or its absence, changes no words. -/
theorem words_normalizeText (mode : Option WhiteSpace) (text : String) :
    words (normalizeText mode text).toList = words text.toList := by
  cases mode with
  | none => rfl
  | some mode =>
    rw [normalizeText, WhiteSpace.normalize, String.toList_ofList]
    exact words_apply mode text.toList

/-- A text that was changed once is not changed again. -/
theorem normalizeText_idem (mode : Option WhiteSpace) (text : String) :
    normalizeText mode (normalizeText mode text) = normalizeText mode text := by
  cases mode with
  | none => rfl
  | some mode =>
    simp only [normalizeText, WhiteSpace.normalize, String.toList_ofList]
    rw [apply_idem]

theorem normalizeText_of_blankFree (mode : Option WhiteSpace) {text : String}
    (h : BlankFree text.toList) : normalizeText mode text = text := by
  cases mode with
  | none => rfl
  | some mode =>
    rw [normalizeText, WhiteSpace.normalize, apply_of_blankFree mode h, String.ofList_toList]

/-! ## Forms -/

theorem isNormalized_iff : isNormalized text = true ↔ ∀ c ∈ text, isBlank c = true → c = ' ' := by
  simp [isNormalized]

theorem isNormalized_replaceBlanks (text : List Char) : isNormalized (replaceBlanks text) = true := by
  rw [isNormalized_iff]
  intro c hc hblank
  obtain ⟨d, -, rfl⟩ := List.mem_map.mp hc
  by_cases hd : isBlank d = true
  · rw [if_pos hd]
  · rw [if_neg hd] at hblank
    exact absurd hblank hd

theorem isToken_iff : isToken text = true ↔ isNormalized text = true ∧ text.head? ≠ some ' ' ∧
    text.getLast? ≠ some ' ' ∧ hasDoubleSpace text = false := by
  simp [isToken, and_assoc]

theorem BlankFree.ne_space (h : BlankFree word) (hc : c ∈ word) : c ≠ ' ' := by
  rintro rfl
  exact absurd (h ' ' hc) (by decide)

theorem hasDoubleSpace_cons (hc : c ≠ ' ' ∨ text.head? ≠ some ' ') :
    hasDoubleSpace (c :: text) = hasDoubleSpace text := by
  cases text with
  | nil => rfl
  | cons d rest =>
    rw [hasDoubleSpace]
    rcases hc with hc | hd
    · simp [hc]
    · have hd' : d ≠ ' ' := by simpa using hd
      simp [hd']

/-- Characters that are no blanks add no double space to the text after them. -/
theorem hasDoubleSpace_append (hword : BlankFree word) (text : List Char) :
    hasDoubleSpace (word ++ text) = hasDoubleSpace text := by
  induction word with
  | nil => rfl
  | cons c rest ih =>
    have hc : c ≠ ' ' := hword.ne_space List.mem_cons_self
    rw [List.cons_append, hasDoubleSpace_cons (.inl hc)]
    exact ih (List.forall_mem_cons.mp hword).2

theorem isToken_of_isWord (h : IsWord word) : isToken word = true := by
  refine isToken_iff.mpr ⟨isNormalized_iff.mpr ?_, ?_, ?_, ?_⟩
  · intro c hc hblank
    rw [h.2 c hc] at hblank
    cases hblank
  · intro hhead
    exact h.2.ne_space (List.mem_of_mem_head? hhead) rfl
  · intro hlast
    exact h.2.ne_space (List.mem_of_mem_getLast? hlast) rfl
  · have := hasDoubleSpace_append h.2 []
    rwa [List.append_nil] at this

/-- A word and a space may stand before a token. -/
theorem isToken_append (h : IsWord word) (htext : isToken text = true) (hne : text ≠ []) :
    isToken (word ++ ' ' :: text) = true := by
  obtain ⟨hnormalized, hhead, hlast, hdouble⟩ := isToken_iff.mp htext
  obtain ⟨hnormalized', hhead', -, -⟩ := isToken_iff.mp (isToken_of_isWord h)
  refine isToken_iff.mpr ⟨isNormalized_iff.mpr ?_, ?_, ?_, ?_⟩
  · intro c hc hblank
    rcases List.mem_append.mp hc with hword | hrest
    · exact isNormalized_iff.mp hnormalized' c hword hblank
    · rcases List.mem_cons.mp hrest with rfl | hmem
      · rfl
      · exact isNormalized_iff.mp hnormalized c hmem hblank
  · rwa [List.head?_append, Option.or_of_isSome (List.isSome_head?.mpr h.1)]
  · rwa [List.getLast?_append, List.getLast?_cons_of_ne_nil hne,
      Option.or_of_isSome (List.getLast?_isSome.mpr hne)]
  · rw [hasDoubleSpace_append h.2, hasDoubleSpace_cons (.inr hhead), hdouble]

/-- Words with single spaces between them are a token. -/
theorem isToken_intercalate {pieces : List (List Char)} (h : ∀ piece ∈ pieces, IsWord piece) :
    isToken ([' '].intercalate pieces) = true := by
  induction pieces with
  | nil => rfl
  | cons piece rest ih =>
    obtain ⟨hpiece, hrest⟩ := List.forall_mem_cons.mp h
    cases rest with
    | nil =>
      rw [List.intercalate_singleton]
      exact isToken_of_isWord hpiece
    | cons next rest =>
      have hne : [' '].intercalate (next :: rest) ≠ [] := by
        intro hnil
        have hwords := words_intercalate hrest
        rw [hnil] at hwords
        cases hwords
      rw [List.intercalate_cons_cons, List.append_assoc, List.singleton_append]
      exact isToken_append hpiece (ih hrest) hne

theorem isToken_collapseBlanks (text : List Char) : isToken (collapseBlanks text) = true := by
  rw [collapseBlanks_eq]
  exact isToken_intercalate fun _ => isWord_of_mem_words

end SimpleTypes
