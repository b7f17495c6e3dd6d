import SimpleTypes.Proofs.Text.Words

/-!
# White space modes one after the other

A text may pass several modes on its way, those of a type and of its base among them. Two
modes have the effect of the stronger one, in whichever order they come.

* `collapseBlanks_replaceBlanks` and `replaceBlanks_collapseBlanks`: the two pairs of
  different modes that change texts.
* `flatten_words`: the words hold what is no blank, in its order.
* `WhiteSpace.normalize_composes`: how modes compose, and what the strongest one writes.
-/

namespace SimpleTypes

variable {text : List Char} {c : Char}

/-! ## Blanks -/

/-- There are four blanks. -/
theorem isBlank_iff : isBlank c = true ↔ c = ' ' ∨ c = '\t' ∨ c = '\n' ∨ c = '\r' := by
  simp only [isBlank, Bool.or_eq_true, beq_iff_eq, or_assoc]

/-- Where spaces are the only blanks there is nothing to replace. -/
theorem replaceBlanks_of_isNormalized (h : isNormalized text = true) :
    replaceBlanks text = text := by
  unfold replaceBlanks
  refine (List.map_congr_left ?_).trans (List.map_id text)
  intro c hc
  show (if isBlank c then ' ' else c) = c
  split
  · next hblank => exact (isNormalized_iff.mp h c hc hblank).symm
  · rfl

/-- The words do not depend on which blanks stand between them. -/
theorem collapseBlanks_replaceBlanks (text : List Char) :
    collapseBlanks (replaceBlanks text) = collapseBlanks text := by
  rw [collapseBlanks_eq, words_replaceBlanks, ← collapseBlanks_eq]

/-- A collapsed text has no blanks but spaces. -/
theorem replaceBlanks_collapseBlanks (text : List Char) :
    replaceBlanks (collapseBlanks text) = collapseBlanks text :=
  replaceBlanks_of_isNormalized (isToken_iff.mp (isToken_collapseBlanks text)).1

/-! ## Other characters -/

/-- The characters of the runs are those of the text that are no blanks, in their order. -/
theorem AreRuns.flatten_eq {runs : List (List Char)} (h : AreRuns text runs) :
    runs.flatten = text.filter (! isBlank ·) := by
  induction h with
  | nil => rfl
  | @blank c rest runs hc _ ih => rw [ih, List.filter_cons_of_neg (by simp [hc])]
  | @run word rest runs hword _ _ ih =>
    have hkept : word.filter (! isBlank ·) = word :=
      List.filter_eq_self.mpr fun c hc => by simp [hword.2 c hc]
    rw [List.flatten_cons, List.filter_append, ih, hkept]

/-- The words hold what is no blank, in its order. -/
theorem flatten_words (text : List Char) : (words text).flatten = text.filter (! isBlank ·) :=
  (areRuns_iff.mpr rfl).flatten_eq

/-- To collapse blanks keeps all other characters in their order. -/
theorem filter_collapseBlanks (text : List Char) :
    (collapseBlanks text).filter (! isBlank ·) = text.filter (! isBlank ·) := by
  rw [← flatten_words, words_collapseBlanks, flatten_words]

/-! ## Modes -/

namespace WhiteSpace

/-- Two modes one after the other act as the stronger of them. -/
theorem apply_apply (first second : WhiteSpace) (text : List Char) :
    second.apply (first.apply text) = (first.max second).apply text := by
  cases first with
  | preserve => cases second <;> rfl
  | replace =>
    cases second with
    | preserve => rfl
    | replace => exact replaceBlanks_idem text
    | collapse => exact collapseBlanks_replaceBlanks text
  | collapse =>
    cases second with
    | preserve => rfl
    | replace => exact replaceBlanks_collapseBlanks text
    | collapse => exact apply_idem .collapse text

theorem normalize_apply (first second : WhiteSpace) (text : String) :
    second.normalize (first.normalize text) = (first.max second).normalize text := by
  unfold normalize
  rw [String.toList_ofList, apply_apply]

theorem max_self (mode : WhiteSpace) : mode.max mode = mode := by
  cases mode <;> rfl

/-- Two modes one after the other act as the stronger of them, and a mode that is repeated
acts once. The strongest mode writes the longest runs of characters other than space, tab,
line feed and carriage return, with single spaces between them, so that it keeps all these
characters in their order. -/
theorem normalize_composes (text : String) :
    (∀ first second : WhiteSpace,
      second.normalize (first.normalize text) = (first.max second).normalize text) ∧
    (∀ mode : WhiteSpace, mode.normalize (mode.normalize text) = mode.normalize text) ∧
    (∀ c, isBlank c = true ↔ c = ' ' ∨ c = '\t' ∨ c = '\n' ∨ c = '\r') ∧
    (∃ runs, (∀ others, AreRuns text.toList others ↔ others = runs) ∧
      (collapse.normalize text).toList = [' '].intercalate runs) ∧
    (collapse.normalize text).toList.filter (! isBlank ·) = text.toList.filter (! isBlank ·) := by
  have hcollapse : (collapse.normalize text).toList = collapseBlanks text.toList :=
    String.toList_ofList
  refine ⟨(normalize_apply · · text), ?_, fun _ => isBlank_iff, ⟨words text.toList, ?_, ?_⟩, ?_⟩
  · intro mode
    rw [normalize_apply, max_self]
  · intro others
    rw [areRuns_iff, eq_comm]
  · rw [hcollapse, collapseBlanks_eq]
  · rw [hcollapse, filter_collapseBlanks]

/-- A space that does not break lines is no blank. -/
example : collapse.normalize " a\t\n\u00A0 b\r" = "a \u00A0 b" := by decide +kernel

end WhiteSpace

end SimpleTypes
