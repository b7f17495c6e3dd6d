import SimpleTypes.Proofs.Name.Resolution

/-!
# How the name grammars lie within each other

A local name is a name, and so is a qualified name, since a colon is a name character like any
other. A name is a name token, and it takes only the first character to tell the two apart.

* `isName_iff`, `isNmtoken_iff`, `isNCName_iff`: the productions, in terms of characters.
* `isQName_iff`: a qualified name is a local name, or two of them around a colon. There is no
  other place to split it than its first colon.
* `exists_bindings_readQName`: every qualified name is read under some bindings.
* `nestsNames`: all of this at one text.
-/

namespace SimpleTypes

variable {text before after : List Char} {c : Char}

/-! ## Productions -/

theorem isNameChar_of_isNameStart (h : isNameStart c = true) : isNameChar c = true := by
  rw [isNameChar, h, Bool.true_or]

/-- A colon can begin a name, so it can stand anywhere in one. -/
theorem isNameChar_colon : isNameChar ':' = true := by decide

theorem isName_iff : isName text = true ↔
    ∃ first rest, text = first :: rest ∧ isNameStart first = true ∧
      ∀ c ∈ rest, isNameChar c = true := by
  cases text with
  | nil => simp [isName]
  | cons first rest => simp [isName]

theorem isNmtoken_iff : isNmtoken text = true ↔ text ≠ [] ∧ ∀ c ∈ text, isNameChar c = true := by
  simp [isNmtoken]

/-- A local name is a name without a colon. -/
theorem isNCName_iff : isNCName text = true ↔ ':' ∉ text ∧ isName text = true := by
  simp [isNCName]

/-! ## Names and tokens -/

theorem isName_of_isNCName (h : isNCName text = true) : isName text = true :=
  (isNCName_iff.mp h).2

theorem isNmtoken_of_isName (h : isName text = true) : isNmtoken text = true := by
  obtain ⟨first, rest, rfl, hfirst, hrest⟩ := isName_iff.mp h
  refine isNmtoken_iff.mpr ⟨List.cons_ne_nil first rest, ?_⟩
  exact List.forall_mem_cons.mpr ⟨isNameChar_of_isNameStart hfirst, hrest⟩

/-- Only the first character can keep a token from being a name. -/
theorem isName_iff_of_isNmtoken (h : isNmtoken text = true) :
    isName text = true ↔ ∃ first, text.head? = some first ∧ isNameStart first = true := by
  obtain ⟨hne, hchars⟩ := isNmtoken_iff.mp h
  obtain ⟨first, rest, rfl⟩ := List.exists_cons_of_ne_nil hne
  constructor
  · intro hname
    obtain ⟨_, _, ⟨⟩, hfirst, -⟩ := isName_iff.mp hname
    exact ⟨first, rfl, hfirst⟩
  · rintro ⟨_, ⟨⟩, hfirst⟩
    exact isName_iff.mpr ⟨first, rest, rfl, hfirst, (List.forall_mem_cons.mp hchars).2⟩

/-- A name goes on with any name characters. -/
theorem isName_append (h : isName before = true) (hafter : ∀ c ∈ after, isNameChar c = true) :
    isName (before ++ after) = true := by
  obtain ⟨first, rest, rfl, hfirst, hrest⟩ := isName_iff.mp h
  exact isName_iff.mpr ⟨first, rest ++ after, rfl, hfirst,
    List.forall_mem_append.mpr ⟨hrest, hafter⟩⟩

/-! ## Qualified names -/

theorem isQName_of_isNCName (h : isNCName text = true) : isQName text = true := by
  rw [isQName, splitAtColon_of_notMem (notMem_of_isNCName h)]
  exact h

theorem isQName_append (hbefore : isNCName before = true) (hafter : isNCName after = true) :
    isQName (before ++ ':' :: after) = true := by
  rw [isQName, splitAtColon_append (notMem_of_isNCName hbefore)]
  exact Bool.and_eq_true_iff.mpr ⟨hbefore, hafter⟩

/-- A qualified name is a local name, or two local names with a colon between them. Neither of
the two has a colon, so a text has at most one such form. -/
theorem isQName_iff : isQName text = true ↔ isNCName text = true ∨
    ∃ before after, isNCName before = true ∧ isNCName after = true ∧
      text = before ++ ':' :: after := by
  constructor
  · intro h
    rw [isQName] at h
    split at h
    · next before after hsplit =>
      obtain ⟨hbefore, hafter⟩ := Bool.and_eq_true_iff.mp h
      exact .inr ⟨before, after, hbefore, hafter, (append_of_splitAtColon_some hsplit).symm⟩
    · next whole hsplit =>
      rw [eq_of_splitAtColon_none hsplit] at h
      exact .inl h
  · rintro (h | ⟨before, after, hbefore, hafter, rfl⟩)
    · exact isQName_of_isNCName h
    · exact isQName_append hbefore hafter

/-- A name may have two colons, but not a qualified name. -/
example : isName "a:b:c".toList = true ∧ isQName "a:b:c".toList = false := by decide

theorem isName_of_isQName (h : isQName text = true) : isName text = true := by
  rcases isQName_iff.mp h with hlocal | ⟨before, after, hbefore, hafter, rfl⟩
  · exact isName_of_isNCName hlocal
  · have htoken := isNmtoken_of_isName (isName_of_isNCName hafter)
    exact isName_append (isName_of_isNCName hbefore)
      (List.forall_mem_cons.mpr ⟨isNameChar_colon, (isNmtoken_iff.mp htoken).2⟩)

/-- A text that is a qualified name is read as one under some bindings: a prefix other than
`xml` has to be bound. -/
theorem exists_bindings_readQName {text : String} (h : isQName text.toList = true) :
    ∃ bindings? name, readQName text bindings? = .ok name := by
  rcases isQName_iff.mp h with hlocal | ⟨before, after, hbefore, hafter, htext⟩
  · exact ⟨none, ⟨none, text, none⟩, readQName_eq_ok.mpr ⟨.plain hlocal, .noBindings⟩⟩
  · have hqualified : IsQualified text (some (String.ofList before)) (String.ofList after) := by
      rw [isQualified_iff, htext, splitAtColon_append (notMem_of_isNCName hbefore)]
      refine ⟨isQName_append hbefore hafter, ?_⟩
      simp only [Option.map_some, String.toList_ofList]
    by_cases hxml : String.ofList before = "xml"
    · rw [hxml] at hqualified
      exact ⟨some .empty, ⟨some xmlNamespace, _, _⟩, readQName_eq_ok.mpr ⟨hqualified, .xml _⟩⟩
    · exact ⟨some (Bindings.empty.bind 0 (String.ofList before) "urn:a"), ⟨some "urn:a", _, _⟩,
        readQName_eq_ok.mpr ⟨hqualified, .bound hxml (by decide) ⟨[], [], rfl, nofun⟩⟩⟩

/-! ## All grammars at one text -/

/-- How the name grammars lie within each other at one text, how the text is split, and what
is read of it. -/
structure NestsNames (text : String) : Prop where
  qName : isQName text.toList = true ↔ isNCName text.toList = true ∨
    ∃ before after, isNCName before = true ∧ isNCName after = true ∧
      text.toList = before ++ ':' :: after
  splitLocal : isNCName text.toList = true → splitAtColon text.toList = (none, text.toList)
  splitPrefixed : ∀ before after, isNCName before = true → isNCName after = true →
    text.toList = before ++ ':' :: after → splitAtColon text.toList = (some before, after)
  isRead : isQName text.toList = true ↔ ∃ bindings? name, readQName text bindings? = .ok name
  printed : ∀ bindings? name, readQName text bindings? = .ok name → name.text = text
  parts : ∀ bindings? name, readQName text bindings? = .ok name →
    splitAtColon text.toList = (name.prefixPart.map String.toList, name.localPart.toList)
  ncName : isNCName text.toList = true → isName text.toList = true ∧ isQName text.toList = true
  qName_name : isQName text.toList = true → isName text.toList = true
  name_nmtoken : isName text.toList = true → isNmtoken text.toList = true
  nmtoken_name : isNmtoken text.toList = true → (isName text.toList = true ↔
    ∃ first, text.toList.head? = some first ∧ isNameStart first = true)

/-- The name grammars lie within each other at every text. -/
theorem nestsNames (text : String) : NestsNames text where
  qName := isQName_iff
  splitLocal h := splitAtColon_of_notMem (notMem_of_isNCName h)
  splitPrefixed before after hbefore _ htext := by
    rw [htext]
    exact splitAtColon_append (notMem_of_isNCName hbefore) after
  isRead := by
    refine ⟨exists_bindings_readQName, ?_⟩
    rintro ⟨bindings?, name, hread⟩
    exact (isQualified_iff.mp (readQName_eq_ok.mp hread).1).1
  printed _ _ := text_of_readQName
  parts _ _ hread := (isQualified_iff.mp (readQName_eq_ok.mp hread).1).2
  ncName h := ⟨isName_of_isNCName h, isQName_of_isNCName h⟩
  qName_name := isName_of_isQName
  name_nmtoken := isNmtoken_of_isName
  nmtoken_name := isName_iff_of_isNmtoken

end SimpleTypes
