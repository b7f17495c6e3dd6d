import SimpleTypes.Proofs.Facet.Checks
import SimpleTypes.Proofs.Number.Decimal
import SimpleTypes.Proofs.Number.FloatingText
import SimpleTypes.Proofs.Octets.Hex
import SimpleTypes.Proofs.Time.Instant
import SimpleTypes.Proofs.Time.RoundTrip
import SimpleTypes.Proofs.Value.Order

/-!
# Canonical texts of values

The canonical text of a value is read as the same value. Only a decimal forgets
something: how many zeros stood at the end of its first text. Durations are left
out.

* `trimmed`: the value as it is read from its canonical text. Nothing that a
  facet or a comparison looks at tells it from the value.
* `ReadsBack`: what is asked of a value and of its canonical text.
* `readsBack_of_readAtomic`: every value that was read has it, primitive type by
  primitive type.
-/

namespace SimpleTypes

/-! ## Trimmed values -/

/-- The value as it is read from its canonical text. -/
def Native.trimmed : Native → Native
  | .decimal value => .decimal value.trimmed
  | native => native

/-- The atom as it is read from its canonical text. -/
def Atom.trimmed (a : Atom) : Atom := { a with native := a.native.trimmed }

/-- The typed value as it is read from its canonical text. -/
def TypedValue.trimmed : TypedValue → TypedValue
  | .atomic a => .atomic a.trimmed
  | .list a => .list { a with items := a.items.map Atom.trimmed }

theorem Native.canonical_trimmed (primitive : Primitive) (native : Native) :
    native.trimmed.canonical primitive = native.canonical primitive := by
  cases native <;> rfl

theorem Native.valueEq_trimmed (a b : Native) : a.valueEq b.trimmed = a.valueEq b := by
  cases a <;> cases b <;> rfl

theorem Native.trimmed_valueEq (a b : Native) : a.trimmed.valueEq b = a.valueEq b := by
  cases a <;> cases b <;> rfl

theorem Native.order?_trimmed (a b : Native) : a.trimmed.order? b = a.order? b := by
  cases a <;> cases b <;> rfl

namespace Atom

theorem canonical_trimmed (a : Atom) : a.trimmed.canonical = a.canonical :=
  Native.canonical_trimmed a.primitive a.native

theorem valueEq_trimmed (a b : Atom) : a.valueEq b.trimmed = a.valueEq b := by
  simp only [valueEq, trimmed, Native.valueEq_trimmed]

theorem trimmed_valueEq (a b : Atom) : a.trimmed.valueEq b = a.valueEq b := by
  simp only [valueEq, trimmed, Native.trimmed_valueEq]

theorem length?_trimmed (a : Atom) : a.trimmed.length? = a.length? := by
  obtain ⟨native, type, primitive⟩ := a
  cases native <;> rfl

theorem decimal?_trimmed (a : Atom) : a.trimmed.decimal? = a.decimal?.map Decimal.trimmed := by
  obtain ⟨native, type, primitive⟩ := a
  cases native <;> rfl

theorem admits_trimmed (bound : Bound) (a : Atom) : bound.admits a.trimmed = bound.admits a := by
  simp only [Bound.admits, order?, trimmed, Native.order?_trimmed]

end Atom

namespace TypedValue

theorem canonical_trimmed (v : TypedValue) : v.trimmed.canonical = v.canonical := by
  cases v with
  | atomic a => exact a.canonical_trimmed
  | list a =>
    simp only [trimmed, canonical, ListValue.canonical, List.map_map]
    exact congrArg (String.intercalate " ") (List.map_congr_left fun a _ => a.canonical_trimmed)

theorem valueEq_trimmed (v w : TypedValue) : v.valueEq w.trimmed = v.valueEq w := by
  cases v with
  | atomic a =>
    cases w with
    | atomic b => exact a.valueEq_trimmed b
    | list b => rfl
  | list a =>
    cases w with
    | atomic b => rfl
    | list b =>
      simp only [trimmed, valueEq, ListValue.valueEq, List.length_map, List.zip_map_right,
        List.all_map]
      refine congrArg (_ && ·) (List.all_congr rfl ?_)
      intro pair
      exact pair.1.valueEq_trimmed pair.2

theorem trimmed_valueEq (v w : TypedValue) : v.trimmed.valueEq w = v.valueEq w := by
  cases v with
  | atomic a =>
    cases w with
    | atomic b => exact a.trimmed_valueEq b
    | list b => rfl
  | list a =>
    cases w with
    | atomic b => rfl
    | list b =>
      simp only [trimmed, valueEq, ListValue.valueEq, List.length_map, List.zip_map_left,
        List.all_map]
      refine congrArg (_ && ·) (List.all_congr rfl ?_)
      intro pair
      exact pair.1.trimmed_valueEq pair.2

end TypedValue

namespace FacetSet

variable {facets : FacetSet}

/-- No facet of atoms tells an atom from the trimmed one. -/
theorem checkAtom_trimmed {a : Atom} (h : facets.checkAtom a = .ok ()) :
    facets.checkAtom a.trimmed = .ok () := by
  obtain ⟨hlength, hdigits, hbounds⟩ := checkAtom_eq_ok.mp h
  refine checkAtom_eq_ok.mpr ⟨?_, ?_, ?_⟩
  · rw [a.length?_trimmed]
    exact hlength
  · intro trimmed htrimmed
    rw [a.decimal?_trimmed] at htrimmed
    obtain ⟨decimal, hdecimal, rfl⟩ := Option.map_eq_some_iff.mp htrimmed
    exact hdigits decimal hdecimal
  · intro kind bound hbound
    rw [Atom.admits_trimmed]
    exact hbounds kind bound hbound

theorem checkEnumeration_trimmed {v : TypedValue} (h : facets.checkEnumeration v = .ok ()) :
    facets.checkEnumeration v.trimmed = .ok () := by
  refine checkEnumeration_eq_ok.mpr ?_
  intro allowed hallowed
  obtain ⟨one, hmem, heq⟩ := checkEnumeration_eq_ok.mp h allowed hallowed
  exact ⟨one, hmem, by rw [TypedValue.valueEq_trimmed, heq]⟩

end FacetSet

/-! ## Equality with itself -/

theorem Decimal.valueEq_self (a : Decimal) : a.valueEq a = true := by
  have horder : order a a = .eq := Std.ReflCmp.compare_self
  rw [valueEq, horder]
  rfl

namespace Floating

theorem valueEq_of_order? {a b : Floating} (h : order? a b = some .eq) : a.valueEq b = true := by
  cases a <;> cases b
  case nan.nan => rfl
  all_goals exact beq_iff_eq.mpr h

/-- Not a number is equal to itself, too. -/
theorem valueEq_self (a : Floating) : a.valueEq a = true := by
  cases a with
  | nan => rfl
  | number => exact valueEq_of_order? (congrArg some Std.ReflCmp.compare_self)

end Floating

namespace Moment

variable {moment : Moment} {kind : TemporalKind}

/-- A moment that was read can be brought to UTC. -/
theorem IsRead.utc?_eq_some (h : moment.IsRead kind) : ∃ fields, moment.utc? = some fields := by
  obtain rfl := h.kind
  obtain ⟨fields, zone⟩ := moment
  cases fields with
  | dateTime date clock =>
    obtain ⟨date, clock, hutc, -⟩ := utc?_dateTime h
    exact ⟨_, hutc⟩
  | time clock =>
    obtain ⟨clock, hutc, -⟩ := utc?_time h
    exact ⟨_, hutc⟩
  | _ => cases zone <;> exact ⟨_, rfl⟩

theorem IsRead.valueEq_self (h : moment.IsRead kind) : moment.valueEq moment = true := by
  obtain ⟨fields, hfields⟩ := h.utc?_eq_some
  simp [valueEq, order?, hfields, fieldsOrder?_eq, Std.ReflCmp.compare_self]

end Moment

/-- A list is equal to itself if its items are. -/
theorem ListValue.valueEq_self {list : ListValue}
    (h : ∀ atom ∈ list.items, atom.valueEq atom = true) : list.valueEq list = true := by
  rw [valueEq_iff, List.forall₂_same]
  exact h

/-! ## Texts that stay -/

theorem eq_of_readString {rule : LexicalRule} {text result : String}
    (h : readString rule text = .ok result) : result = text := by
  unfold readString at h
  split at h
  case h_1 | h_2 => simpa using h.symm
  case h_5 =>
    split at h
    · cases h
    · simpa using h.symm
  all_goals exact (accept_eq_ok.mp h).2.symm

theorem eq_of_readAnyUri {text result : String} (h : readAnyUri text = .ok result) :
    result = text :=
  (accept_eq_ok.mp h).2.symm

theorem eq_of_splitAtColon_none {text whole : List Char}
    (h : splitAtColon text = (none, whole)) : whole = text := by
  unfold splitAtColon at h
  split at h
  · simpa using h.symm
  · cases h

/-- The parts of a name around its first colon make up the name. -/
theorem append_of_splitAtColon_some {text before after : List Char}
    (h : splitAtColon text = (some before, after)) : before ++ ':' :: after = text := by
  unfold splitAtColon at h
  split at h
  case h_1 => cases h
  case h_2 c rest hdrop =>
    obtain ⟨rfl, rfl⟩ := by simpa using h
    have hc := List.head?_dropWhile_not (· != ':') text
    simp only [hdrop, List.head?_cons, bne_eq_false_iff_eq] at hc
    rw [← hc, ← hdrop, hc]
    exact List.takeWhile_append_dropWhile

/-- A qualified name is written as it was read. -/
theorem text_of_readQName {text : String} {bindings? : Option Bindings} {name : QNameValue}
    (h : readQName text bindings? = .ok name) : name.text = text := by
  unfold readQName at h
  split at h
  next before after hsplit =>
  split at h
  case isTrue => cases h
  case isFalse =>
    obtain ⟨uri, -, ⟨⟩⟩ := bind_eq_ok.mp h
    cases before with
    | none =>
      rw [eq_of_splitAtColon_none hsplit]
      exact String.ofList_toList
    | some before =>
      rw [← String.toList_inj]
      simp only [QNameValue.text, Option.map_some, String.toList_append, String.toList_ofList]
      exact (List.append_assoc _ _ _).trans (append_of_splitAtColon_some hsplit)

/-! ## Reading canonical texts -/

/-- Whether a canonical text is the text that was read, or at least has no
blanks and keeps a word a word. -/
def KeepsWords (text canonical : String) : Prop :=
  canonical = text ∨
    BlankFree canonical.toList ∧ (IsWord text.toList → IsWord canonical.toList)

/-- What holds of a native value that was read from a text: it equals itself, and
its canonical text is read as the trimmed value, unless a limit prevents it. -/
structure ReadsBack (primitive : Primitive) (rule : LexicalRule) (text : String)
    (bindings? : Option Bindings) (limits : Limits) (native : Native) : Prop where
  gives : Gives (readAtomic primitive rule (native.canonical primitive) bindings? limits)
    native.trimmed
  keepsWords : KeepsWords text (native.canonical primitive)
  valueEq_self : native.valueEq native = true

variable {primitive : Primitive} {rule : LexicalRule} {text : String}
  {bindings? : Option Bindings} {limits : Limits} {native : Native}

/-- A value that is written as it was read is read again. -/
theorem readsBack_of_canonical_eq (h : readAtomic primitive rule text bindings? limits = .ok native)
    (htext : native.canonical primitive = text) (htrimmed : native.trimmed = native)
    (heq : native.valueEq native = true) :
    ReadsBack primitive rule text bindings? limits native := by
  refine ⟨.inr ?_, .inl htext, heq⟩
  rw [htext, htrimmed]
  exact h

theorem keepsWords_ofList {written : List Char} (hfree : BlankFree written)
    (hword : IsWord text.toList → IsWord written) : KeepsWords text (String.ofList written) := by
  refine .inr ?_
  rw [String.toList_ofList]
  exact ⟨hfree, hword⟩

theorem readsBack_decimal (h : readAtomic .decimal rule text bindings? limits = .ok native) :
    ReadsBack .decimal rule text bindings? limits native := by
  obtain ⟨value, hread, rfl⟩ := map_eq_ok.mp h
  obtain ⟨-, hinteger, hparse⟩ := readDecimal_eq_ok.mp hread
  have hproper := Decimal.parse?_isProper hparse
  have hword := hproper.isWord_canonical
  refine ⟨.map (gives_readDecimal ?_ ?_) Native.decimal,
    keepsWords_ofList hword.2 fun _ => hword, value.valueEq_self⟩
  · intro hrule
    -- An integer was read, so an integer is written.
    rw [Native.canonical, String.toList_ofList]
    exact hproper.isIntegerNumeral_canonical
      (Decimal.fraction_of_isIntegerNumeral (hinteger hrule) hparse)
  · rw [Native.canonical, String.toList_ofList]
    exact hproper.parse?_canonical

/-- What is written for a value of a binary format is a word that is read as the value. -/
theorem gives_floating_canonical {format : Format} {form : LexicalForm} {value : Floating}
    (hrange : format.IsInRange)
    (h : orInvalid form text (Floating.parse? format text.toList) = .ok value) :
    Gives (Error.ofInvalid (orInvalid form (String.ofList (value.canonical format))
        (Floating.parse? format (String.ofList (value.canonical format)).toList))) value ∧
      KeepsWords text (String.ofList (value.canonical format)) := by
  have hof := Floating.isOf_of_parse? (orInvalid_eq_ok.mp h)
  have hword := Floating.isWord_canonical hrange hof
  refine ⟨gives_ofInvalid (orInvalid_eq_ok.mpr ?_), keepsWords_ofList hword.2 fun _ => hword⟩
  rw [String.toList_ofList]
  exact Floating.parse?_canonical hrange hof

theorem readsBack_float (h : readAtomic .float rule text bindings? limits = .ok native) :
    ReadsBack .float rule text bindings? limits native := by
  obtain ⟨value, hread, rfl⟩ := map_eq_ok.mp h
  obtain ⟨hgives, hkeeps⟩ :=
    gives_floating_canonical Format.isInRange_single (Error.ofInvalid_eq_ok.mp hread)
  exact ⟨hgives.map _, hkeeps, value.valueEq_self⟩

theorem readsBack_double (h : readAtomic .double rule text bindings? limits = .ok native) :
    ReadsBack .double rule text bindings? limits native := by
  obtain ⟨value, hread, rfl⟩ := map_eq_ok.mp h
  obtain ⟨hgives, hkeeps⟩ :=
    gives_floating_canonical Format.isInRange_double (Error.ofInvalid_eq_ok.mp hread)
  exact ⟨hgives.map _, hkeeps, value.valueEq_self⟩

theorem readsBack_moment {kind : TemporalKind}
    (h : readAtomic (.temporal kind) rule text bindings? limits = .ok native) :
    ReadsBack (.temporal kind) rule text bindings? limits native := by
  obtain ⟨moment, hread, rfl⟩ := map_eq_ok.mp h
  have hmoment := Moment.readAtomic_isRead h
  have hword := hmoment.isWord_canonical
  refine ⟨.map (gives_readTemporal ?_ limits) _,
    keepsWords_ofList hword.2 fun _ => hword, hmoment.valueEq_self⟩
  rw [Native.canonical, String.toList_ofList]
  exact hmoment.parse?_canonical

theorem readsBack_hexBinary (h : readAtomic .hexBinary rule text bindings? limits = .ok native) :
    ReadsBack .hexBinary rule text bindings? limits native := by
  obtain ⟨octets, hread, rfl⟩ := map_eq_ok.mp h
  have hdecode := mapError_eq_ok.mp (Error.ofInvalid_eq_ok.mp hread)
  have htext : (Native.octets octets).canonical .hexBinary = String.ofList (Hex.encode octets) := rfl
  refine ⟨.map (gives_ofInvalid (mapError_eq_ok.mpr ?_)) _, ?_, beq_self_eq_true octets⟩
  · rw [htext, String.toList_ofList]
    exact Hex.decode_encode octets
  · rw [htext]
    exact keepsWords_ofList (Hex.blankFree_encode octets) fun hword =>
      Hex.isWord_encode hword hdecode

theorem readsBack_base64Binary
    (h : readAtomic .base64Binary rule text bindings? limits = .ok native) :
    ReadsBack .base64Binary rule text bindings? limits native := by
  obtain ⟨octets, hread, rfl⟩ := map_eq_ok.mp h
  have hdecode := mapError_eq_ok.mp (Error.ofInvalid_eq_ok.mp hread)
  have htext : (Native.octets octets).canonical .base64Binary
      = String.ofList (Base64.encode octets) := rfl
  refine ⟨.map (gives_ofInvalid (mapError_eq_ok.mpr ?_)) _, ?_, beq_self_eq_true octets⟩
  · rw [htext, String.toList_ofList]
    exact Base64.decode_encode octets
  · rw [htext]
    exact keepsWords_ofList (Base64.blankFree_encode octets) fun hword =>
      Base64.isWord_encode hword hdecode

/-- The shorter names of the two truth values are written in full. -/
theorem readsBack_boolean (h : readAtomic .boolean rule text bindings? limits = .ok native) :
    ReadsBack .boolean rule text bindings? limits native := by
  obtain ⟨value, -, rfl⟩ := map_eq_ok.mp h
  cases value with
  | true =>
    have hword : IsWord "true".toList := by decide
    exact ⟨.inr rfl, .inr ⟨hword.2, fun _ => hword⟩, rfl⟩
  | false =>
    have hword : IsWord "false".toList := by decide
    exact ⟨.inr rfl, .inr ⟨hword.2, fun _ => hword⟩, rfl⟩

theorem QNameValue.valueEq_self (name : QNameValue) : name.valueEq name = true := by
  simp [valueEq]

/-- A native value that was read is read again from its canonical text. -/
theorem readsBack_of_readAtomic (hprimitive : primitive ≠ .duration)
    (h : readAtomic primitive rule text bindings? limits = .ok native) :
    ReadsBack primitive rule text bindings? limits native := by
  cases primitive with
  | string =>
    obtain ⟨result, hread, rfl⟩ := map_eq_ok.mp h
    exact readsBack_of_canonical_eq h (eq_of_readString (Error.ofInvalid_eq_ok.mp hread)) rfl
      (beq_self_eq_true result)
  | boolean => exact readsBack_boolean h
  | decimal => exact readsBack_decimal h
  | float => exact readsBack_float h
  | double => exact readsBack_double h
  | duration => exact absurd rfl hprimitive
  | temporal kind => exact readsBack_moment h
  | hexBinary => exact readsBack_hexBinary h
  | base64Binary => exact readsBack_base64Binary h
  | anyUri =>
    obtain ⟨result, hread, rfl⟩ := map_eq_ok.mp h
    exact readsBack_of_canonical_eq h (eq_of_readAnyUri (Error.ofInvalid_eq_ok.mp hread)) rfl
      (beq_self_eq_true result)
  | qName | notationName =>
    obtain ⟨name, hread, rfl⟩ := map_eq_ok.mp h
    exact readsBack_of_canonical_eq h (text_of_readQName (Error.ofInvalid_eq_ok.mp hread)) rfl
      name.valueEq_self

end SimpleTypes
