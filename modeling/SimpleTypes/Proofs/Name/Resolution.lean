import SimpleTypes.Proofs.Outcome
import SimpleTypes.Proofs.Value.Canonical

/-!
# Prefixes and namespaces

What a snapshot of bindings says about a name, in terms of the bindings in it and not of the
search for one.

* `BindsLast`: the latest binding of a name is to a namespace. A look-up finds it, unless the
  namespace is empty (`lookup?_eq_some`).
* `ResolvesTo` and `IsUnresolved`: where a name with a prefix, or without one, lies, and which
  prefixes lie nowhere (`resolve_eq_ok`, `IsUnresolved.resolve_eq_error`).
* `IsQualified`: a text as a prefix, or none, and a local part.
* `readQName_eq_ok` and `readQName_eq_error`: what is read of a text, and what is refused.
-/

namespace SimpleTypes

variable {bindings : Bindings} {bindings? : Option Bindings} {name prefixPart : Option String}
  {uri before localPart text : String} {uri? : Option String}

/-! ## Bindings -/

/-- Whether the latest binding of a name is to a namespace. The bindings are given with the
latest one first, and the absent name is that of the default namespace. -/
def BindsLast (pairs : List (Option String × String)) (name : Option String) (uri : String) :
    Prop :=
  ∃ later earlier, pairs = later ++ (name, uri) :: earlier ∧ ∀ pair ∈ later, pair.1 ≠ name

namespace Bindings

/-- The bindings of a snapshot, the latest first. -/
def pairs (bindings : Bindings) : List (Option String × String) :=
  bindings.frames.map fun frame => (frame.name, frame.uri)

/-- A look-up finds the latest binding of a name, unless it is to the empty namespace. -/
theorem lookup?_eq_some :
    bindings.lookup? name = some uri ↔ uri ≠ "" ∧ BindsLast bindings.pairs name uri := by
  unfold lookup?
  constructor
  · intro h
    split at h
    · next frame hfind =>
      obtain ⟨hname, later, earlier, hframes, hlater⟩ := List.find?_eq_some_iff_append.mp hfind
      split at h
      · cases h
      · next hne =>
        obtain rfl := Option.some.inj h
        refine ⟨by simpa using hne, later.map fun frame => (frame.name, frame.uri),
          earlier.map fun frame => (frame.name, frame.uri), ?_, ?_⟩
        · rw [pairs, hframes, List.map_append, List.map_cons, beq_iff_eq.mp hname]
        · simpa using hlater
    · cases h
  · rintro ⟨hne, later, earlier, hpairs, hlater⟩
    obtain ⟨later', rest, hframes, rfl, hrest⟩ := List.map_eq_append_iff.mp hpairs
    obtain ⟨frame, earlier', rfl, hframe, -⟩ := List.map_eq_cons_iff.mp hrest
    obtain ⟨rfl, rfl⟩ := Prod.mk.inj hframe
    have hfind : bindings.frames.find? (fun other => other.name == frame.name) = some frame := by
      refine List.find?_eq_some_iff_append.mpr ⟨beq_self_eq_true _, later', earlier', hframes, ?_⟩
      simpa using hlater
    rw [hfind]
    exact if_neg (by simpa using hne)

theorem lookup?_eq_none :
    bindings.lookup? name = none ↔ ∀ uri, BindsLast bindings.pairs name uri → uri = "" := by
  rw [Option.eq_none_iff_forall_ne_some]
  refine forall_congr' fun uri => ?_
  rw [Ne, lookup?_eq_some, not_and', not_not]

end Bindings

/-! ## Resolution -/

/-- Where a name lies that has a prefix or none, under some bindings or under none. The prefix
`xml` is bound for good, and without a prefix a name lies in the default namespace. -/
inductive ResolvesTo : Option String → Option Bindings → Option String → Prop
  | xml (bindings : Bindings) : ResolvesTo (some "xml") (some bindings) (some xmlNamespace)
  | bound {before uri : String} {bindings : Bindings} :
      before ≠ "xml" → uri ≠ "" → BindsLast bindings.pairs (some before) uri →
      ResolvesTo (some before) (some bindings) (some uri)
  | default {uri : String} {bindings : Bindings} :
      uri ≠ "" → BindsLast bindings.pairs none uri → ResolvesTo none (some bindings) (some uri)
  | noDefault {bindings : Bindings} :
      (∀ uri, BindsLast bindings.pairs none uri → uri = "") → ResolvesTo none (some bindings) none
  | noBindings : ResolvesTo none none none

/-- Whether a prefix lies nowhere: it is not bound, or its latest binding is to the empty
namespace, or there are no bindings at all. -/
inductive IsUnresolved : String → Option Bindings → Prop
  | unbound {before : String} {bindings : Bindings} :
      before ≠ "xml" → (∀ uri, BindsLast bindings.pairs (some before) uri → uri = "") →
      IsUnresolved before (some bindings)
  | noBindings (before : String) : IsUnresolved before none

theorem Bindings.namespace?_eq_some :
    bindings.namespace? before = some uri ↔
      ResolvesTo (some before) (some bindings) (some uri) := by
  unfold namespace?
  split
  · next hxml =>
    obtain rfl := beq_iff_eq.mp hxml
    constructor
    · rintro ⟨⟩
      exact .xml bindings
    · rintro (_ | ⟨hne, _, _⟩)
      · rfl
      · exact absurd rfl hne
  · next hxml =>
    have hne : before ≠ "xml" := by simpa using hxml
    rw [lookup?_eq_some]
    constructor
    · rintro ⟨huri, hlast⟩
      exact .bound hne huri hlast
    · rintro (_ | ⟨_, huri, hlast⟩)
      · exact absurd rfl hne
      · exact ⟨huri, hlast⟩

theorem Bindings.default?_eq : ResolvesTo none (some bindings) bindings.default? := by
  cases h : bindings.default? with
  | none => exact .noDefault (lookup?_eq_none.mp h)
  | some uri => exact .default (lookup?_eq_some.mp h).1 (lookup?_eq_some.mp h).2

theorem ResolvesTo.default?_eq (h : ResolvesTo none (some bindings) uri?) :
    bindings.default? = uri? := by
  cases h with
  | default huri hlast => exact Bindings.lookup?_eq_some.mpr ⟨huri, hlast⟩
  | noDefault hnone => exact Bindings.lookup?_eq_none.mpr hnone

/-- A name is resolved to where it lies. -/
theorem resolve_eq_ok :
    resolve prefixPart bindings? = .ok uri? ↔ ResolvesTo prefixPart bindings? uri? := by
  unfold resolve
  split
  · next before bindings =>
    split
    · next uri hbound =>
      rw [Bindings.namespace?_eq_some] at hbound
      constructor
      · rintro ⟨⟩
        exact hbound
      · intro h
        obtain ⟨other, rfl⟩ : ∃ other, uri? = some other := by cases h <;> exact ⟨_, rfl⟩
        rw [← Bindings.namespace?_eq_some] at hbound h
        exact congrArg Except.ok (hbound.symm.trans h)
    · next hunbound =>
      refine iff_of_false nofun fun h => ?_
      obtain ⟨other, rfl⟩ : ∃ other, uri? = some other := by cases h <;> exact ⟨_, rfl⟩
      rw [Bindings.namespace?_eq_some.mpr h] at hunbound
      cases hunbound
  · exact iff_of_false nofun nofun
  · next bindings =>
    constructor
    · rintro ⟨⟩
      exact Bindings.default?_eq
    · intro h
      exact congrArg Except.ok h.default?_eq
  · constructor
    · rintro ⟨⟩
      exact .noBindings
    · rintro ⟨⟩
      rfl

/-- A prefix that lies nowhere is refused. -/
theorem IsUnresolved.resolve_eq_error (h : IsUnresolved before bindings?) :
    ∃ cause, resolve (some before) bindings? = .error cause ∧ cause.kind = .lexical .qName := by
  cases h with
  | @unbound bindings hne hnone =>
    have hunbound : bindings.namespace? before = none := by
      unfold Bindings.namespace?
      rw [if_neg (by simpa using hne)]
      exact Bindings.lookup?_eq_none.mpr hnone
    refine ⟨.unboundPrefix before, ?_, rfl⟩
    unfold resolve
    simp only [hunbound]
  | noBindings => exact ⟨.noBindings before, rfl, rfl⟩

/-! ## Qualified names -/

/-- Whether a text is a local part that has a prefix with a colon before it, or has none. -/
inductive IsQualified : String → Option String → String → Prop
  | plain {localPart : String} :
      isNCName localPart.toList = true → IsQualified localPart none localPart
  | prefixed {before localPart : String} :
      isNCName before.toList = true → isNCName localPart.toList = true →
      IsQualified (before ++ ":" ++ localPart) (some before) localPart

theorem notMem_of_isNCName {text : List Char} (h : isNCName text = true) : ':' ∉ text := by
  unfold isNCName at h
  intro hmem
  simp [hmem] at h

theorem splitAtColon_of_notMem {text : List Char} (h : ':' ∉ text) :
    splitAtColon text = (none, text) := by
  have hdrop : text.dropWhile (· != ':') = [] := by
    rw [List.dropWhile_eq_nil_iff]
    intro c hc
    exact bne_iff_ne.mpr (ne_of_mem_of_not_mem hc h)
  unfold splitAtColon
  rw [hdrop]

theorem splitAtColon_append {before : List Char} (h : ':' ∉ before) (after : List Char) :
    splitAtColon (before ++ ':' :: after) = (some before, after) := by
  have hbefore : ∀ c ∈ before, (c != ':') = true := fun c hc =>
    bne_iff_ne.mpr (ne_of_mem_of_not_mem hc h)
  unfold splitAtColon
  rw [List.dropWhile_append_of_pos hbefore, List.takeWhile_append_of_pos hbefore]
  simp

/-- A text is a qualified name if it falls into such parts at its first colon. -/
theorem isQualified_iff : IsQualified text prefixPart localPart ↔
    isQName text.toList = true ∧
      splitAtColon text.toList = (prefixPart.map String.toList, localPart.toList) := by
  unfold isQName
  constructor
  · rintro (hlocal | ⟨hbefore, hlocal⟩)
    · rw [splitAtColon_of_notMem (notMem_of_isNCName hlocal)]
      exact ⟨hlocal, rfl⟩
    · next before =>
      have hsplit : splitAtColon (before ++ ":" ++ localPart).toList
          = (some before.toList, localPart.toList) := by
        rw [String.toList_append, String.toList_append, List.append_assoc]
        exact splitAtColon_append (notMem_of_isNCName hbefore) localPart.toList
      rw [hsplit]
      exact ⟨Bool.and_eq_true_iff.mpr ⟨hbefore, hlocal⟩, rfl⟩
  · rintro ⟨hname, hsplit⟩
    rw [hsplit] at hname
    cases prefixPart with
    | none =>
      obtain rfl : localPart = text := String.toList_inj.mp (eq_of_splitAtColon_none hsplit)
      exact .plain hname
    | some before =>
      obtain ⟨hbefore, hlocal⟩ := Bool.and_eq_true_iff.mp hname
      have htext : before ++ ":" ++ localPart = text := by
        rw [← String.toList_inj, String.toList_append, String.toList_append, List.append_assoc]
        exact append_of_splitAtColon_some hsplit
      exact htext ▸ .prefixed hbefore hlocal

/-- A text is read as the qualified name that it is, where that lies. -/
theorem readQName_eq_ok {value : QNameValue} : readQName text bindings? = .ok value ↔
    IsQualified text value.prefixPart value.localPart ∧
      ResolvesTo value.prefixPart bindings? value.uri := by
  rw [isQualified_iff, ← resolve_eq_ok]
  unfold readQName
  obtain ⟨before, after⟩ := splitAtColon text.toList
  cases hname : isQName text.toList with
  | false => exact iff_of_false nofun fun h => nomatch h.1.1
  | true =>
    have hparts (prefixPart : Option String) :
        (prefixPart.map String.toList).map String.ofList = prefixPart := by
      simp
    constructor
    · intro h
      obtain ⟨uri?, hresolve, ⟨⟩⟩ := bind_eq_ok.mp h
      refine ⟨⟨rfl, ?_⟩, hresolve⟩
      simp
    · rintro ⟨⟨-, hsplit⟩, hresolve⟩
      obtain ⟨rfl, rfl⟩ := Prod.mk.inj hsplit
      refine bind_eq_ok.mpr ⟨value.uri, ?_, ?_⟩
      · rw [hparts, hresolve]
      · rw [hparts, String.ofList_toList]
        rfl

/-- A name whose prefix lies nowhere is refused. -/
theorem readQName_eq_error (h : IsQualified text (some before) localPart)
    (hunresolved : IsUnresolved before bindings?) :
    ∃ cause, readQName text bindings? = .error cause ∧ cause.kind = .lexical .qName := by
  obtain ⟨hname, hsplit⟩ := isQualified_iff.mp h
  obtain ⟨cause, hcause, hkind⟩ := hunresolved.resolve_eq_error
  refine ⟨cause, ?_, hkind⟩
  unfold readQName
  rw [hsplit, hname]
  simp only [Option.map_some, String.ofList_toList, hcause]
  rfl

end SimpleTypes
