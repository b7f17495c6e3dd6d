import SimpleTypes.Proofs.Schema.References

/-!
# Walks along references

Reading a text, looking for a list and looking for an ancestor go along the
references of a graph. Here each walk is also given as one step that follows
every reference it meets, and the two are compared.

* `unfold_eq`: a recursion whose calls go down the handles ends after as many
  calls within calls as the handle says.
* `WellFormed.readStep_eq`, `WellFormed.containsListStep_eq` and
  `WellFormed.derivesFromStep_eq`: in a well-formed graph the steps are those of
  the walks.
* `failsWith_readValue` and `WellFormed.derivesFrom_induction`: the errors of a reading come
  from atomic types, and what is kept from base to type is kept along all bases.
* `WellFormed.member_induction`: what is kept from the members of a union to the union
  holds of every simple type if it holds of those that are no unions.
* `WellFormed.judged_readValue`: a simple type judges every text.
-/

namespace SimpleTypes

/-! ## Recursion -/

/-- A recursion given by its step, with calls within calls up to a depth. Deeper
calls are answered by `stuck`. -/
def unfold {α : Type} (step : (Handle → α) → Handle → α) (stuck : Handle → α) :
    Nat → Handle → α
  | 0 => stuck
  | depth + 1 => step (unfold step stuck depth)

/-- If a step needs the answers for smaller handles only, no call within calls is
deeper than the handle. -/
theorem unfold_eq {α : Type} {step : (Handle → α) → Handle → α} {f stuck : Handle → α}
    (hstep : ∀ self handle, (∀ part : Handle, part.index < handle.index → self part = f part) →
      step self handle = f handle)
    {depth : Nat} {handle : Handle} (h : handle.index < depth) :
    unfold step stuck depth handle = f handle := by
  induction depth generalizing handle with
  | zero => omega
  | succ depth ih => exact hstep _ _ fun part hpart => ih (by omega)

namespace Graph

/-- One step of the walk along the bases. -/
def derivesFromStep (graph : Graph) (ancestor : Handle) (self : Handle → Bool) (handle : Handle) :
    Bool :=
  match graph.simpleType? handle with
  | none => false
  | some type =>
    handle == ancestor ||
      match type.base with
      | none => false
      | some base => self base

/-- One step of the search for a list. -/
def containsListStep (graph : Graph) (self : Handle → Bool) (handle : Handle) : Bool :=
  match graph.simpleType? handle with
  | some { variety := .list _, .. } => true
  | some { variety := .union members, .. } => members.any self
  | _ => false

/-- One step of the reading of a text. -/
def readStep (graph : Graph) (limits : Limits) (bindings? : Option Bindings)
    (self : Handle → String → Except Error TypedValue) (handle : Handle) (text : String) :
    Except Error TypedValue :=
  match graph.requireSimpleType handle with
  | .error cause => .error (.misuse cause)
  | .ok type =>
    match type.variety with
    | .atomic primitive => .atomic <$> readAtom limits bindings? handle type primitive text
    | .list item => .list <$> readList limits type item (self item) text
    | .union members => readUnion type members (fun member => self member text) text

/-- A text that is not too long is read. -/
theorem validate_eq_readValue {graph : Graph} {limits : Limits} {bindings? : Option Bindings}
    {handle : Handle} {text : String} (h : text.length ≤ limits.lexicalLength) :
    graph.validate limits bindings? handle text = graph.readValue limits bindings? handle text := by
  rw [validate, Limits.checkLexicalLength, if_neg (Nat.not_lt.mpr h)]
  rfl

theorem validate_eq_ok {graph : Graph} {limits : Limits} {bindings? : Option Bindings}
    {handle : Handle} {text : String} {value : TypedValue} :
    graph.validate limits bindings? handle text = .ok value ↔
      limits.checkLexicalLength text.length = .ok () ∧
        graph.readValue limits bindings? handle text = .ok value := by
  rw [validate, then_eq_ok, Error.ofLimit_eq_ok]

/-- Only simple types read texts. -/
theorem exists_simpleType_of_readValue {graph : Graph} {limits : Limits}
    {bindings? : Option Bindings} {handle : Handle} {text : String} {value : TypedValue}
    (h : graph.readValue limits bindings? handle text = .ok value) :
    ∃ type, graph.simpleType? handle = some type := by
  rw [readValue] at h
  cases htype : graph.requireSimpleType handle with
  | error cause =>
    rw [htype] at h
    cases h
  | ok type => exact ⟨type, requireSimpleType_eq_ok.mp htype⟩

/-- The errors of a reading are misuses, those that types raise, and those of the grammars
of atomic texts. The induction goes along the handles. -/
theorem failsWith_readValue {graph : Graph} {limits : Limits} {bindings? : Option Bindings}
    {P : Error → Prop} (hmisuse : ∀ cause, P (.misuse cause))
    (hP : ∀ error : Error, error.IsOfTypes → P error)
    (hatomic : ∀ part type primitive text, graph.simpleType? part = some type →
      type.variety = .atomic primitive → FailsWith P (readAtomic primitive type.rule
        (normalizeText type.facets.whiteSpace text) bindings? limits))
    (handle : Handle) (text : String) :
    FailsWith P (graph.readValue limits bindings? handle text) := by
  induction handle using Handle.induction generalizing text with
  | whole handle ih =>
    rw [readValue]
    cases htype : graph.requireSimpleType handle with
    | error cause => exact failsWith_error (hmisuse cause)
    | ok type =>
      have hpart : ∀ (part : Handle) (text : String), FailsWith P
          (if part.index < handle.index then graph.readValue limits bindings? part text
            else .error (.misuse (.absentHandle part))) := by
        intro part text
        split
        case isTrue hbefore => exact ih part hbefore text
        case isFalse => exact failsWith_error (hmisuse _)
      cases hvariety : type.variety with
      | atomic primitive =>
        simp only [hvariety]
        exact (failsWith_readAtom hP
          (hatomic handle type primitive text (requireSimpleType_eq_ok.mp htype) hvariety)).map _
      | list item =>
        simp only [hvariety]
        exact (failsWith_readList hP (hpart item)).map _
      | union members =>
        simp only [hvariety]
        exact failsWith_readUnion hP fun member _ => hpart member text

namespace WellFormed

variable {graph : Graph} {limits : Limits} {bindings? : Option Bindings} {handle ancestor : Handle}
  {type : SimpleType} {text : String}

theorem admitsSimple (wf : graph.WellFormed) (h : graph.simpleType? handle = some type) :
    graph.AdmitsSimple handle type :=
  wf.admits _ _ (simpleType?_eq_some.mp h)

/-- The type of the items stands before the list, and no list stands in it. -/
theorem list_parts (wf : graph.WellFormed) {item : Handle}
    (htype : graph.simpleType? handle = some type) (hvariety : type.variety = .list item) :
    graph.IsSimpleBefore item handle ∧ ¬ReachesList graph item := by
  have hparts := (wf.admitsSimple htype).variety
  rwa [hvariety] at hparts

/-- A union has members, and they stand before it. -/
theorem union_parts (wf : graph.WellFormed) {members : List Handle}
    (htype : graph.simpleType? handle = some type) (hvariety : type.variety = .union members) :
    members ≠ [] ∧ ∀ member ∈ members, graph.IsSimpleBefore member handle := by
  have hparts := (wf.admitsSimple htype).variety
  rwa [hvariety] at hparts

/-- What holds of all types that are no unions and goes from the members of a union to the
union holds of every simple type. The induction goes along the handles. -/
theorem member_induction (wf : graph.WellFormed) {P : Handle → Prop}
    (single : ∀ {handle : Handle} {type : SimpleType}, graph.simpleType? handle = some type →
      (∀ members, type.variety ≠ .union members) → P handle)
    (union : ∀ {handle : Handle} {type : SimpleType} {members : List Handle},
      graph.simpleType? handle = some type → type.variety = .union members → members ≠ [] →
      (∀ member ∈ members, P member) → P handle)
    (h : (graph.simpleType? handle).isSome = true) : P handle := by
  induction handle using Handle.induction with
  | whole handle ih =>
    obtain ⟨type, htype⟩ := Option.isSome_iff_exists.mp h
    cases hvariety : type.variety with
    | atomic | list => exact single htype (by rw [hvariety]; rintro _ ⟨⟩)
    | union members =>
      obtain ⟨hne, hparts⟩ := wf.union_parts htype hvariety
      refine union htype hvariety hne ?_
      intro member hmember
      obtain ⟨hbefore, hsimple⟩ := hparts member hmember
      exact ih member hbefore hsimple

theorem derivesFromStep_eq (wf : graph.WellFormed) {self : Handle → Bool}
    (hself : ∀ part : Handle, part.index < handle.index →
      self part = graph.derivesFrom part ancestor) :
    graph.derivesFromStep ancestor self handle = graph.derivesFrom handle ancestor := by
  rw [derivesFromStep, derivesFrom]
  cases htype : graph.simpleType? handle with
  | none => rfl
  | some type =>
    cases hbase : type.base with
    | none => simp only [hbase]
    | some base =>
      have hlt := ((wf.admitsSimple htype).base base hbase).1
      simp only [hbase, if_pos hlt, hself base hlt]

theorem containsListStep_eq (wf : graph.WellFormed) {self : Handle → Bool}
    (hself : ∀ part : Handle, part.index < handle.index →
      self part = Builder.containsList graph part) :
    graph.containsListStep self handle = Builder.containsList graph handle := by
  rw [containsListStep, Builder.containsList]
  cases htype : graph.simpleType? handle with
  | none => rfl
  | some type =>
    obtain ⟨name, base, variety, builtin, rule, facets⟩ := type
    cases variety with
    | atomic | list => rfl
    | union members =>
      -- The tests of the handles in the walk never fail.
      have hparts := (wf.admitsSimple htype).variety.2
      simp only
      rw [Bool.eq_iff_iff, List.any_eq_true, List.any_eq_true]
      refine exists_congr ?_
      intro member
      refine and_congr_right ?_
      intro hmember
      have hlt := (hparts member hmember).1
      rw [if_pos hlt, hself member hlt]

theorem readStep_eq (wf : graph.WellFormed) {self : Handle → String → Except Error TypedValue}
    (hself : ∀ part : Handle, part.index < handle.index →
      self part = graph.readValue limits bindings? part) :
    graph.readStep limits bindings? self handle = graph.readValue limits bindings? handle := by
  funext text
  rw [readStep, readValue]
  cases htype : graph.requireSimpleType handle with
  | error => rfl
  | ok type =>
    have hparts := (wf.admitsSimple (requireSimpleType_eq_ok.mp htype)).variety
    cases hvariety : type.variety with
    | atomic => simp only [hvariety]
    | list item =>
      rw [hvariety] at hparts
      have hlt := hparts.1.1
      simp only [hvariety, if_pos hlt, hself item hlt]
    | union members =>
      rw [hvariety] at hparts
      simp only [hvariety]
      refine readUnion_congr ?_
      intro member hmember
      have hlt := (hparts.2 member hmember).1
      rw [if_pos hlt, hself member hlt]

/-- Reading a text as a value of a simple type, variety by variety. -/
theorem readValue_eq (wf : graph.WellFormed) (h : graph.simpleType? handle = some type) :
    graph.readValue limits bindings? handle text =
      match type.variety with
      | .atomic primitive => .atomic <$> readAtom limits bindings? handle type primitive text
      | .list item =>
        .list <$> readList limits type item (graph.readValue limits bindings? item) text
      | .union members =>
        readUnion type members (fun member => graph.readValue limits bindings? member text) text := by
  have hstep : graph.readStep limits bindings? (graph.readValue limits bindings?) handle
      = graph.readValue limits bindings? handle := wf.readStep_eq fun _ _ => rfl
  rw [← hstep, readStep, requireSimpleType_eq_ok.mpr h]

theorem derivesFrom_eq (wf : graph.WellFormed) (h : graph.simpleType? handle = some type) :
    graph.derivesFrom handle ancestor = (handle == ancestor ||
      match type.base with
      | none => false
      | some base => graph.derivesFrom base ancestor) := by
  have hstep : graph.derivesFromStep ancestor (graph.derivesFrom · ancestor) handle
      = graph.derivesFrom handle ancestor := wf.derivesFromStep_eq fun _ _ => rfl
  rw [← hstep, derivesFromStep, h]

/-- What holds of an ancestor and goes from each base to what is derived from it holds of
all that is derived from the ancestor. The induction goes along the handles. -/
theorem derivesFrom_induction (wf : graph.WellFormed) {P : Handle → Prop}
    (refl : P ancestor)
    (derived : ∀ {handle base : Handle} {type : SimpleType}, graph.simpleType? handle = some type →
      type.base = some base → P base → P handle)
    (h : graph.derivesFrom handle ancestor = true) : P handle := by
  induction handle using Handle.induction with
  | whole handle ih =>
    cases htype : graph.simpleType? handle with
    | none =>
      rw [derivesFrom, htype] at h
      cases h
    | some type =>
      rw [wf.derivesFrom_eq htype, Bool.or_eq_true] at h
      rcases h with hsame | hderives
      · rw [beq_iff_eq.mp hsame]
        exact refl
      · cases hbase : type.base with
        | none =>
          rw [hbase] at hderives
          cases hderives
        | some base =>
          rw [hbase] at hderives
          exact derived htype hbase (ih base ((wf.admitsSimple htype).base base hbase).1 hderives)

/-- The search finds every list that stands in a type. -/
theorem containsList_of_reachesList (wf : graph.WellFormed) (h : ReachesList graph handle) :
    Builder.containsList graph handle = true := by
  induction h with
  | @list handle item type htype hvariety =>
    obtain ⟨name, base, variety, builtin, rule, facets⟩ := type
    obtain rfl : variety = .list item := hvariety
    rw [Builder.containsList, htype]
  | @union handle member type members htype hvariety hmember _ ih =>
    rw [← wf.containsListStep_eq fun _ _ => rfl, containsListStep, htype]
    obtain ⟨name, base, variety, builtin, rule, facets⟩ := type
    obtain rfl : variety = .union members := hvariety
    exact List.any_eq_true.mpr ⟨member, hmember, ih⟩

/-- A simple type judges every text. The induction goes along the handles. -/
theorem judged_readValue (wf : graph.WellFormed) (h : (graph.simpleType? handle).isSome = true)
    (text : String) : Judged (graph.readValue limits bindings? handle text) := by
  induction handle using Handle.induction generalizing text with
  | whole handle ih =>
    obtain ⟨type, htype⟩ := Option.isSome_iff_exists.mp h
    rw [wf.readValue_eq htype]
    cases hvariety : type.variety with
    | atomic => exact judged_readAtom.map _
    | list item =>
      obtain ⟨⟨hbefore, hsimple⟩, -⟩ := wf.list_parts htype hvariety
      exact (judged_readList fun text => ih item hbefore hsimple text).map _
    | union members =>
      obtain ⟨-, hparts⟩ := wf.union_parts htype hvariety
      exact judged_readUnion fun member hmember =>
        ih member (hparts member hmember).1 (hparts member hmember).2 text

theorem judged_validate (wf : graph.WellFormed) (h : (graph.simpleType? handle).isSome = true)
    (text : String) : Judged (graph.validate limits bindings? handle text) :=
  (judged_ofLimit _).bind fun _ _ => wf.judged_readValue h text

end WellFormed

end Graph

end SimpleTypes
