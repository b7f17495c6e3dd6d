import Mathlib.Data.List.Induction
import SimpleTypes.Proofs.Name.Resolution

/-!
# Histories of bindings

Acts of binding one after the other, each on any snapshot made so far, grow a tree. The root is
the empty snapshot, which has the number zero, and the act at a place makes the snapshot with
the next number.

* `IsPath`: the acts on the way from the root to a snapshot. There is one way to each
  (`existsUnique_isPath`).
* `snapshot_succ`: the act at a place puts one frame in front of those of the snapshot that it
  starts from. This holds of the snapshots of the whole history, since no later act changes them
  (`snapshot_append`).
* `IsPath.frames_eq`: so the frames of a snapshot are the acts on the way to it, and their
  stamps are the places of these acts.
* `run_growsTree`: what follows for look-ups and ancestors.
-/

namespace SimpleTypes

/-- One act of binding: the number of the snapshot that it starts from, the prefix, or none for
the default namespace, and the namespace. -/
structure Act where
  source : Nat
  name : Option String
  uri : String
  deriving DecidableEq, Repr

namespace History

variable {acts : List Act} {act : Act} {number place : Nat} {path : List (Nat × Act)}

/-- Makes a new snapshot by one act. -/
def perform (history : History) (act : Act) : History := history.bind act.source act.name act.uri

/-- The history of some acts one after the other. -/
def run (acts : List Act) : History := acts.foldl perform start

/-- Whether each act starts from a snapshot that was made before it. -/
def AreOrdered (acts : List Act) : Prop :=
  ∀ (place : Nat) (act : Act), acts[place]? = some act → act.source ≤ place

instance (acts : List Act) : Decidable (AreOrdered acts) :=
  decidable_of_iff (∀ place, (h : place < acts.length) → acts[place].source ≤ place) <| by
    simp only [AreOrdered, List.getElem?_eq_some_iff, forall_exists_index, forall_apply_eq_imp_iff]

/-! ## Paths -/

/-- The acts on the way from the empty snapshot to one with a number, the latest first. Each
act comes with its place. -/
inductive IsPath (acts : List Act) : Nat → List (Nat × Act) → Prop
  | root : IsPath acts 0 []
  | step {place : Nat} {act : Act} {path : List (Nat × Act)} :
      acts[place]? = some act → IsPath acts act.source path →
      IsPath acts (place + 1) ((place, act) :: path)

/-- What is bound on a path, the latest first. -/
def boundOn (path : List (Nat × Act)) : List (Option String × String) :=
  path.map fun step => (step.2.name, step.2.uri)

/-- Whether the snapshot with a number is the empty one or was made on a path. -/
def LiesOn (number : Nat) (path : List (Nat × Act)) : Prop :=
  number = 0 ∨ ∃ step ∈ path, number = step.1 + 1

theorem IsPath.unique {other : List (Nat × Act)} (h : IsPath acts number path)
    (h' : IsPath acts number other) : path = other := by
  induction h generalizing other with
  | root =>
    cases h'
    rfl
  | step hact _ ih =>
    cases h' with
    | step hact' hpath' =>
      obtain rfl := Option.some.inj (hact.symm.trans hact')
      rw [ih hpath']

/-- The way to a snapshot ends with the act that made it and goes on from there to a snapshot
with a smaller number. -/
theorem exists_isPath (hordered : AreOrdered acts) (h : number ≤ acts.length) :
    ∃ path, IsPath acts number path := by
  induction number using Nat.strongRecOn with
  | ind number ih =>
    cases number with
    | zero => exact ⟨[], .root⟩
    | succ place =>
      have hact : acts[place]? = some acts[place] := List.getElem?_eq_getElem h
      have hsource := hordered place _ hact
      obtain ⟨path, hpath⟩ := ih _ (Nat.lt_succ_of_le hsource) (hsource.trans (Nat.le_of_lt h))
      exact ⟨_, .step hact hpath⟩

theorem existsUnique_isPath (hordered : AreOrdered acts) (h : number ≤ acts.length) :
    ∃! path, IsPath acts number path := by
  obtain ⟨path, hpath⟩ := exists_isPath hordered h
  exact ⟨path, hpath, fun _ hother => hother.unique hpath⟩

theorem LiesOn.self (h : IsPath acts number path) : LiesOn number path := by
  cases h with
  | root => exact .inl rfl
  | step => exact .inr ⟨_, List.mem_cons_self, rfl⟩

/-- What was made on the way to a snapshot has a number that is not greater. -/
theorem LiesOn.le (hordered : AreOrdered acts) {earlier : Nat} (hon : LiesOn earlier path)
    (h : IsPath acts number path) : earlier ≤ number := by
  induction h with
  | root =>
    rcases hon with rfl | ⟨step, hstep, -⟩
    · exact Nat.le_refl _
    · cases hstep
  | @step place act path hact _ ih =>
    rcases hon with rfl | ⟨step, hstep, rfl⟩
    · exact Nat.zero_le _
    · rcases List.mem_cons.mp hstep with rfl | hmem
      · exact Nat.le_refl _
      · exact (ih (.inr ⟨step, hmem, rfl⟩)).trans (Nat.le_succ_of_le (hordered place act hact))

/-- The way to a snapshot on a path is a part of the path. -/
theorem LiesOn.trans {earlier middle : Nat} {path' : List (Nat × Act)}
    (hearlier : LiesOn earlier path) (hpath : IsPath acts middle path)
    (hmiddle : LiesOn middle path') (h : IsPath acts number path') : LiesOn earlier path' := by
  induction h with
  | root =>
    rcases hmiddle with rfl | ⟨step, hstep, -⟩
    · rwa [hpath.unique .root] at hearlier
    · cases hstep
  | @step place act rest hact hrest ih =>
    have hkept (hon : LiesOn earlier rest) : LiesOn earlier ((place, act) :: rest) :=
      hon.imp_right fun ⟨step, hstep, heq⟩ => ⟨step, List.mem_cons_of_mem _ hstep, heq⟩
    rcases hmiddle with hzero | ⟨step, hstep, heq⟩
    · exact hkept (ih (.inl hzero))
    · rcases List.mem_cons.mp hstep with rfl | hmem
      · obtain rfl := heq
        rwa [hpath.unique (.step hact hrest)] at hearlier
      · exact hkept (ih (.inr ⟨step, hmem, heq⟩))

/-- Two acts on one snapshot make snapshots of which none lies on the way to the other. -/
theorem not_liesOn_of_source_eq (hordered : AreOrdered acts) {place' : Nat} {act' : Act}
    (hact : acts[place]? = some act) (hact' : acts[place']? = some act') (hne : place ≠ place')
    (hsource : act.source = act'.source) (h : IsPath acts (place' + 1) path) :
    ¬ LiesOn (place + 1) path := by
  rintro (hzero | ⟨step, hstep, heq⟩)
  · cases hzero
  · cases h with
    | @step _ other rest hother hrest =>
      obtain rfl := Option.some.inj (hact'.symm.trans hother)
      rcases List.mem_cons.mp hstep with rfl | hmem
      · exact hne (Nat.succ.inj heq)
      · have hle := LiesOn.le hordered (.inr ⟨step, hmem, heq⟩) hrest
        rw [← hsource] at hle
        exact absurd (hordered place act hact) (Nat.not_le.mpr hle)

/-! ## Snapshots -/

theorem run_append (acts more : List Act) : run (acts ++ more) = more.foldl perform (run acts) :=
  List.foldl_append

/-- Each act makes one snapshot and uses one stamp. -/
theorem size_run (acts : List Act) :
    (run acts).snapshots.length = acts.length + 1 ∧ (run acts).nextStamp = acts.length := by
  induction acts using List.reverseRecOn with
  | nil => exact ⟨rfl, rfl⟩
  | append_singleton acts act ih =>
    obtain ⟨hlength, hstamp⟩ := ih
    rw [run_append, List.foldl_cons, List.foldl_nil, perform, History.bind, bindAll]
    simp [hlength, hstamp]

theorem snapshots_perform (history : History) (act : Act) : (history.perform act).snapshots =
    history.snapshots
      ++ [(history.snapshot act.source).bind history.nextStamp act.name act.uri] := rfl

/-- An act changes no snapshot that is there. -/
theorem snapshot_perform {history : History} (act : Act) (h : number < history.snapshots.length) :
    (history.perform act).snapshot number = history.snapshot number := by
  unfold snapshot
  rw [snapshots_perform, List.getElem?_append_left h]

/-- Later acts change no snapshot that is there. -/
theorem snapshot_append (more : List Act) (h : number ≤ acts.length) :
    (run (acts ++ more)).snapshot number = (run acts).snapshot number := by
  induction more using List.reverseRecOn with
  | nil => rw [List.append_nil]
  | append_singleton more act ih =>
    rw [← List.append_assoc, run_append, List.foldl_cons, List.foldl_nil, snapshot_perform, ih]
    rw [(size_run _).1, List.length_append]
    exact Nat.lt_succ_of_le (Nat.le_add_right_of_le h)

theorem snapshot_zero (acts : List Act) : (run acts).snapshot 0 = .empty := by
  have happend : (run ([] ++ acts)).snapshot 0 = (run []).snapshot 0 :=
    snapshot_append acts (Nat.zero_le _)
  exact happend

/-- The act at a place puts one frame in front of those of the snapshot that it starts from. Its
stamp is the place. -/
theorem snapshot_succ (hordered : AreOrdered acts) (hact : acts[place]? = some act) :
    (run acts).snapshot (place + 1)
      = ((run acts).snapshot act.source).bind place act.name act.uri := by
  obtain ⟨hplace, hget⟩ := List.getElem?_eq_some_iff.mp hact
  -- The history up to the act decides, since the acts after it change nothing.
  have hsplit : acts = acts.take place ++ act :: acts.drop (place + 1) := by
    rw [← hget, List.getElem_cons_drop, List.take_append_drop]
  have hlength : (acts.take place).length = place := List.length_take_of_le (Nat.le_of_lt hplace)
  have hsource := hordered place act hact
  generalize acts.take place = before at hsplit hlength
  generalize acts.drop (place + 1) = after at hsplit
  subst hsplit hlength
  obtain ⟨hcount, hstamp⟩ := size_run before
  have hmade : (run (before ++ [act])).snapshot (before.length + 1)
      = ((run before).snapshot act.source).bind before.length act.name act.uri := by
    rw [run_append, List.foldl_cons, List.foldl_nil, snapshot, snapshots_perform, ← hcount,
      List.getElem?_concat_length, hstamp]
    rfl
  rw [snapshot_append _ hsource, ← hmade, List.append_cons]
  exact snapshot_append _ (by simp)

/-- The frames of a snapshot are the acts on the way to it. -/
theorem IsPath.frames_eq (hordered : AreOrdered acts) (h : IsPath acts number path) :
    ((run acts).snapshot number).frames
      = path.map fun step => ⟨step.1, step.2.name, step.2.uri⟩ := by
  induction h with
  | root => rw [snapshot_zero]; rfl
  | step hact _ ih =>
    rw [snapshot_succ hordered hact, List.map_cons, ← ih]
    rfl

theorem IsPath.pairs_eq (hordered : AreOrdered acts) (h : IsPath acts number path) :
    ((run acts).snapshot number).pairs = boundOn path := by
  rw [Bindings.pairs, h.frames_eq hordered, List.map_map]
  rfl

/-- A snapshot is an ancestor of those on whose way it lies. -/
theorem IsPath.isAncestorOf_iff (hordered : AreOrdered acts) {earlier : Nat}
    (hearlier : earlier ≤ acts.length) (h : IsPath acts number path) :
    ((run acts).snapshot earlier).isAncestorOf ((run acts).snapshot number) = true ↔
      LiesOn earlier path := by
  obtain ⟨path', hpath'⟩ := exists_isPath hordered hearlier
  unfold Bindings.isAncestorOf LiesOn
  rw [hpath'.frames_eq hordered, h.frames_eq hordered]
  cases hpath' with
  | root => exact iff_of_true rfl (.inl rfl)
  | @step place act path' =>
    have hstamp (step : Nat × Act) : step.1 = place ↔ place + 1 = step.1 + 1 := by
      rw [Nat.succ_inj, eq_comm]
    simp [hstamp]

/-! ## The tree -/

/-- What the history of some acts is asked for. Each snapshot is at the end of one path, and
the path says all about it: the latest binding of a name on the path counts, and the path leads
through the ancestors. -/
structure GrowsTree (acts : List Act) : Prop where
  size : (run acts).snapshots.length = acts.length + 1
  path : ∀ number ≤ acts.length, ∃! path, IsPath acts number path
  named : ∀ number path before uri, IsPath acts number path → before ≠ "xml" →
    (((run acts).snapshot number).namespace? before = some uri ↔
      uri ≠ "" ∧ BindsLast (boundOn path) (some before) uri)
  unnamed : ∀ number path uri, IsPath acts number path →
    (((run acts).snapshot number).default? = some uri ↔
      uri ≠ "" ∧ BindsLast (boundOn path) none uri)
  xml : ∀ number, ((run acts).snapshot number).namespace? "xml" = some xmlNamespace
  depth : ∀ number path, IsPath acts number path →
    ((run acts).snapshot number).depth = path.length
  stable : ∀ more, ∀ number ≤ acts.length,
    (run (acts ++ more)).snapshot number = (run acts).snapshot number
  isAncestorOf : ∀ earlier later path, earlier ≤ acts.length → IsPath acts later path →
    (((run acts).snapshot earlier).isAncestorOf ((run acts).snapshot later) = true ↔
      LiesOn earlier path)
  unrelated : ∀ place place' act act', acts[place]? = some act → acts[place']? = some act' →
    place ≠ place' → act.source = act'.source →
    ((run acts).snapshot (place + 1)).isAncestorOf ((run acts).snapshot (place' + 1)) = false
  refl : ∀ number ≤ acts.length,
    ((run acts).snapshot number).isAncestorOf ((run acts).snapshot number) = true
  trans : ∀ first second third, first ≤ acts.length → second ≤ acts.length →
    third ≤ acts.length →
    ((run acts).snapshot first).isAncestorOf ((run acts).snapshot second) = true →
    ((run acts).snapshot second).isAncestorOf ((run acts).snapshot third) = true →
    ((run acts).snapshot first).isAncestorOf ((run acts).snapshot third) = true
  antisymm : ∀ first second, first ≤ acts.length → second ≤ acts.length →
    ((run acts).snapshot first).isAncestorOf ((run acts).snapshot second) = true →
    ((run acts).snapshot second).isAncestorOf ((run acts).snapshot first) = true →
    first = second

/-- Acts of binding, each on a snapshot made before, grow a tree whose snapshots never
change. -/
theorem run_growsTree (hordered : AreOrdered acts) : GrowsTree acts where
  size := (size_run acts).1
  path _ := existsUnique_isPath hordered
  named number path before uri hpath hxml := by
    unfold Bindings.namespace?
    rw [if_neg (by simpa using hxml), Bindings.lookup?_eq_some, hpath.pairs_eq hordered]
  unnamed number path uri hpath := by
    unfold Bindings.default?
    rw [Bindings.lookup?_eq_some, hpath.pairs_eq hordered]
  xml _ := rfl
  depth number path hpath := by
    unfold Bindings.depth
    rw [hpath.frames_eq hordered, List.length_map]
  stable more _ := snapshot_append more
  isAncestorOf _ _ _ hearlier hpath := hpath.isAncestorOf_iff hordered hearlier
  unrelated place place' act act' hact hact' hne hsource := by
    obtain ⟨path, hpath⟩ := exists_isPath hordered (List.getElem?_eq_some_iff.mp hact').1
    rw [Bool.eq_false_iff, Ne,
      hpath.isAncestorOf_iff hordered (List.getElem?_eq_some_iff.mp hact).1]
    exact not_liesOn_of_source_eq hordered hact hact' hne hsource hpath
  refl number hnumber := by
    obtain ⟨path, hpath⟩ := exists_isPath hordered hnumber
    exact (hpath.isAncestorOf_iff hordered hnumber).mpr (.self hpath)
  trans first second third hfirst hsecond hthird h h' := by
    obtain ⟨path, hpath⟩ := exists_isPath hordered hsecond
    obtain ⟨path', hpath'⟩ := exists_isPath hordered hthird
    rw [hpath.isAncestorOf_iff hordered hfirst] at h
    rw [hpath'.isAncestorOf_iff hordered hsecond] at h'
    exact (hpath'.isAncestorOf_iff hordered hfirst).mpr (h.trans hpath h' hpath')
  antisymm first second hfirst hsecond h h' := by
    obtain ⟨path, hpath⟩ := exists_isPath hordered hsecond
    obtain ⟨path', hpath'⟩ := exists_isPath hordered hfirst
    rw [hpath.isAncestorOf_iff hordered hfirst] at h
    rw [hpath'.isAncestorOf_iff hordered hsecond] at h'
    exact Nat.le_antisymm (h.le hordered hpath) (h'.le hordered hpath')

/-- Two acts that bind a prefix alike on one snapshot, and an act that takes this back on the
second of the new snapshots. -/
def twins : List Act := [
  ⟨0, none, "urn:default"⟩, ⟨1, some "p", "urn:p"⟩, ⟨1, some "p", "urn:p"⟩, ⟨3, some "p", ""⟩]

theorem run_growsTree_twins : AreOrdered twins ∧ GrowsTree twins ∧
    ((run twins).snapshot 2).namespace? "p" = some "urn:p" ∧
    ((run twins).snapshot 4).namespace? "p" = none ∧
    ((run twins).snapshot 4).default? = some "urn:default" ∧
    ((run twins).snapshot 3).isAncestorOf ((run twins).snapshot 4) = true ∧
    ((run twins).snapshot 2).isAncestorOf ((run twins).snapshot 3) = false := by
  have hordered : AreOrdered twins := by decide
  have htree := run_growsTree hordered
  exact ⟨hordered, htree, by decide, by decide, by decide, by decide,
    htree.unrelated 1 2 _ _ rfl rfl (by decide) rfl⟩

end History

end SimpleTypes
