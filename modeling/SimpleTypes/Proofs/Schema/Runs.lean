import Mathlib.Data.List.Induction
import SimpleTypes.Proofs.Schema.Definitions

/-!
# Runs of a builder

What holds of every graph that a builder makes, whatever definitions it is given
and whether they succeed.

* `run_induction`: what the addition of a component preserves holds after every
  run.
* `builtins_wellFormed` and `run_wellFormed`: the graph of the built-in types is
  well-formed, and so is the graph of every run.
* `run_extends`: further steps keep the components that are there.
* `Makes`: a step of a run makes a component. Every component but the built-in
  types comes from such a step (`exists_makes`).
* `run_references`: what this means for the handles and the walks.
-/

namespace SimpleTypes

/-! ## Built-in types -/

namespace Builtin

theorem mem_all (type : Builtin) : type ∈ all := by
  cases type with
  | primitive source =>
    cases source with
    | temporal kind => cases kind <;> decide
    | _ => decide
  | _ => decide

theorem nodup_all : all.Nodup := by decide

theorem all_getElem? (type : Builtin) : all[type.handle.index]? = some type :=
  List.getElem?_idxOf (mem_all type)

theorem handle_eq_of_all_getElem? {type : Builtin} {i : Nat} (h : all[i]? = some type) :
    type.handle = ⟨i⟩ := by
  obtain ⟨hi, rfl⟩ := List.getElem?_eq_some_iff.mp h
  simp [handle, nodup_all.idxOf_getElem i hi]

/-- A base stands before the types derived from it. -/
theorem base_before {type base : Builtin} (h : type.base? = some base) :
    base.handle.index < type.handle.index := by
  have : ∀ type ∈ all, ∀ base ∈ type.base?, base.handle.index < type.handle.index := by decide
  exact this type (mem_all type) base h

theorem eq_anySimpleType_of_base? {type : Builtin} (h : type.base? = none) :
    type = anySimpleType := by
  have : ∀ type ∈ all, type.base? = none → type = anySimpleType := by decide
  exact this type (mem_all type) h

/-- The items of the built-in lists are strings. -/
theorem item_before {type item : Builtin} (h : type.shape = .list item) :
    item.handle.index < type.handle.index ∧ item.shape = .atomic .string := by
  have : ∀ type ∈ all, ∀ item ∈ all, type.shape = .list item →
      item.handle.index < type.handle.index ∧ item.shape = .atomic .string := by decide
  exact this type (mem_all type) item (mem_all item) h

theorem facets_isConsistent (type : Builtin) :
    type.facets.IsConsistent type.simpleType.primitive? := by
  have hnumbers : ∀ type ∈ all, type.facets.maxLength = none ∧ type.facets.totalDigits = none := by
    decide
  have hbounds : ∀ type ∈ all, ∀ kind ∈ RangeKind.all, ∀ bound ∈ type.facets.slot kind,
      bound.kind = kind ∧ type.simpleType.primitive? = some bound.value.primitive := by
    decide
  obtain ⟨hmost, htotal⟩ := hnumbers type (mem_all type)
  refine ⟨?_, ?_, ?_⟩
  · intro _ most _ h
    rw [hmost] at h
    cases h
  · intro _ total _ h
    rw [htotal] at h
    cases h
  · intro kind bound h
    exact hbounds type (mem_all type) kind (by cases kind <;> decide) bound h

end Builtin

namespace Graph

theorem components_builtins_from (types : List Builtin) (graph : Graph) :
    (types.foldl (fun graph type => graph.add (.simpleType type.simpleType)) graph).components.toList
      = graph.components.toList ++ types.map (fun type => .simpleType type.simpleType) := by
  induction types generalizing graph with
  | nil => simp
  | cons type rest ih =>
    rw [List.foldl_cons, ih, add, components_register]
    simp

theorem builtins_component? (handle : Handle) :
    builtins.component? handle =
      Builtin.all[handle.index]?.map (fun type => .simpleType type.simpleType) := by
  have := components_builtins_from Builtin.all empty
  rw [component?, ← Array.getElem?_toList, builtins, this]
  simp [empty]

theorem builtins_simpleType? (type : Builtin) :
    builtins.simpleType? type.handle = some type.simpleType := by
  rw [simpleType?_eq_some, builtins_component?, Builtin.all_getElem?]
  rfl

theorem builtins_isSimpleBefore {part whole : Builtin} (h : part.handle.index < whole.handle.index) :
    builtins.IsSimpleBefore part.handle whole.handle :=
  ⟨h, by rw [builtins_simpleType?]; rfl⟩

theorem builtins_admitsSimple (type : Builtin) :
    builtins.AdmitsSimple type.handle type.simpleType := by
  refine ⟨?_, ?_, ?_, type.facets_isConsistent⟩
  · intro hbase
    rw [Builtin.eq_anySimpleType_of_base? (Option.map_eq_none_iff.mp hbase)]
  · intro base hbase
    obtain ⟨source, hsource, rfl⟩ := Option.map_eq_some_iff.mp hbase
    exact builtins_isSimpleBefore (Builtin.base_before hsource)
  · simp only [Builtin.simpleType]
    cases hshape : type.shape with
    | atomic => exact trivial
    | list item =>
      obtain ⟨hbefore, hitem⟩ := Builtin.item_before hshape
      have hatomic : item.simpleType.variety = .atomic .string := by
        simp only [Builtin.simpleType, hitem]
      exact ⟨builtins_isSimpleBefore hbefore,
        not_reachesList_of_atomic (builtins_simpleType? item) hatomic⟩

/-- The graph of the built-in types is well-formed. -/
theorem builtins_wellFormed : builtins.WellFormed := by
  refine ⟨builtins_simpleType?, ?_⟩
  intro handle component h
  rw [builtins_component?] at h
  obtain ⟨type, htype, rfl⟩ := Option.map_eq_some_iff.mp h
  obtain rfl : type.handle = handle := Builtin.handle_eq_of_all_getElem? htype
  exact builtins_admitsSimple type

end Graph

/-! ## Runs -/

namespace Builder

theorem step_induction {P : Graph → Prop} {builder : Builder} {step : Step}
    (hadd : ∀ definition component, step = .define definition →
      builder.component definition = .ok component → P (builder.graph.add component))
    (h : P builder.graph) : P (builder.step step).graph := by
  cases step with
  | setBindings bindings => exact h
  | define definition =>
    simp only [Builder.step]
    split
    case h_1 next hnext =>
      obtain ⟨component, hcomponent, ⟨⟩⟩ := bind_eq_ok.mp hnext
      exact hadd definition component rfl hcomponent
    case h_2 => exact h

/-- What the addition of a component preserves holds after every run. -/
theorem run_induction {P : Graph → Prop} {steps : List Step}
    (hadd : ∀ (builder : Builder) definition component, .define definition ∈ steps →
      P builder.graph → builder.component definition = .ok component →
      P (builder.graph.add component))
    {builder : Builder} (h : P builder.graph) : P (builder.run steps).graph := by
  induction steps generalizing builder with
  | nil => exact h
  | cons step steps ih =>
    refine ih (fun builder definition component hmem => hadd builder definition component
      (List.mem_cons_of_mem _ hmem)) ?_
    refine step_induction ?_ h
    intro definition component hstep hcomponent
    exact hadd builder definition component (by rw [hstep]; exact List.mem_cons_self) h hcomponent

/-- The graph of every run is well-formed. -/
theorem run_wellFormed (steps : List Step) : (start.run steps).graph.WellFormed :=
  run_induction (P := Graph.WellFormed)
    (fun _ _ _ _ wf hcomponent => wf.add (component_admitted wf hcomponent))
    Graph.builtins_wellFormed

theorem run_append (builder : Builder) (steps more : List Step) :
    builder.run (steps ++ more) = (builder.run steps).run more :=
  List.foldl_append

/-- Further steps keep the components that are there. -/
theorem run_extends (builder : Builder) (steps : List Step) :
    (builder.run steps).graph.Extends builder.graph :=
  run_induction (P := fun graph => graph.Extends builder.graph)
    (fun _ _ _ _ hext _ => (Graph.extends_add _ _).trans hext) (.refl builder.graph)

/-! ## Where components come from -/

/-- A step that is not a successful definition leaves the graph as it was. -/
theorem step_graph (builder : Builder) (step : Step) :
    (builder.step step).graph = builder.graph ∨
      ∃ definition component, step = .define definition ∧
        builder.component definition = .ok component ∧
        (builder.step step).graph = builder.graph.add component := by
  refine step_induction (P := fun graph => graph = builder.graph ∨
    ∃ definition component, step = .define definition ∧
      builder.component definition = .ok component ∧ graph = builder.graph.add component) ?_ (.inl rfl)
  intro definition component hstep hcomponent
  exact .inr ⟨definition, component, hstep, hcomponent, rfl⟩

/-- Whether a step of a run makes a component from a definition. The builder is
the one that the step starts from, so the new handle is the next one there. -/
def Makes (steps : List Step) (builder : Builder) (definition : Definition)
    (component : Component) : Prop :=
  ∃ before after, steps = before ++ .define definition :: after ∧ start.run before = builder ∧
    builder.component definition = .ok component

section Makes

variable {steps : List Step} {builder : Builder} {definition : Definition} {component : Component}

theorem Makes.wellFormed (h : Makes steps builder definition component) :
    builder.graph.WellFormed := by
  obtain ⟨before, after, -, rfl, -⟩ := h
  exact run_wellFormed before

theorem Makes.component_eq_ok (h : Makes steps builder definition component) :
    builder.component definition = .ok component := by
  obtain ⟨_, _, -, -, hcomponent⟩ := h
  exact hcomponent

theorem Makes.append (h : Makes steps builder definition component) (more : List Step) :
    Makes (steps ++ more) builder definition component := by
  obtain ⟨before, after, rfl, hbefore, hcomponent⟩ := h
  exact ⟨before, after ++ more, by simp, hbefore, hcomponent⟩

/-- What follows the step keeps the graph with its component. -/
theorem Makes.extends_add (h : Makes steps builder definition component) :
    (start.run steps).graph.Extends (builder.graph.add component) := by
  obtain ⟨before, after, rfl, rfl, hcomponent⟩ := h
  have hstep : ((start.run before).step (.define definition)).graph
      = (start.run before).graph.add component := by
    simp only [step, define, hcomponent, bind, Except.bind, pure, Except.pure]
  rw [run_append, ← hstep]
  exact run_extends _ after

theorem Makes.extends (h : Makes steps builder definition component) :
    (start.run steps).graph.Extends builder.graph :=
  h.extends_add.trans (Graph.extends_add _ _)

theorem Makes.component?_next (h : Makes steps builder definition component) :
    (start.run steps).graph.component? builder.graph.next = some component := by
  refine h.extends_add _ _ ?_
  rw [Graph.component?_add]
  exact if_pos rfl

/-- Every component but the built-in types was made by a step. The induction is
on the steps from the last one back. -/
theorem exists_makes {handle : Handle}
    (h : (start.run steps).graph.component? handle = some component)
    (hnew : Graph.builtins.size ≤ handle.index) :
    ∃ builder definition, Makes steps builder definition component ∧
      builder.graph.next = handle := by
  induction steps using List.reverseRecOn with
  | nil =>
    have hlt : handle.index < Graph.builtins.size := Graph.index_lt_of_component? h
    omega
  | append_singleton steps last ih =>
    rw [run_append] at h
    change ((start.run steps).step last).graph.component? handle = some component at h
    have hearlier (hold : (start.run steps).graph.component? handle = some component) :
        ∃ builder definition, Makes (steps ++ [last]) builder definition component ∧
          builder.graph.next = handle := by
      obtain ⟨builder, definition, hmakes, hnext⟩ := ih hold
      exact ⟨builder, definition, hmakes.append [last], hnext⟩
    rcases step_graph (start.run steps) last with hsame | ⟨definition, made, rfl, hmade, hadd⟩
    · rw [hsame] at h
      exact hearlier h
    · rw [hadd, Graph.component?_add] at h
      split at h
      case isTrue hindex =>
        obtain rfl := Option.some.inj h
        refine ⟨start.run steps, definition, ⟨steps, [], rfl, rfl, hmade⟩, ?_⟩
        rw [Graph.next, ← hindex]
      case isFalse => exact hearlier h

end Makes

/-! ## References -/

/-- In the graph of every run all references are proper, and the absent handle
addresses nothing as long as it is not the place of a component. So the walks
along references end, after no more calls within calls than the handle says, and
a simple type judges every text. -/
theorem run_references (steps : List Step) :
    (start.run steps).graph.WellFormed ∧
      ((start.run steps).graph.size ≤ Handle.absent.index →
        (start.run steps).graph.component? .absent = none) ∧
      (∀ ancestor stuck (handle : Handle),
        unfold ((start.run steps).graph.derivesFromStep ancestor) stuck (handle.index + 1) handle
          = (start.run steps).graph.derivesFrom handle ancestor) ∧
      (∀ stuck (handle : Handle),
        unfold (start.run steps).graph.containsListStep stuck (handle.index + 1) handle
          = containsList (start.run steps).graph handle) ∧
      (∀ limits bindings? stuck (handle : Handle),
        unfold ((start.run steps).graph.readStep limits bindings?) stuck (handle.index + 1) handle
          = (start.run steps).graph.readValue limits bindings? handle) ∧
      ∀ limits bindings? handle text, ((start.run steps).graph.simpleType? handle).isSome = true →
        Judged ((start.run steps).graph.validate limits bindings? handle text) := by
  have wf := run_wellFormed steps
  refine ⟨wf, ?_, ?_, ?_, ?_, ?_⟩
  · intro hsize
    exact Array.getElem?_eq_none hsize
  · intro ancestor stuck handle
    exact unfold_eq (f := ((start.run steps).graph.derivesFrom · ancestor))
      (fun _ _ => wf.derivesFromStep_eq) (Nat.lt_succ_self _)
  · intro stuck handle
    exact unfold_eq (fun _ _ => wf.containsListStep_eq) (Nat.lt_succ_self _)
  · intro limits bindings? stuck handle
    exact unfold_eq (fun _ _ => wf.readStep_eq) (Nat.lt_succ_self _)
  · intro limits bindings? handle text hsimple
    exact wf.judged_validate hsimple text

/-- A restricted union with a list in it, which no list can have as its item
type, and a restriction of nothing. -/
def hiddenList : List Step := [
  .define (.restriction Builtin.integer.handle { ranges := [(.minInclusive, "10")] }),
  .define (.list none ⟨45⟩),
  .define (.union none [⟨46⟩, Builtin.token.handle]),
  .define (.restriction ⟨47⟩ { enumeration := ["10 11"] }),
  .define (.list none ⟨48⟩),
  .define (.restriction .absent {})]

theorem run_references_hiddenList :
    (start.run hiddenList).graph.size = 49 ∧
      (start.run hiddenList).graph.component? .absent = none ∧
      Judged ((start.run hiddenList).graph.validate .standard none ⟨48⟩ "11 10") := by
  have hsize : (start.run hiddenList).graph.size = 49 := by decide +kernel
  have hsimple : ((start.run hiddenList).graph.simpleType? ⟨48⟩).isSome = true := by
    decide +kernel
  obtain ⟨-, habsent, -, -, -, hjudged⟩ := run_references hiddenList
  exact ⟨hsize, habsent (by rw [hsize]; decide), hjudged .standard none ⟨48⟩ "11 10" hsimple⟩

end Builder

end SimpleTypes
