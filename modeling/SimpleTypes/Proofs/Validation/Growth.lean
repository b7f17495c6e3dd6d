import SimpleTypes.Proofs.Schema.Runs
import SimpleTypes.Validation.Declared

/-!
# Validation in a growing graph

A component refers only to components before it, so what comes after it makes no
difference to it.

* `Extends.readValue_eq`: a graph and a larger one read texts in the same way, as
  far as the components of the smaller one go.
* `run_validate_stable`: no further steps of a builder change what an existing
  component makes of a text.
-/

namespace SimpleTypes

namespace Graph

variable {graph later : Graph} {handle type : Handle} {constraint? : Option ValueConstraint}

/-! ## Looking up components -/

theorem exists_component?_of_lt (h : handle.index < graph.size) :
    ∃ component, graph.component? handle = some component :=
  ⟨_, Array.getElem?_eq_getElem h⟩

theorem Extends.component?_eq (hext : later.Extends graph) (h : handle.index < graph.size) :
    later.component? handle = graph.component? handle := by
  obtain ⟨component, hcomponent⟩ := exists_component?_of_lt h
  rw [hcomponent, hext _ _ hcomponent]

theorem Extends.requireSimpleType_eq (hext : later.Extends graph) (h : handle.index < graph.size) :
    later.requireSimpleType handle = graph.requireSimpleType handle := by
  rw [requireSimpleType, requireSimpleType, hext.component?_eq h]

theorem Extends.contentType?_eq (hext : later.Extends graph) (h : handle.index < graph.size) :
    later.contentType? handle = graph.contentType? handle := by
  rw [contentType?, contentType?, hext.component?_eq h]

theorem Extends.contentType?_eq_some (hext : later.Extends graph)
    (h : graph.contentType? handle = some type) : later.contentType? handle = some type := by
  have hlt : handle.index < graph.size := by
    unfold contentType? at h
    split at h
    case h_1 hcomponent => exact index_lt_of_component? hcomponent
    case h_2 hcomponent => exact index_lt_of_component? hcomponent
    case h_3 => cases h
  rw [hext.contentType?_eq hlt, h]

theorem Extends.attribute?_eq (hext : later.Extends graph) (h : handle.index < graph.size) :
    later.attribute? handle = graph.attribute? handle := by
  rw [attribute?, attribute?, hext.component?_eq h]

/-! ## Simple types -/

variable {limits : Limits} {bindings? : Option Bindings}

/-- A type is the same in both graphs, and so is what its parts read. The induction
goes along the handles. -/
theorem Extends.readValue_eq (hext : later.Extends graph) (wf : graph.WellFormed)
    (wfLater : later.WellFormed) (h : handle.index < graph.size) :
    later.readValue limits bindings? handle = graph.readValue limits bindings? handle := by
  induction handle using Handle.induction with
  | whole handle ih =>
    have hstep : later.readStep limits bindings? (later.readValue limits bindings?) handle
        = graph.readStep limits bindings? (later.readValue limits bindings?) handle := by
      funext text
      rw [readStep, readStep, hext.requireSimpleType_eq h]
    calc later.readValue limits bindings? handle
      _ = later.readStep limits bindings? (later.readValue limits bindings?) handle :=
        (wfLater.readStep_eq fun _ _ => rfl).symm
      _ = graph.readStep limits bindings? (later.readValue limits bindings?) handle := hstep
      _ = graph.readValue limits bindings? handle :=
        wf.readStep_eq fun part hpart => ih part hpart (Nat.lt_trans hpart h)

theorem Extends.validate_eq (hext : later.Extends graph) (wf : graph.WellFormed)
    (wfLater : later.WellFormed) (h : handle.index < graph.size) :
    later.validate limits bindings? handle = graph.validate limits bindings? handle := by
  funext text
  rw [validate, validate, hext.readValue_eq wf wfLater h]

/-! ## Declarations -/

theorem attributeTarget_eq_ok :
    graph.attributeTarget handle = .ok (type, constraint?) ↔
      (∃ decl, graph.component? handle = some (.attribute decl) ∧
        decl.type = type ∧ decl.constraint = constraint?) ∨
      ∃ attributeUse decl, graph.component? handle = some (.attributeUse attributeUse) ∧
        graph.component? attributeUse.decl = some (.attribute decl) ∧
        decl.type = type ∧ attributeUse.constraint.or decl.constraint = constraint? := by
  rw [attributeTarget]
  cases hcomponent : graph.component? handle with
  | none => simp
  | some component =>
    match component with
    | .attribute decl => simp
    | .attributeUse attributeUse =>
      simp only [Option.some.injEq, reduceCtorEq, false_and, exists_false, false_or,
        Component.attributeUse.injEq, ← attribute?_eq_some]
      cases hdecl : graph.attribute? attributeUse.decl <;> simp [hdecl]
    | .simpleType _ | .complexType _ | .element _ => simp

theorem elementTarget_eq_ok :
    graph.elementTarget handle = .ok (type, constraint?) ↔
      ∃ decl, graph.component? handle = some (.element decl) ∧
        graph.contentType? decl.type = some type ∧ decl.constraint = constraint? := by
  rw [elementTarget]
  cases hcomponent : graph.component? handle with
  | none => simp
  | some component =>
    cases component with
    | element decl => cases hcontent : graph.contentType? decl.type <;> simp [hcontent]
    | _ => simp

/-- The content type of a type is the type itself or stands before it. -/
theorem WellFormed.isSimple_of_contentType? (wf : graph.WellFormed)
    (h : graph.contentType? handle = some type) : (graph.simpleType? type).isSome = true := by
  unfold contentType? at h
  split at h
  case h_1 hcomponent =>
    obtain rfl := Option.some.inj h
    exact Option.isSome_of_eq_some (simpleType?_eq_some.mpr hcomponent)
  case h_2 hcomponent =>
    obtain rfl := Option.some.inj h
    exact (wf.admits _ _ hcomponent).2
  case h_3 => cases h

/-- Attributes and uses of them have simple types. -/
theorem WellFormed.isSimple_of_attributeTarget (wf : graph.WellFormed)
    (h : graph.attributeTarget handle = .ok (type, constraint?)) :
    (graph.simpleType? type).isSome = true := by
  rcases attributeTarget_eq_ok.mp h with ⟨decl, hdecl, rfl, -⟩ | ⟨_, decl, -, hdecl, rfl, -⟩
  · exact (wf.admits _ _ hdecl).2
  · exact (wf.admits _ _ hdecl).2

theorem WellFormed.isSimple_of_elementTarget (wf : graph.WellFormed)
    (h : graph.elementTarget handle = .ok (type, constraint?)) :
    (graph.simpleType? type).isSome = true := by
  obtain ⟨decl, -, hcontent, -⟩ := elementTarget_eq_ok.mp h
  exact wf.isSimple_of_contentType? hcontent

theorem Extends.attributeTarget_eq (hext : later.Extends graph) (wf : graph.WellFormed)
    (h : handle.index < graph.size) : later.attributeTarget handle = graph.attributeTarget handle := by
  rw [attributeTarget, attributeTarget, hext.component?_eq h]
  split
  case h_2 attributeUse huse =>
    have hdecl : attributeUse.decl.index < graph.size :=
      Nat.lt_trans (wf.admits _ _ huse).1 h
    rw [hext.attribute?_eq hdecl]
  all_goals rfl

theorem Extends.elementTarget_eq (hext : later.Extends graph) (wf : graph.WellFormed)
    (h : handle.index < graph.size) : later.elementTarget handle = graph.elementTarget handle := by
  rw [elementTarget, elementTarget, hext.component?_eq h]
  split
  case h_1 decl hdecl =>
    have htype : decl.type.index < graph.size := Nat.lt_trans (wf.admits _ _ hdecl).1 h
    rw [hext.contentType?_eq htype]
  all_goals rfl

theorem Extends.validateDeclared_eq (hext : later.Extends graph) (wf : graph.WellFormed)
    (wfLater : later.WellFormed) (h : (graph.simpleType? type).isSome = true) {site : Site}
    {text? : Option String} :
    later.validateDeclared limits bindings? site handle type constraint? text?
      = graph.validateDeclared limits bindings? site handle type constraint? text? := by
  cases text? with
  | none => rfl
  | some text =>
    rw [validateDeclared, validateDeclared, hext.validate_eq wf wfLater (index_lt_of_simpleType? h)]

theorem Extends.validateAttribute_eq (hext : later.Extends graph) (wf : graph.WellFormed)
    (wfLater : later.WellFormed) (h : handle.index < graph.size) {text? : Option String} :
    later.validateAttribute limits bindings? handle text?
      = graph.validateAttribute limits bindings? handle text? := by
  rw [validateAttribute, validateAttribute, hext.attributeTarget_eq wf h]
  cases htarget : graph.attributeTarget handle with
  | error => rfl
  | ok target => exact hext.validateDeclared_eq wf wfLater (wf.isSimple_of_attributeTarget htarget)

theorem Extends.validateElement_eq (hext : later.Extends graph) (wf : graph.WellFormed)
    (wfLater : later.WellFormed) (h : handle.index < graph.size) {text? : Option String} :
    later.validateElement limits bindings? handle text?
      = graph.validateElement limits bindings? handle text? := by
  rw [validateElement, validateElement, hext.elementTarget_eq wf h]
  cases htarget : graph.elementTarget handle with
  | error => rfl
  | ok target => exact hext.validateDeclared_eq wf wfLater (wf.isSimple_of_elementTarget htarget)

end Graph

/-! ## Runs -/

namespace Builder

/-- What a type makes of a text where a component is made, it makes of it after the
run. -/
theorem Makes.readValue_eq_ok {steps : List Step} {builder : Builder} {definition : Definition}
    {component : Component} (h : Makes steps builder definition component) {limits : Limits}
    {bindings? : Option Bindings} {handle : Handle} {text : String} {value : TypedValue}
    (hread : builder.graph.readValue limits bindings? handle text = .ok value) :
    (start.run steps).graph.readValue limits bindings? handle text = .ok value := by
  obtain ⟨_, hsimple⟩ := Graph.exists_simpleType_of_readValue hread
  have hlt := Graph.index_lt_of_component? (Graph.simpleType?_eq_some.mp hsimple)
  rw [h.extends.readValue_eq h.wellFormed (run_wellFormed steps) hlt, hread]

/-- No further steps of a builder change what an existing component makes of a
text. -/
theorem run_validate_stable (steps more : List Step) {handle : Handle}
    (h : handle.index < (start.run steps).graph.size) (limits : Limits)
    (bindings? : Option Bindings) :
    (∀ text, ((start.run steps).run more).graph.validate limits bindings? handle text
        = (start.run steps).graph.validate limits bindings? handle text) ∧
      ∀ text?,
        ((start.run steps).run more).graph.validateAttribute limits bindings? handle text?
            = (start.run steps).graph.validateAttribute limits bindings? handle text? ∧
          ((start.run steps).run more).graph.validateElement limits bindings? handle text?
            = (start.run steps).graph.validateElement limits bindings? handle text? := by
  have hext := run_extends (start.run steps) more
  have wf := run_wellFormed steps
  have wfLater : ((start.run steps).run more).graph.WellFormed := by
    rw [← run_append]
    exact run_wellFormed (steps ++ more)
  refine ⟨fun text => congrFun (hext.validate_eq wf wfLater h) text, fun text? => ?_⟩
  exact ⟨hext.validateAttribute_eq wf wfLater h, hext.validateElement_eq wf wfLater h⟩

/-- An attribute whose value is a fixed list of numbers from ten upwards. -/
def fixedSizes : List Step := [
  .define (.restriction Builtin.integer.handle { ranges := [(.minInclusive, "10")] }),
  .define (.list none ⟨45⟩),
  .define (.attribute ⟨none, "sizes"⟩ ⟨46⟩ (some ⟨.fixed, "10 11"⟩))]

/-- A list of lists, which there cannot be, and another attribute of the same name. -/
def otherSizes : List Step := [
  .define (.list none ⟨46⟩),
  .define (.attribute ⟨none, "sizes"⟩ ⟨45⟩ (some ⟨.default, "12"⟩))]

theorem run_validate_stable_sizes :
    (start.run fixedSizes).graph.size = 48 ∧
      ((start.run fixedSizes).run otherSizes).graph.size = 49 ∧
      ((start.run fixedSizes).run otherSizes).graph.validateAttribute .standard none ⟨47⟩
          (some "10 12")
        = (start.run fixedSizes).graph.validateAttribute .standard none ⟨47⟩ (some "10 12") := by
  have hsize : (start.run fixedSizes).graph.size = 48 := by decide +kernel
  have hlater : ((start.run fixedSizes).run otherSizes).graph.size = 49 := by decide +kernel
  have hold : (⟨47⟩ : Handle).index < (start.run fixedSizes).graph.size := by
    rw [hsize]
    decide
  exact ⟨hsize, hlater,
    ((run_validate_stable fixedSizes otherSizes hold .standard none).2 (some "10 12")).1⟩

end Builder

end SimpleTypes
