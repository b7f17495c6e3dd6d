import SimpleTypes.Proofs.Validation.Atoms
import SimpleTypes.Proofs.Validation.Growth

/-!
# Declared values

What a declared value does to the validation of texts.

* `Defines` and `InForce`: which value is in force at an attribute, at a use of one or at an
  element with simple content, in terms of the definitions that the steps of a run state.
* `target_eq_ok_iff`: this value, read under the bindings of its definition, is the one that the
  graph of the run has for the place.
* `FollowsValue`: a declaration behaves as its declared value says.
* `run_followsValue`: every declaration in the graph of a run does so.
-/

namespace SimpleTypes

/-! ## Values in graphs -/

/-- The text of a declared value. -/
def ValueConstraint.stated (constraint : ValueConstraint) : DeclaredValue :=
  ⟨constraint.kind, constraint.lexical⟩

namespace Graph

variable {graph later : Graph} {site : Site} {handle type : Handle} {declared : DeclaredValue}
  {constraint : ValueConstraint} {constraint? : Option ValueConstraint}

/-- The type and the declared value in force at a site. -/
def target (graph : Graph) : Site → Handle → Except Misuse (Handle × Option ValueConstraint)
  | .attribute => graph.attributeTarget
  | .element => graph.elementTarget

/-- Whether a value in a graph is the one that was declared: its kind and its text, and what the
text stands for under the bindings of the declaration. -/
structure Keeps (graph : Graph) (bindings : Bindings) (type : Handle) (declared : DeclaredValue)
    (constraint : ValueConstraint) : Prop where
  stated : constraint.stated = declared
  read : graph.readValue .standard (some bindings) type declared.text = .ok constraint.value

/-! ## Validating -/

variable {limits : Limits} {bindings : Bindings} {bindings? : Option Bindings} {text : String}
  {text? : Option String} {value : TypedValue}

/-- Validates a text, or its absence, at a site. -/
def validateAt (graph : Graph) (limits : Limits) (bindings? : Option Bindings) :
    Site → Handle → Option String → Except Error TypedValue
  | .attribute => graph.validateAttribute limits bindings?
  | .element => graph.validateElement limits bindings?

theorem validateAt_eq (h : graph.target site handle = .ok (type, constraint?)) :
    graph.validateAt limits bindings? site handle text?
      = graph.validateDeclared limits bindings? site handle type constraint? text? := by
  match site, h with
  | .attribute, h =>
    have htarget : graph.attributeTarget handle = .ok (type, constraint?) := h
    rw [validateAt, validateAttribute, htarget]
    rfl
  | .element, h =>
    have htarget : graph.elementTarget handle = .ok (type, constraint?) := h
    rw [validateAt, validateElement, htarget]
    rfl

theorem checkFixed_eq_ok :
    checkFixed site (some constraint) value = .ok () ↔
      (constraint.kind = .fixed → value.valueEq constraint.value = true) := by
  obtain ⟨kind, lexical, required⟩ := constraint
  cases kind <;> simp [checkFixed]

theorem validateDeclared_eq_ok :
    graph.validateDeclared limits bindings? site handle type (some constraint) (some text)
        = .ok value ↔
      graph.validate limits bindings? type text = .ok value ∧
        (constraint.kind = .fixed → value.valueEq constraint.value = true) := by
  simp only [validateDeclared, bind_eq_ok, Error.ofInvalid_eq_ok, pure, Except.pure,
    Except.ok.injEq]
  constructor
  · rintro ⟨read, hread, _, hfixed, rfl⟩
    exact ⟨hread, checkFixed_eq_ok.mp hfixed⟩
  · rintro ⟨hread, hfixed⟩
    exact ⟨value, hread, (), checkFixed_eq_ok.mpr hfixed, rfl⟩

theorem validateDeclared_mismatch (hkind : constraint.kind = .fixed)
    (hread : graph.validate limits bindings? type text = .ok value)
    (hne : value.valueEq constraint.value = false) :
    graph.validateDeclared limits bindings? site handle type (some constraint) (some text)
      = .error (.invalid (.fixed site constraint.value value)) := by
  obtain ⟨kind, lexical, required⟩ := constraint
  obtain rfl : kind = .fixed := hkind
  have hcheck : checkFixed site (some ⟨.fixed, lexical, required⟩) value
      = .error (.fixed site required value) := by
    rw [checkFixed, hne]
    rfl
  rw [validateDeclared, hread]
  simp only [bind, Except.bind, hcheck]
  rfl

/-- Whether a declaration behaves as its declared value says. The value is what the text of the
declaration stands for. Without a text the value stands in, and the text of the declaration
stands for the same. A fixed value is the only one, whatever its text. -/
structure FollowsValue (graph : Graph) (site : Site) (handle type : Handle)
    (declared : DeclaredValue) (bindings : Bindings) (required : TypedValue) : Prop where
  read : graph.readValue .standard (some bindings) type declared.text = .ok required
  absent : ∀ limits bindings?, graph.validateAt limits bindings? site handle none = .ok required
  own : declared.text.length ≤ Limits.standard.lexicalLength →
    graph.validateAt .standard (some bindings) site handle (some declared.text) = .ok required
  fixed : declared.kind = .fixed → ∀ limits bindings? text value,
    graph.validateAt limits bindings? site handle (some text) = .ok value ↔
      graph.validate limits bindings? type text = .ok value ∧ value.valueEq required = true
  mismatch : declared.kind = .fixed → ∀ limits bindings? text value,
    graph.validate limits bindings? type text = .ok value → value.valueEq required = false →
      ∃ cause, graph.validateAt limits bindings? site handle (some text) = .error (.invalid cause) ∧
        cause.kind = .fixed site ∧ cause.value? = some value

/-- It is enough that the value in force is the declared one. It is equal to itself, as it was
read. -/
theorem WellFormed.followsValue (wf : graph.WellFormed)
    (htarget : graph.target site handle = .ok (type, some constraint))
    (hkeeps : graph.Keeps bindings type declared constraint) :
    graph.FollowsValue site handle type declared bindings constraint.value := by
  obtain ⟨rfl, hread⟩ := hkeeps
  refine ⟨hread, ?absent, ?own, ?fixed, ?mismatch⟩
  case absent =>
    intro limits bindings?
    rw [validateAt_eq htarget]
    rfl
  case own =>
    intro hlength
    have hself := wf.valueEq_self_of_readValue hread
    have hvalidate : graph.validate .standard (some bindings) type constraint.lexical
        = .ok constraint.value :=
      bind_eq_ok.mpr ⟨(), Error.ofLimit_eq_ok.mpr (if_neg (Nat.not_lt.mpr hlength)), hread⟩
    rw [validateAt_eq htarget]
    exact validateDeclared_eq_ok.mpr ⟨hvalidate, fun _ => hself⟩
  case fixed =>
    intro hkind limits bindings? text value
    rw [validateAt_eq htarget, validateDeclared_eq_ok]
    exact and_congr_right fun _ => forall_prop_of_true hkind
  case mismatch =>
    intro hkind limits bindings? text value hvalidate hne
    refine ⟨.fixed site constraint.value value, ?_, rfl, rfl⟩
    rw [validateAt_eq htarget, validateDeclared_mismatch hkind hvalidate hne]

/-- Only a value in force stands in for a text. -/
theorem exists_target_of_validateAt
    (h : graph.validateAt limits bindings? site handle none = .ok value) :
    ∃ type constraint, graph.target site handle = .ok (type, some constraint) := by
  cases htarget : graph.target site handle with
  | error misuse =>
    match site, htarget, h with
    | .attribute, htarget, h =>
      have htarget : graph.attributeTarget handle = .error misuse := htarget
      rw [validateAt, validateAttribute, htarget] at h
      cases h
    | .element, htarget, h =>
      have htarget : graph.elementTarget handle = .error misuse := htarget
      rw [validateAt, validateElement, htarget] at h
      cases h
  | ok reported =>
    obtain ⟨type, constraint?⟩ := reported
    rw [validateAt_eq htarget] at h
    cases constraint? with
    | none => cases h
    | some constraint => exact ⟨type, constraint, rfl⟩

end Graph

/-! ## Definitions and what they make -/

/-- The definition that a component was made from, if the component keeps all of it. Simple types
do not: they have the facets of their bases too. -/
def Component.definition? : Component → Option Definition
  | .attribute decl => some (.attribute decl.name decl.type (decl.constraint.map (·.stated)))
  | .attributeUse usage =>
    some (.attributeUse usage.decl usage.required (usage.constraint.map (·.stated)))
  | .element decl => some (.element decl.name decl.type (decl.constraint.map (·.stated)))
  | .complexType type => some (.complexType type.name type.content)
  | .simpleType _ => none

namespace Builder

variable {builder : Builder} {definition : Definition} {component : Component} {name : QName}
  {type : Handle} {value? : Option DeclaredValue} {constraint? : Option ValueConstraint}

theorem constraintOf_eq_ok {name : String}
    (h : builder.constraintOf name type value? = .ok constraint?) :
    Option.Rel (builder.graph.Keeps builder.bindings type) value? constraint? := by
  cases value? with
  | none =>
    obtain rfl := by simpa [constraintOf, pure, Except.pure] using h
    exact .none
  | some declared =>
    obtain ⟨value, hvalue, ⟨⟩⟩ := bind_eq_ok.mp h
    exact .some ⟨rfl, readStated_eq_ok.mp hvalue⟩

theorem stated_of_keeps {graph : Graph} {bindings : Bindings}
    (h : Option.Rel (graph.Keeps bindings type) value? constraint?) :
    constraint?.map (·.stated) = value? := by
  cases h with
  | none => rfl
  | some hkeeps => exact congrArg some hkeeps.stated

/-- Declarations and complex types keep their definitions. -/
theorem definition?_of_component (h : builder.component definition = .ok component) :
    component.definition? = some definition ∨ ∃ type, component = .simpleType type := by
  match definition, h with
  | .restriction _ _, h | .list _ _, h | .union _ _, h =>
    obtain ⟨type, -, rfl⟩ := map_eq_ok.mp h
    exact .inr ⟨type, rfl⟩
  | .complexType name content, h =>
    obtain ⟨made, hmade, rfl⟩ := map_eq_ok.mp h
    obtain ⟨-, rfl⟩ := complexType_eq_ok hmade
    exact .inl rfl
  | .attribute name type value?, h =>
    obtain ⟨made, hmade, rfl⟩ := map_eq_ok.mp h
    obtain ⟨-, constraint?, hconstraint, rfl⟩ := attributeDecl_eq_ok hmade
    rw [← stated_of_keeps (constraintOf_eq_ok hconstraint)]
    exact .inl rfl
  | .attributeUse source required value?, h =>
    obtain ⟨made, hmade, rfl⟩ := map_eq_ok.mp h
    obtain ⟨decl, constraint?, -, hconstraint, rfl⟩ := attributeUse_eq_ok hmade
    rw [← stated_of_keeps (constraintOf_eq_ok hconstraint)]
    exact .inl rfl
  | .element name type value?, h =>
    obtain ⟨made, hmade, rfl⟩ := map_eq_ok.mp h
    obtain ⟨-, ⟨content, constraint?, -, hconstraint, rfl⟩ | ⟨rfl, rfl⟩⟩ := elementDecl_eq_ok hmade
    · rw [← stated_of_keeps (constraintOf_eq_ok hconstraint)]
      exact .inl rfl
    · exact .inl rfl

/-! ## Definitions of a run -/

variable {steps : List Step} {handle source content : Handle} {bindings : Bindings}

/-- Whether a step of a run defines the component of a handle. The bindings are those that are in
force at the step. -/
def Defines (steps : List Step) (handle : Handle) (definition : Definition)
    (bindings : Bindings) : Prop :=
  ∃ builder component, Makes steps builder definition component ∧
    builder.graph.next = handle ∧ builder.bindings = bindings

/-- What a value was declared as it still is after the run. -/
theorem Makes.keeps (h : Makes steps builder definition component)
    (hkeeps : Option.Rel (builder.graph.Keeps bindings type) value? constraint?) :
    Option.Rel ((start.run steps).graph.Keeps bindings type) value? constraint? := by
  cases hkeeps with
  | none => exact .none
  | some hkeeps => exact .some ⟨hkeeps.stated, h.readValue_eq_ok hkeeps.read⟩

theorem Defines.attribute (h : Defines steps handle (.attribute name type value?) bindings) :
    ∃ constraint?,
      (start.run steps).graph.component? handle = some (.attribute ⟨name, type, constraint?⟩) ∧
      Option.Rel ((start.run steps).graph.Keeps bindings type) value? constraint? := by
  obtain ⟨builder, component, hmakes, rfl, rfl⟩ := h
  obtain ⟨decl, hdecl, rfl⟩ := map_eq_ok.mp hmakes.component_eq_ok
  obtain ⟨-, constraint?, hconstraint, rfl⟩ := attributeDecl_eq_ok hdecl
  exact ⟨constraint?, hmakes.component?_next, hmakes.keeps (constraintOf_eq_ok hconstraint)⟩

/-- The value of a use is one of the type of the attribute. -/
theorem Defines.attributeUse {required : Bool}
    (h : Defines steps handle (.attributeUse source required value?) bindings) :
    ∃ decl constraint?,
      (start.run steps).graph.component? handle
        = some (.attributeUse ⟨source, required, constraint?⟩) ∧
      (start.run steps).graph.component? source = some (.attribute decl) ∧
      Option.Rel ((start.run steps).graph.Keeps bindings decl.type) value? constraint? := by
  obtain ⟨builder, component, hmakes, rfl, rfl⟩ := h
  obtain ⟨made, hmade, rfl⟩ := map_eq_ok.mp hmakes.component_eq_ok
  obtain ⟨decl, constraint?, hdecl, hconstraint, rfl⟩ := attributeUse_eq_ok hmade
  exact ⟨decl, constraint?, hmakes.component?_next,
    hmakes.extends _ _ (Graph.attribute?_eq_some.mp hdecl),
    hmakes.keeps (constraintOf_eq_ok hconstraint)⟩

/-- The value of an element is one of the type of its content. -/
theorem Defines.element (h : Defines steps handle (.element name type value?) bindings) :
    ∃ constraint?,
      (start.run steps).graph.component? handle = some (.element ⟨name, type, constraint?⟩) ∧
      ∀ content, (start.run steps).graph.contentType? type = some content →
        Option.Rel ((start.run steps).graph.Keeps bindings content) value? constraint? := by
  obtain ⟨builder, component, hmakes, rfl, rfl⟩ := h
  obtain ⟨decl, hdecl, rfl⟩ := map_eq_ok.mp hmakes.component_eq_ok
  obtain ⟨-, ⟨content, constraint?, hcontent, hconstraint, rfl⟩ | ⟨rfl, rfl⟩⟩ :=
    elementDecl_eq_ok hdecl
  · refine ⟨constraint?, hmakes.component?_next, fun later hlater => ?_⟩
    -- The content has the type that it had at the step.
    rw [hmakes.extends.contentType?_eq_some hcontent] at hlater
    obtain rfl := Option.some.inj hlater
    exact hmakes.keeps (constraintOf_eq_ok hconstraint)
  · exact ⟨none, hmakes.component?_next, fun _ _ => .none⟩

theorem Defines.complexType {name : Option QName} {content : Content}
    (h : Defines steps handle (.complexType name content) bindings) :
    (start.run steps).graph.component? handle = some (.complexType ⟨name, content⟩) := by
  obtain ⟨builder, component, hmakes, rfl, rfl⟩ := h
  obtain ⟨made, hmade, rfl⟩ := map_eq_ok.mp hmakes.component_eq_ok
  obtain ⟨-, rfl⟩ := complexType_eq_ok hmade
  exact hmakes.component?_next

/-- What keeps its definition was defined in the run, for the built-in types are simple. -/
theorem exists_defines (h : (start.run steps).graph.component? handle = some component)
    (hdefinition : component.definition? = some definition) :
    ∃ bindings, Defines steps handle definition bindings := by
  have hnew : Graph.builtins.size ≤ handle.index := by
    by_contra hlt
    have hstart := (run_extends start steps).component?_eq (not_le.mp hlt)
    rw [h] at hstart
    have hbuiltin : Graph.builtins.component? handle = some component := hstart.symm
    rw [Graph.builtins_component?] at hbuiltin
    obtain ⟨type, -, rfl⟩ := Option.map_eq_some_iff.mp hbuiltin
    cases hdefinition
  obtain ⟨builder, made, hmakes, hnext⟩ := exists_makes h hnew
  rcases definition?_of_component hmakes.component_eq_ok with hmade | ⟨type, rfl⟩
  · rw [hdefinition] at hmade
    obtain rfl := Option.some.inj hmade
    exact ⟨builder.bindings, builder, component, hmakes, hnext, rfl⟩
  · cases hdefinition

/-! ## Values in force -/

/-- The simple type of what stands in elements of a type: of a simple type the type itself, and of
a complex type the one that its definition states. -/
inductive HasContent (steps : List Step) : Handle → Handle → Prop
  | simple {type : Handle}
      (hsimple : ((start.run steps).graph.simpleType? type).isSome = true) :
      HasContent steps type type
  | complex {type content : Handle} {name : Option QName} {bindings : Bindings}
      (hdefines : Defines steps type (.complexType name (.simple content)) bindings) :
      HasContent steps type content

/-- Which declared value is in force at a site, for values of which type, and the bindings under
which it was declared. An attribute and an element have the value of their definitions. A use of
an attribute has its own, or else that of the attribute. -/
inductive InForce (steps : List Step) :
    Site → Handle → Handle → DeclaredValue → Bindings → Prop
  | ofAttribute {handle type : Handle} {name : QName} {declared : DeclaredValue}
      {bindings : Bindings}
      (hdefines : Defines steps handle (.attribute name type (some declared)) bindings) :
      InForce steps .attribute handle type declared bindings
  | ofUse {handle source type : Handle} {name : QName} {required : Bool}
      {value? : Option DeclaredValue} {declared : DeclaredValue} {bindings earlier : Bindings}
      (hdefines : Defines steps handle (.attributeUse source required (some declared)) bindings)
      (hsource : Defines steps source (.attribute name type value?) earlier) :
      InForce steps .attribute handle type declared bindings
  | inherited {handle source type : Handle} {name : QName} {required : Bool}
      {declared : DeclaredValue} {bindings later : Bindings}
      (hdefines : Defines steps handle (.attributeUse source required none) later)
      (hsource : Defines steps source (.attribute name type (some declared)) bindings) :
      InForce steps .attribute handle type declared bindings
  | ofElement {handle type content : Handle} {name : QName} {declared : DeclaredValue}
      {bindings : Bindings}
      (hdefines : Defines steps handle (.element name type (some declared)) bindings)
      (hcontent : HasContent steps type content) :
      InForce steps .element handle content declared bindings

theorem hasContent_iff :
    HasContent steps type content ↔ (start.run steps).graph.contentType? type = some content := by
  constructor
  · rintro (hsimple | hdefines)
    · obtain ⟨simple, hsimple⟩ := Option.isSome_iff_exists.mp hsimple
      rw [Graph.contentType?, Graph.simpleType?_eq_some.mp hsimple]
    · rw [Graph.contentType?, hdefines.complexType]
  · intro h
    unfold Graph.contentType? at h
    split at h
    case h_1 hcomponent =>
      obtain rfl := Option.some.inj h
      exact .simple (Option.isSome_of_eq_some (Graph.simpleType?_eq_some.mpr hcomponent))
    case h_2 hcomponent =>
      obtain rfl := Option.some.inj h
      obtain ⟨bindings, hdefines⟩ := exists_defines hcomponent rfl
      exact .complex hdefines
    case h_3 => cases h

variable {site : Site} {declared : DeclaredValue} {constraint : ValueConstraint}

/-- The graph of a run has the value in force for a site, as it was declared. -/
theorem InForce.exists_target (h : InForce steps site handle type declared bindings) :
    ∃ constraint, (start.run steps).graph.target site handle = .ok (type, some constraint) ∧
      (start.run steps).graph.Keeps bindings type declared constraint := by
  cases h with
  | ofAttribute hdefines =>
    obtain ⟨_, hcomponent, @⟨_, constraint, hkeeps⟩⟩ := hdefines.attribute
    exact ⟨constraint, Graph.attributeTarget_eq_ok.mpr (.inl ⟨_, hcomponent, rfl, rfl⟩), hkeeps⟩
  | ofUse hdefines hsource =>
    obtain ⟨decl, _, hcomponent, hdecl, @⟨_, constraint, hkeeps⟩⟩ := hdefines.attributeUse
    obtain ⟨_, hattribute, -⟩ := hsource.attribute
    obtain rfl := Component.attribute.inj (Option.some.inj (hdecl.symm.trans hattribute))
    exact ⟨constraint,
      Graph.attributeTarget_eq_ok.mpr (.inr ⟨_, _, hcomponent, hattribute, rfl, rfl⟩), hkeeps⟩
  | inherited hdefines hsource =>
    obtain ⟨decl, _, hcomponent, hdecl, ⟨⟩⟩ := hdefines.attributeUse
    obtain ⟨_, hattribute, @⟨_, constraint, hkeeps⟩⟩ := hsource.attribute
    exact ⟨constraint,
      Graph.attributeTarget_eq_ok.mpr (.inr ⟨_, _, hcomponent, hattribute, rfl, rfl⟩), hkeeps⟩
  | ofElement hdefines hcontent =>
    obtain ⟨_, hcomponent, hvalue⟩ := hdefines.element
    rw [hasContent_iff] at hcontent
    obtain @⟨_, constraint, hkeeps⟩ := hvalue _ hcontent
    exact ⟨constraint, Graph.elementTarget_eq_ok.mpr ⟨_, hcomponent, hcontent, rfl⟩, hkeeps⟩

/-- What the graph of a run has for a site has been declared. -/
theorem exists_inForce
    (h : (start.run steps).graph.target site handle = .ok (type, some constraint)) :
    ∃ bindings, InForce steps site handle type constraint.stated bindings := by
  match site, h with
  | .attribute, h =>
    rcases Graph.attributeTarget_eq_ok.mp h with ⟨⟨name, _, _⟩, hcomponent, rfl, rfl⟩ |
      ⟨⟨source, required, own?⟩, ⟨name, _, _⟩, hcomponent, hattribute, rfl, hvalue⟩
    · obtain ⟨bindings, hdefines⟩ := exists_defines hcomponent rfl
      exact ⟨bindings, .ofAttribute hdefines⟩
    · obtain ⟨bindings, hdefines⟩ := exists_defines hcomponent rfl
      obtain ⟨earlier, hsource⟩ := exists_defines hattribute rfl
      cases own? with
      | none =>
        obtain rfl := hvalue
        exact ⟨earlier, .inherited hdefines hsource⟩
      | some own =>
        obtain rfl := Option.some.inj hvalue
        exact ⟨bindings, .ofUse hdefines hsource⟩
  | .element, h =>
    obtain ⟨⟨name, _, _⟩, hcomponent, hcontent, rfl⟩ := Graph.elementTarget_eq_ok.mp h
    obtain ⟨bindings, hdefines⟩ := exists_defines hcomponent rfl
    exact ⟨bindings, .ofElement hdefines (hasContent_iff.mpr hcontent)⟩

/-- The graph of a run has a value for a site if and only if it is the value in force there, read
under the bindings of its definition. -/
theorem target_eq_ok_iff :
    (start.run steps).graph.target site handle = .ok (type, some constraint) ↔
      ∃ bindings, InForce steps site handle type constraint.stated bindings ∧
        (start.run steps).graph.readValue .standard (some bindings) type constraint.lexical
          = .ok constraint.value := by
  constructor
  · intro h
    obtain ⟨bindings, hforce⟩ := exists_inForce h
    obtain ⟨same, htarget, hkeeps⟩ := hforce.exists_target
    rw [h] at htarget
    obtain rfl : constraint = same := by simpa using htarget
    exact ⟨bindings, hforce, hkeeps.read⟩
  · rintro ⟨bindings, hforce, hread⟩
    obtain ⟨⟨kind, text, value⟩, htarget, hstated, hread'⟩ := hforce.exists_target
    obtain ⟨kind', text', value'⟩ := constraint
    obtain ⟨rfl, rfl⟩ := DeclaredValue.mk.inj hstated
    obtain rfl : value = value' := Except.ok.inj (hread'.symm.trans hread)
    exact htarget

/-! ## Runs -/

/-- Every declaration in the graph of a run behaves as the value in force says, and no other
value stands in for a text. -/
theorem run_followsValue (steps : List Step) :
    (∀ site handle type declared bindings, InForce steps site handle type declared bindings →
      ∃ required,
        (start.run steps).graph.FollowsValue site handle type declared bindings required) ∧
    ∀ site handle limits bindings? value,
      (start.run steps).graph.validateAt limits bindings? site handle none = .ok value →
        ∃ type declared bindings, InForce steps site handle type declared bindings := by
  constructor
  · intro site handle type declared bindings hforce
    obtain ⟨constraint, htarget, hkeeps⟩ := hforce.exists_target
    exact ⟨constraint.value, (run_wellFormed steps).followsValue htarget hkeeps⟩
  · intro site handle limits bindings? value hvalue
    obtain ⟨type, constraint, htarget⟩ := Graph.exists_target_of_validateAt hvalue
    obtain ⟨bindings, hforce⟩ := exists_inForce htarget
    exact ⟨type, constraint.stated, bindings, hforce⟩

/-- The bindings of a prefix to a namespace. -/
def bindingsOf (uri : String) : Bindings := .ofPairs [(some "p", uri)]

/-- An attribute with a fixed qualified name, and under other bindings a use of it and an element
with the same text, whose type is a complex one. -/
def fixedKinds : List Step := [
  .setBindings (bindingsOf "urn:a"),
  .define (.attribute ⟨none, "kind"⟩ (Builtin.primitive .qName).handle (some ⟨.fixed, "p:x"⟩)),
  .define (.complexType none (.simple (Builtin.primitive .qName).handle)),
  .setBindings (bindingsOf "urn:b"),
  .define (.attributeUse ⟨45⟩ false none),
  .define (.element ⟨none, "kind"⟩ ⟨46⟩ (some ⟨.fixed, "p:x"⟩))]

/-- The fixed name in a namespace. -/
def kindIn (uri : String) : TypedValue :=
  .atomic ⟨.qName ⟨some uri, "x", some "p"⟩, (Builtin.primitive .qName).handle, .qName⟩

theorem defines_of_isOk (before after : List Step)
    (h : ((start.run before).component definition).isOk = true)
    (hnext : (start.run before).graph.next = handle)
    (hbindings : (start.run before).bindings = bindings) :
    Defines (before ++ .define definition :: after) handle definition bindings := by
  cases hcomponent : (start.run before).component definition with
  | error fault =>
    rw [hcomponent] at h
    cases h
  | ok component => exact ⟨_, component, ⟨before, after, rfl, rfl, hcomponent⟩, hnext, hbindings⟩

/-- The use has the value of the attribute and the element its own. The text is the same, but the
name lies in another namespace. -/
theorem run_followsValue_fixedKinds :
    (start.run fixedKinds).graph.FollowsValue .attribute ⟨47⟩ (Builtin.primitive .qName).handle
        ⟨.fixed, "p:x"⟩ (bindingsOf "urn:a") (kindIn "urn:a") ∧
      (start.run fixedKinds).graph.FollowsValue .element ⟨48⟩ (Builtin.primitive .qName).handle
        ⟨.fixed, "p:x"⟩ (bindingsOf "urn:b") (kindIn "urn:b") := by
  have hattribute : Defines fixedKinds ⟨45⟩ _ (bindingsOf "urn:a") :=
    defines_of_isOk (fixedKinds.take 1) (fixedKinds.drop 2) (by decide +kernel)
      (by decide +kernel) (by decide +kernel)
  have hcomplex : Defines fixedKinds ⟨46⟩ _ (bindingsOf "urn:a") :=
    defines_of_isOk (fixedKinds.take 2) (fixedKinds.drop 3) (by decide +kernel)
      (by decide +kernel) (by decide +kernel)
  have huse : Defines fixedKinds ⟨47⟩ _ (bindingsOf "urn:b") :=
    defines_of_isOk (fixedKinds.take 4) (fixedKinds.drop 5) (by decide +kernel)
      (by decide +kernel) (by decide +kernel)
  have helement : Defines fixedKinds ⟨48⟩ _ (bindingsOf "urn:b") :=
    defines_of_isOk (fixedKinds.take 5) (fixedKinds.drop 6) (by decide +kernel)
      (by decide +kernel) (by decide +kernel)
  have hread : ∀ uri ∈ ["urn:a", "urn:b"],
      (start.run fixedKinds).graph.readValue .standard (some (bindingsOf uri))
        (Builtin.primitive .qName).handle "p:x" = .ok (kindIn uri) := by
    decide +kernel
  obtain ⟨hfollows, -⟩ := run_followsValue fixedKinds
  obtain ⟨required, huse⟩ := hfollows _ _ _ _ _ (.inherited huse hattribute)
  obtain ⟨required', helement⟩ := hfollows _ _ _ _ _ (.ofElement helement (.complex hcomplex))
  obtain rfl := Except.ok.inj (huse.read.symm.trans (hread "urn:a" (by decide)))
  obtain rfl := Except.ok.inj (helement.read.symm.trans (hread "urn:b" (by decide)))
  exact ⟨huse, helement⟩

end Builder

end SimpleTypes
