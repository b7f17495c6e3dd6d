import SimpleTypes.Proofs.Validation.Growth

/-!
# Flat unions

A union that stands in a union as a member counts as its own members in their place, since
a text goes to the first type that accepts it. Only an enumeration of the inner union makes
a difference: it can refuse a value that a member has accepted.

* `Graph.flatMembers`: the types that are no unions, in the order in which a text gets to
  them. A type that stands in several places is in the list several times.
* `SimpleType.FirstDecides`: the result for a text, in terms of the results of these types.
* `WellFormed.readValue_flatMembers`: a union without enumerations reads a text like a union
  of these types.
* `run_validate_flatMembers`: so the first of them that does not find the text invalid
  decides in the graph of every run, and a flat union gives the same result.
-/

namespace SimpleTypes

variable {limits : Limits} {bindings? : Option Bindings} {handle : Handle} {type type' : SimpleType}
  {text : String} {members : List Handle} {readMember : Handle → Except Error TypedValue}

/-! ## Searches -/

/-- A search among more members goes on where the first ones leave no value. -/
theorem firstAccepting?_append_eq (before rest : List Handle) :
    firstAccepting? readMember (before ++ rest) = (do
      match ← firstAccepting? readMember before with
      | some value => return some value
      | none => firstAccepting? readMember rest) := by
  induction before with
  | nil => rfl
  | cons member before ih =>
    simp only [List.cons_append, firstAccepting?]
    cases readMember member with
    | ok value => rfl
    | error error =>
      cases error with
      | invalid cause => exact ih
      | _ => rfl

/-- An invalid text does not end a search. -/
theorem firstAccepting?_ne_invalid (cause : Invalid) :
    firstAccepting? readMember members ≠ .error (.invalid cause) := by
  induction members with
  | nil => rintro ⟨⟩
  | cons member rest ih =>
    simp only [firstAccepting?]
    cases readMember member with
    | ok value => rintro ⟨⟩
    | error error =>
      cases error with
      | invalid cause => exact ih
      | _ => rintro ⟨⟩

/-- Without an enumeration a union that is asked as a member makes the same difference as
its own members in its place. -/
theorem firstAccepting?_union {union : Handle} (henum : type.facets.enumeration = none)
    (hunion : readMember union = readUnion type members readMember text) (rest : List Handle) :
    firstAccepting? readMember (union :: rest) = firstAccepting? readMember (members ++ rest) := by
  rw [firstAccepting?_append_eq, firstAccepting?, hunion, readUnion]
  cases hfound : firstAccepting? readMember members with
  | error error =>
    cases error with
    | invalid cause => exact absurd hfound (firstAccepting?_ne_invalid cause)
    | _ => rfl
  | ok found =>
    cases found with
    | none => rfl
    | some value =>
      simp only [bind, Except.bind, FacetSet.checkEnumeration_of_eq_none henum value]
      rfl

/-- Each member can be replaced by others that make the same difference. -/
theorem firstAccepting?_flatMap {parts : Handle → List Handle}
    (h : ∀ member ∈ members, ∀ rest, firstAccepting? readMember (member :: rest)
      = firstAccepting? readMember (parts member ++ rest)) (rest : List Handle) :
    firstAccepting? readMember (members ++ rest)
      = firstAccepting? readMember (members.flatMap parts ++ rest) := by
  induction members with
  | nil => rfl
  | cons member others ih =>
    obtain ⟨hmember, hothers⟩ := List.forall_mem_cons.mp h
    calc firstAccepting? readMember (member :: (others ++ rest))
      _ = firstAccepting? readMember (member :: (others.flatMap parts ++ rest)) := by
        simp only [firstAccepting?, ih hothers]
      _ = firstAccepting? readMember (parts member ++ (others.flatMap parts ++ rest)) :=
        hmember _
      _ = firstAccepting? readMember ((member :: others).flatMap parts ++ rest) := by
        rw [List.flatMap_cons, List.append_assoc]

/-! ## What decides -/

/-- What a text is under a union, if its types read it as `readMember` says.

* `accepts`: the first type that does not find the text invalid gives the value.
* `stops`: it can also fail in another way, and then the union fails like it.
* `refuses`: if all types find the text invalid, the union does so in its own name. -/
structure SimpleType.FirstDecides (type : SimpleType) (readMember : Handle → Except Error TypedValue)
    (members : List Handle) (text : String) (result : Except Error TypedValue) : Prop where
  accepts : ∀ before member after value, members = before ++ member :: after →
    (∀ passed ∈ before, Rejects (readMember passed)) → readMember member = .ok value →
    result = .ok value
  stops : ∀ before member after error, members = before ++ member :: after →
    (∀ passed ∈ before, Rejects (readMember passed)) → readMember member = .error error →
    (∀ cause, error ≠ .invalid cause) → result = .error error
  refuses : (∀ member ∈ members, Rejects (readMember member)) →
    result = .error (.invalid (.union type.displayName text))

/-- The first member that does not find the text invalid decides for a union without an
enumeration. -/
theorem firstDecides_readUnion (henum : type.facets.enumeration = none) :
    type.FirstDecides readMember members text (readUnion type members readMember text) := by
  refine ⟨?_, ?_, ?_⟩
  · rintro before member after value rfl hbefore hmember
    refine readUnion_eq_ok.mpr ⟨?_, FacetSet.checkEnumeration_of_eq_none henum value⟩
    rw [firstAccepting?_append hbefore, firstAccepting?, hmember]
  · rintro before member after error rfl hbefore hmember herror
    rw [readUnion, firstAccepting?_append hbefore, firstAccepting?, hmember]
    cases error with
    | invalid cause => exact absurd rfl (herror cause)
    | _ => rfl
  · intro hall
    have hnone : firstAccepting? readMember members = .ok none := by
      rw [← List.append_nil members]
      exact firstAccepting?_append hall
    rw [readUnion, hnone]
    rfl

/-- Of the union itself only its name and its enumeration count. -/
theorem readUnion_congr_type (hname : type.name = type'.name)
    (henum : type.facets.enumeration = type'.facets.enumeration) :
    readUnion type members readMember text = readUnion type' members readMember text := by
  simp only [readUnion, SimpleType.displayName, FacetSet.checkEnumeration, hname, henum]

/-! ## Types in the order in which they are asked -/

namespace Graph

variable {graph : Graph}

/-- The types that are no unions and stand in a type, as the type itself or as members at
any depth, from the first to the last. The walk goes down the handles. -/
def flatMembers (graph : Graph) (handle : Handle) : List Handle :=
  match graph.simpleType? handle with
  | some { variety := .union members, .. } =>
    members.flatMap (fun member =>
      if member.index < handle.index then graph.flatMembers member else [])
  | _ => [handle]
termination_by handle.index

/-- Whether no union that stands in a type, as the type itself or as a member at any depth,
has an enumeration. -/
def IsUnenumerated (graph : Graph) (handle : Handle) : Prop :=
  ∀ part type members, graph.ReachesMember handle part → graph.simpleType? part = some type →
    type.variety = .union members → type.facets.enumeration = none

theorem IsUnenumerated.enumeration (h : graph.IsUnenumerated handle)
    (htype : graph.simpleType? handle = some type) (hvariety : type.variety = .union members) :
    type.facets.enumeration = none :=
  h handle type members .refl htype hvariety

theorem IsUnenumerated.member {member : Handle} (h : graph.IsUnenumerated handle)
    (hmember : graph.HasMember handle member) : graph.IsUnenumerated member :=
  fun part type members hreach => h part type members (.head hmember hreach)

/-- A union has no enumerations if it has none itself and its members have none. -/
theorem isUnenumerated_iff (htype : graph.simpleType? handle = some type) :
    graph.IsUnenumerated handle ↔
      match type.variety with
      | .atomic _ | .list _ => True
      | .union members =>
        type.facets.enumeration = none ∧ ∀ member ∈ members, graph.IsUnenumerated member := by
  constructor
  · intro h
    cases hvariety : type.variety with
    | atomic | list => trivial
    | union members =>
      exact ⟨h.enumeration htype hvariety,
        fun member hmember => h.member ⟨type, members, htype, hvariety, hmember⟩⟩
  · intro h part partType partMembers hreach hpart hunion
    rcases (reachesMember_iff htype).mp hreach with rfl | ⟨members, hvariety, member, hmember, hrest⟩
    · obtain rfl : type = partType := Option.some.inj (htype.symm.trans hpart)
      rw [hunion] at h
      exact h.1
    · rw [hvariety] at h
      exact h.2 member hmember part partType partMembers hrest hpart hunion

theorem flatMembers_of_not_union (htype : graph.simpleType? handle = some type)
    (hsingle : ∀ members, type.variety ≠ .union members) : graph.flatMembers handle = [handle] := by
  rw [flatMembers, htype]
  obtain ⟨name, base, variety, builtin, rule, facets⟩ := type
  cases variety with
  | atomic | list => rfl
  | union members => exact absurd rfl (hsingle members)

namespace WellFormed

/-- The types in a union are those in its members, one member after the other. -/
theorem flatMembers_union (wf : graph.WellFormed) (htype : graph.simpleType? handle = some type)
    (hvariety : type.variety = .union members) :
    graph.flatMembers handle = members.flatMap graph.flatMembers := by
  obtain ⟨-, hparts⟩ := wf.union_parts htype hvariety
  rw [flatMembers, htype]
  obtain ⟨name, base, variety, builtin, rule, facets⟩ := type
  obtain rfl : variety = .union members := hvariety
  -- The tests of the handles in the walk never fail.
  exact List.flatMap_congr fun member hmember => if_pos (hparts member hmember).1

/-- The list has the types that are no unions and stand in a type, and no others. -/
theorem mem_flatMembers_iff (wf : graph.WellFormed)
    (hsimple : (graph.simpleType? handle).isSome = true) {part : Handle} :
    part ∈ graph.flatMembers handle ↔ graph.ReachesMember handle part ∧
      ∃ type, graph.simpleType? part = some type ∧ ∀ members, type.variety ≠ .union members := by
  refine wf.member_induction (P := fun handle => part ∈ graph.flatMembers handle ↔
    graph.ReachesMember handle part ∧ ∃ type, graph.simpleType? part = some type ∧
      ∀ members, type.variety ≠ .union members) ?_ ?_ hsimple
  · intro handle type htype hsingle
    rw [flatMembers_of_not_union htype hsingle, List.mem_singleton, reachesMember_iff htype]
    constructor
    · rintro rfl
      exact ⟨.inl rfl, type, htype, hsingle⟩
    · rintro ⟨rfl | ⟨members, hvariety, -⟩, -⟩
      · rfl
      · exact absurd hvariety (hsingle members)
  · intro handle type members htype hvariety _ ih
    rw [wf.flatMembers_union htype hvariety, List.mem_flatMap, reachesMember_iff htype]
    constructor
    · rintro ⟨member, hmember, hpart⟩
      obtain ⟨hreach, hsingle⟩ := (ih member hmember).mp hpart
      exact ⟨.inr ⟨members, hvariety, member, hmember, hreach⟩, hsingle⟩
    · rintro ⟨rfl | ⟨members', hvariety', member, hmember, hreach⟩, hsingle⟩
      · obtain ⟨type', htype', hnot⟩ := hsingle
        obtain rfl : type = type' := Option.some.inj (htype.symm.trans htype')
        exact absurd hvariety (hnot members)
      · obtain rfl : members = members' := by simpa [hvariety] using hvariety'
        exact ⟨member, hmember, (ih member hmember).mpr ⟨hreach, hsingle⟩⟩

theorem isSimple_of_mem_flatMembers (wf : graph.WellFormed)
    (hsimple : (graph.simpleType? handle).isSome = true) {part : Handle}
    (h : part ∈ graph.flatMembers handle) : (graph.simpleType? part).isSome = true := by
  obtain ⟨-, type, htype, -⟩ := (wf.mem_flatMembers_iff hsimple).mp h
  exact Option.isSome_of_eq_some htype

/-- No union is empty. -/
theorem flatMembers_ne_nil (wf : graph.WellFormed)
    (hsimple : (graph.simpleType? handle).isSome = true) : graph.flatMembers handle ≠ [] := by
  refine wf.member_induction (P := fun handle => graph.flatMembers handle ≠ []) ?_ ?_ hsimple
  · intro handle type htype hsingle
    rw [flatMembers_of_not_union htype hsingle]
    exact List.cons_ne_nil handle []
  · intro handle type members htype hvariety hne ih hempty
    rw [wf.flatMembers_union htype hvariety, List.flatMap_eq_nil_iff] at hempty
    obtain ⟨member, hmember⟩ := List.exists_mem_of_ne_nil members hne
    exact ih member hmember (hempty member hmember)

/-! ## Reading -/

/-- A member makes the same difference as the types that stand in it. -/
theorem firstAccepting?_flatMembers (wf : graph.WellFormed)
    (hsimple : (graph.simpleType? handle).isSome = true) (hplain : graph.IsUnenumerated handle)
    (rest : List Handle) :
    firstAccepting? (graph.readValue limits bindings? · text) (handle :: rest)
      = firstAccepting? (graph.readValue limits bindings? · text)
          (graph.flatMembers handle ++ rest) := by
  refine wf.member_induction (P := fun handle => graph.IsUnenumerated handle → ∀ rest,
    firstAccepting? (graph.readValue limits bindings? · text) (handle :: rest)
      = firstAccepting? (graph.readValue limits bindings? · text)
          (graph.flatMembers handle ++ rest)) ?_ ?_ hsimple hplain rest
  · intro handle type htype hsingle _ rest
    rw [flatMembers_of_not_union htype hsingle]
    rfl
  · intro handle type members htype hvariety _ ih hplain rest
    have hread : graph.readValue limits bindings? handle text
        = readUnion type members (graph.readValue limits bindings? · text) text := by
      rw [wf.readValue_eq htype, hvariety]
    rw [firstAccepting?_union (hplain.enumeration htype hvariety) hread,
      wf.flatMembers_union htype hvariety]
    refine firstAccepting?_flatMap ?_ rest
    intro member hmember
    exact ih member hmember (hplain.member ⟨type, members, htype, hvariety, hmember⟩)

/-- A union without enumerations reads a text like a union of the types that stand in it. -/
theorem readValue_flatMembers (wf : graph.WellFormed) (htype : graph.simpleType? handle = some type)
    (hvariety : type.variety = .union members) (hplain : graph.IsUnenumerated handle) :
    graph.readValue limits bindings? handle text
      = readUnion type (graph.flatMembers handle) (graph.readValue limits bindings? · text) text := by
  obtain ⟨-, hparts⟩ := wf.union_parts htype hvariety
  have hsearch : firstAccepting? (graph.readValue limits bindings? · text) (members ++ [])
      = firstAccepting? (graph.readValue limits bindings? · text)
          (members.flatMap graph.flatMembers ++ []) := by
    refine firstAccepting?_flatMap ?_ []
    intro member hmember
    exact wf.firstAccepting?_flatMembers (hparts member hmember).2
      (hplain.member ⟨type, members, htype, hvariety, hmember⟩)
  rw [List.append_nil, List.append_nil, ← wf.flatMembers_union htype hvariety] at hsearch
  rw [wf.readValue_eq htype, hvariety]
  simp only [readUnion, hsearch]

/-- A flat union of the same name reads a text in the same way. It may come later. -/
theorem readValue_flat (wf : graph.WellFormed) (htype : graph.simpleType? handle = some type)
    (hvariety : type.variety = .union members) (hplain : graph.IsUnenumerated handle)
    {later : Graph} (wfLater : later.WellFormed) (hext : later.Extends graph) {flat : Handle}
    (hflat : later.simpleType? flat = some type') (hname : type'.name = type.name)
    (hmembers : type'.variety = .union (graph.flatMembers handle))
    (henum : type'.facets.enumeration = none) :
    later.readValue limits bindings? flat text = graph.readValue limits bindings? handle text := by
  have hsimple := Option.isSome_of_eq_some htype
  rw [wf.readValue_flatMembers htype hvariety hplain, wfLater.readValue_eq hflat, hmembers]
  simp only
  rw [readUnion_congr_type hname (henum.trans (hplain.enumeration htype hvariety).symm)]
  refine readUnion_congr ?_
  intro member hmember
  have hlt := index_lt_of_simpleType? (wf.isSimple_of_mem_flatMembers hsimple hmember)
  rw [hext.readValue_eq wf wfLater hlt]

end WellFormed

end Graph

/-! ## Runs -/

namespace Builder

/-- The step that defines a flat union, of a given name, of the types that stand in a type. -/
def flattening (graph : Graph) (handle : Handle) (name : Option QName) : Step :=
  .define (.union name (graph.flatMembers handle))

/-- The types that stand in a type can be put into a flat union. -/
theorem makes_flattening (steps : List Step) (name : Option QName)
    (hsimple : ((start.run steps).graph.simpleType? handle).isSome = true) :
    ∃ flat : SimpleType, Makes (steps ++ [flattening (start.run steps).graph handle name])
        (start.run steps) (.union name ((start.run steps).graph.flatMembers handle))
        (.simpleType flat) ∧
      flat.name = name ∧ flat.variety = .union ((start.run steps).graph.flatMembers handle) ∧
      flat.facets.enumeration = none := by
  have wf := run_wellFormed steps
  have hflat : (start.run steps).unionType name ((start.run steps).graph.flatMembers handle)
      = .ok _ := unionType_eq_ok.mpr
    ⟨wf.flatMembers_ne_nil hsimple, fun _ => wf.isSimple_of_mem_flatMembers hsimple, rfl⟩
  exact ⟨_, ⟨steps, [], rfl, rfl, map_eq_ok.mpr ⟨_, hflat, rfl⟩⟩, rfl, rfl, rfl⟩

/-- In the graph of every run the first type in a union without enumerations that does not
find a text invalid decides what the text is, however deep the type stands. So any flat union
of the same types and name gives the same result, and the next step can define one. -/
theorem run_validate_flatMembers (steps : List Step)
    (htype : (start.run steps).graph.simpleType? handle = some type)
    (hvariety : type.variety = .union members)
    (hplain : (start.run steps).graph.IsUnenumerated handle)
    (hlength : text.length ≤ limits.lexicalLength) :
    type.FirstDecides ((start.run steps).graph.validate limits bindings? · text)
        ((start.run steps).graph.flatMembers handle) text
        ((start.run steps).graph.validate limits bindings? handle text) ∧
      (∀ flat flatType, (start.run steps).graph.simpleType? flat = some flatType →
        flatType.name = type.name →
        flatType.variety = .union ((start.run steps).graph.flatMembers handle) →
        flatType.facets.enumeration = none →
        (start.run steps).graph.validate limits bindings? flat text
          = (start.run steps).graph.validate limits bindings? handle text) ∧
      (start.run (steps ++ [flattening (start.run steps).graph handle type.name])).graph.validate
          limits bindings? (start.run steps).graph.next text
        = (start.run steps).graph.validate limits bindings? handle text := by
  have wf := run_wellFormed steps
  simp only [Graph.validate_eq_readValue hlength]
  refine ⟨?_, ?_, ?_⟩
  · rw [wf.readValue_flatMembers htype hvariety hplain]
    exact firstDecides_readUnion (hplain.enumeration htype hvariety)
  · intro flat flatType hflat hname hmembers henum
    exact wf.readValue_flat htype hvariety hplain wf (.refl _) hflat hname hmembers henum
  · obtain ⟨flatType, hmakes, hname, hmembers, henum⟩ :=
      makes_flattening steps type.name (Option.isSome_of_eq_some htype)
    exact wf.readValue_flat htype hvariety hplain (run_wellFormed _) hmakes.extends
      (Graph.simpleType?_eq_some.mpr hmakes.component?_next) hname hmembers henum

/-- A union of a union and of strings. The inner union has another one as a member twice. -/
def nestedAmounts : List Step := [
  .define (.union none [(Builtin.primitive .boolean).handle, (Builtin.primitive .decimal).handle]),
  .define (.union none [⟨45⟩, (Builtin.primitive .duration).handle, ⟨45⟩]),
  .define (.union (some ⟨none, "amount"⟩) [⟨46⟩, (Builtin.primitive .string).handle])]

/-- The inner union refuses `yes`, so that it becomes a string. But a number with too many
digits never gets there. -/
theorem run_validate_flatMembers_nestedAmounts :
    (start.run nestedAmounts).graph.flatMembers ⟨47⟩ = [⟨2⟩, ⟨3⟩, ⟨6⟩, ⟨2⟩, ⟨3⟩, ⟨1⟩] ∧
      (start.run nestedAmounts).graph.IsUnenumerated ⟨47⟩ ∧
      (start.run nestedAmounts).graph.validate .standard none ⟨47⟩ "yes"
        = .ok (.atomic ⟨.string "yes", ⟨1⟩, .string⟩) ∧
      (start.run nestedAmounts).graph.validate { Limits.standard with decimalDigits := 3 } none ⟨47⟩
        "1234" = .error (.limit (.decimalDigits 4 3)) := by
  have hflat : (start.run nestedAmounts).graph.flatMembers ⟨47⟩
      = [⟨2⟩, ⟨3⟩, ⟨6⟩, ⟨2⟩, ⟨3⟩, ⟨1⟩] := by decide +kernel
  have hprimitive (source : Primitive) :
      (start.run nestedAmounts).graph.IsUnenumerated (Builtin.primitive source).handle := by
    rw [Graph.isUnenumerated_iff ((run_wellFormed nestedAmounts).builtins (.primitive source))]
    trivial
  have hunion (handle : Handle) (members : List Handle)
      (h : ((start.run nestedAmounts).graph.simpleType? handle).map
        (fun type => (type.variety, type.facets.enumeration)) = some (.union members, none))
      (hmembers : ∀ member ∈ members, (start.run nestedAmounts).graph.IsUnenumerated member) :
      (start.run nestedAmounts).graph.IsUnenumerated handle := by
    obtain ⟨type, htype, hknown⟩ := Option.map_eq_some_iff.mp h
    obtain ⟨hvariety, henum⟩ := Prod.mk.inj hknown
    rw [Graph.isUnenumerated_iff htype, hvariety]
    exact ⟨henum, hmembers⟩
  have hone := hunion ⟨45⟩ [(Builtin.primitive .boolean).handle, (Builtin.primitive .decimal).handle]
    (by decide +kernel) (by simp [hprimitive])
  have htwo := hunion ⟨46⟩ [⟨45⟩, (Builtin.primitive .duration).handle, ⟨45⟩]
    (by decide +kernel) (by simp [hprimitive, hone])
  have hplain := hunion ⟨47⟩ [⟨46⟩, (Builtin.primitive .string).handle]
    (by decide +kernel) (by simp [hprimitive, htwo])
  have hmap : ((start.run nestedAmounts).graph.simpleType? ⟨47⟩).map SimpleType.variety
      = some (.union [⟨46⟩, (Builtin.primitive .string).handle]) := by decide +kernel
  obtain ⟨type, htype, hvariety⟩ := Option.map_eq_some_iff.mp hmap
  have hdecides (limits : Limits) (text : String) (hlength : text.length ≤ limits.lexicalLength) :
      type.FirstDecides ((start.run nestedAmounts).graph.validate limits none · text)
        [⟨2⟩, ⟨3⟩, ⟨6⟩, ⟨2⟩, ⟨3⟩, ⟨1⟩] text
        ((start.run nestedAmounts).graph.validate limits none ⟨47⟩ text) := by
    rw [← hflat]
    exact (run_validate_flatMembers nestedAmounts htype hvariety hplain hlength).1
  refine ⟨hflat, hplain, ?_, ?_⟩
  · refine (hdecides .standard "yes" (by decide)).accepts [⟨2⟩, ⟨3⟩, ⟨6⟩, ⟨2⟩, ⟨3⟩] ⟨1⟩ [] _ rfl ?_
      (by decide +kernel)
    have hboolean : Rejects ((start.run nestedAmounts).graph.validate .standard none ⟨2⟩ "yes") :=
      ⟨.lexical .boolean "yes", by decide +kernel⟩
    have hdecimal : Rejects ((start.run nestedAmounts).graph.validate .standard none ⟨3⟩ "yes") :=
      ⟨.lexical .decimal "yes", by decide +kernel⟩
    have hduration : Rejects ((start.run nestedAmounts).graph.validate .standard none ⟨6⟩ "yes") :=
      ⟨.lexical .duration "yes", by decide +kernel⟩
    simp [hboolean, hdecimal, hduration]
  · refine (hdecides { Limits.standard with decimalDigits := 3 } "1234" (by decide)).stops [⟨2⟩] ⟨3⟩
      [⟨6⟩, ⟨2⟩, ⟨3⟩, ⟨1⟩] _ rfl ?_ (by decide +kernel) (by rintro _ ⟨⟩)
    exact List.forall_mem_singleton.mpr ⟨.lexical .boolean "1234", by decide +kernel⟩

end Builder

end SimpleTypes
