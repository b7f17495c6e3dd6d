import Mathlib.Data.List.Forall2
import SimpleTypes.Lexical

/-!
# Outcomes

When a sequence of steps that can fail gives a result.

* `bind_eq_ok`, `map_eq_ok` and `mapM_eq_ok` take a success apart into the
  successes of its steps.
* `FailsWith`: the errors that a result can be have a property.
* `Gives`: a result that only a limit can withhold.
* `Parallel`: two results that succeed together or fail together.
-/

namespace SimpleTypes

variable {ε α β : Type}

/-! ## Successes -/

theorem bind_eq_ok {x : Except ε α} {f : α → Except ε β} {b : β} :
    (x >>= f) = .ok b ↔ ∃ a, x = .ok a ∧ f a = .ok b := by
  cases x <;> simp [bind, Except.bind]

/-- A test comes before the rest. -/
theorem then_eq_ok {x : Except ε Unit} {f : Unit → Except ε β} {b : β} :
    (x >>= f) = .ok b ↔ x = .ok () ∧ f () = .ok b := by
  cases x <;> simp [bind, Except.bind]

theorem then_eq_error {x : Except ε Unit} {f : Unit → Except ε β} {error : ε} :
    (x >>= f) = .error error ↔ x = .error error ∨ x = .ok () ∧ f () = .error error := by
  cases x <;> simp [bind, Except.bind]

theorem map_eq_ok {x : Except ε α} {f : α → β} {b : β} :
    f <$> x = .ok b ↔ ∃ a, x = .ok a ∧ f a = b := by
  cases x <;> simp [Functor.map, Except.map]

theorem exists_map_eq_ok {x : Except ε α} {f : α → β} :
    (∃ b, f <$> x = .ok b) ↔ ∃ a, x = .ok a := by
  cases x <;> simp [Functor.map, Except.map]

/-- A list of steps succeeds if each step does. -/
theorem mapM_eq_ok {f : α → Except ε β} {as : List α} {bs : List β} :
    as.mapM f = .ok bs ↔ List.Forall₂ (fun a b => f a = .ok b) as bs := by
  induction as generalizing bs with
  | nil => simp [pure, Except.pure, eq_comm]
  | cons a as ih =>
    simp only [List.mapM_cons, bind_eq_ok, ih, pure, Except.pure, Except.ok.injEq]
    constructor
    · rintro ⟨b, hb, bs', hbs, rfl⟩
      exact .cons hb hbs
    · rintro (_ | ⟨hb, hbs⟩)
      exact ⟨_, hb, _, hbs, rfl⟩

theorem mapM_congr {f g : α → Except ε β} {as : List α} (h : ∀ a ∈ as, f a = g a) :
    as.mapM f = as.mapM g := by
  induction as with
  | nil => rfl
  | cons a as ih =>
    obtain ⟨ha, has⟩ := List.forall_mem_cons.mp h
    rw [List.mapM_cons, List.mapM_cons, ha, ih has]

/-- The first step that fails makes a list of steps fail. -/
theorem mapM_eq_error_of_first {f : α → Except ε β} {before after : List α} {a : α} {error : ε}
    (hbefore : ∀ passed ∈ before, ∃ b, f passed = .ok b) (ha : f a = .error error) :
    (before ++ a :: after).mapM f = .error error := by
  induction before with
  | nil =>
    rw [List.nil_append, List.mapM_cons, ha]
    rfl
  | cons passed before ih =>
    obtain ⟨⟨b, hb⟩, hbefore⟩ := List.forall_mem_cons.mp hbefore
    rw [List.cons_append, List.mapM_cons, hb, ih hbefore]
    rfl

/-- Each element on the right stands opposite one on the left. -/
theorem exists_mem_of_forall₂ {R : α → β → Prop} {as : List α} {bs : List β}
    (h : List.Forall₂ R as bs) {b : β} (hb : b ∈ bs) : ∃ a ∈ as, R a b := by
  induction h with
  | nil => cases hb
  | cons hab _ ih =>
    rcases List.mem_cons.mp hb with rfl | hmem
    · exact ⟨_, List.mem_cons_self, hab⟩
    · obtain ⟨a, ha, hR⟩ := ih hmem
      exact ⟨a, List.mem_cons_of_mem _ ha, hR⟩

/-- What each element on the left has on the right makes up a list. -/
theorem exists_forall₂ {R : α → β → Prop} {as : List α} (h : ∀ a ∈ as, ∃ b, R a b) :
    ∃ bs, List.Forall₂ R as bs := by
  induction as with
  | nil => exact ⟨[], .nil⟩
  | cons a as ih =>
    obtain ⟨⟨b, hb⟩, has⟩ := List.forall_mem_cons.mp h
    obtain ⟨bs, hbs⟩ := ih has
    exact ⟨b :: bs, .cons hb hbs⟩

theorem forM_eq_ok {f : α → Except ε Unit} {as : List α} :
    as.forM f = .ok () ↔ ∀ a ∈ as, f a = .ok () := by
  induction as with
  | nil => simp [pure, Except.pure]
  | cons a as ih =>
    rw [List.forall_mem_cons, ← ih]
    refine bind_eq_ok.trans ⟨?_, ?_⟩
    · rintro ⟨⟨⟩, ha, has⟩
      exact ⟨ha, has⟩
    · rintro ⟨ha, has⟩
      exact ⟨⟨⟩, ha, has⟩

/-- What every successful step preserves holds of the result. -/
theorem foldlM_induction {f : β → α → Except ε β} {P : β → Prop} {as : List α}
    (hstep : ∀ b a b', a ∈ as → P b → f b a = .ok b' → P b') {b b' : β} (hb : P b)
    (h : as.foldlM f b = .ok b') : P b' := by
  induction as generalizing b with
  | nil =>
    obtain rfl : b = b' := by simpa [pure, Except.pure] using h
    exact hb
  | cons a as ih =>
    rw [List.foldlM_cons, bind_eq_ok] at h
    obtain ⟨next, hnext, hrest⟩ := h
    exact ih (fun b a b' ha => hstep b a b' (List.mem_cons_of_mem _ ha))
      (hstep b a next List.mem_cons_self hb hnext) hrest

theorem mapError_eq_ok {ε' : Type} {x : Except ε α} {f : ε → ε'} {a : α} :
    x.mapError f = .ok a ↔ x = .ok a := by
  cases x <;> simp [Except.mapError]

namespace Error

theorem ofInvalid_eq_ok {x : Except Invalid α} {a : α} : ofInvalid x = .ok a ↔ x = .ok a :=
  mapError_eq_ok

theorem ofLimit_eq_ok {x : Except LimitFault α} {a : α} : ofLimit x = .ok a ↔ x = .ok a :=
  mapError_eq_ok

end Error

theorem orInvalid_eq_ok {form : LexicalForm} {text : String} {value? : Option α} {a : α} :
    orInvalid form text value? = .ok a ↔ value? = some a := by
  cases value? <;> simp [orInvalid]

/-- Whatever the limits are, only texts with fields of few digits are read. -/
theorem readTemporal_eq_ok {form : LexicalForm} {parse? : List Char → Option α} {text : String}
    {limits : Limits} {a : α} :
    readTemporal form parse? text limits = .ok a ↔
      widestField text.toList ≤ min limits.temporalDigits Limits.temporalCeiling ∧
        parse? text.toList = some a := by
  rw [readTemporal, then_eq_ok, Error.ofLimit_eq_ok, Error.ofInvalid_eq_ok, orInvalid_eq_ok,
    Limits.checkTemporalDigits]
  refine and_congr_left' ?_
  split
  case isTrue hwide => exact iff_of_false (by rintro ⟨⟩) (by omega)
  case isFalse hnarrow => exact iff_of_true rfl (by omega)

theorem accept_eq_ok {form : LexicalForm} {text result : String} {holds : Bool} :
    accept form text holds = .ok result ↔ holds = true ∧ text = result := by
  cases holds <;> simp [accept]

/-! ## Failures -/

/-- Whether the errors that a result can be all have a property. -/
def FailsWith (P : ε → Prop) (x : Except ε α) : Prop := ∀ error, x = .error error → P error

section FailsWith

variable {P : ε → Prop} {x : Except ε α}

theorem failsWith_ok (a : α) : FailsWith P (.ok a) := by
  rintro _ ⟨⟩

theorem failsWith_error {error : ε} (h : P error) : FailsWith P (.error error : Except ε α) := by
  rintro _ ⟨⟩
  exact h

theorem FailsWith.mono {Q : ε → Prop} (h : FailsWith P x) (hle : ∀ error, P error → Q error) :
    FailsWith Q x :=
  fun error herror => hle error (h error herror)

theorem FailsWith.bind {f : α → Except ε β} (hx : FailsWith P x)
    (hf : ∀ a, x = .ok a → FailsWith P (f a)) : FailsWith P (x >>= f) := by
  cases x with
  | ok a => exact hf a rfl
  | error error => exact failsWith_error (hx error rfl)

theorem FailsWith.map (hx : FailsWith P x) (f : α → β) : FailsWith P (f <$> x) := by
  cases x with
  | ok a => exact failsWith_ok (f a)
  | error error => exact failsWith_error (hx error rfl)

theorem FailsWith.mapM {f : α → Except ε β} {as : List α} (h : ∀ a ∈ as, FailsWith P (f a)) :
    FailsWith P (as.mapM f) := by
  induction as with
  | nil => exact failsWith_ok []
  | cons a as ih =>
    obtain ⟨ha, has⟩ := List.forall_mem_cons.mp h
    rw [List.mapM_cons]
    exact ha.bind fun _ _ => (ih has).bind fun _ _ => failsWith_ok _

theorem FailsWith.forM {f : α → Except ε Unit} {as : List α} (h : ∀ a ∈ as, FailsWith P (f a)) :
    FailsWith P (as.forM f) := by
  induction as with
  | nil => exact failsWith_ok ()
  | cons a as ih =>
    obtain ⟨ha, has⟩ := List.forall_mem_cons.mp h
    exact ha.bind fun _ _ => ih has

theorem FailsWith.mapError {ε' : Type} {P : ε' → Prop} {f : ε → ε'}
    (h : FailsWith (fun error => P (f error)) x) : FailsWith P (x.mapError f) := by
  cases x with
  | ok a => exact failsWith_ok a
  | error error => exact failsWith_error (h error rfl)

end FailsWith

/-! ## Results under limits -/

/-- Whether a result is the given one, unless a limit withholds it. -/
def Gives (result : Except Error α) (a : α) : Prop :=
  (∃ fault, result = .error (.limit fault)) ∨ result = .ok a

variable {x : Except Error α} {a : α} {b : β}

theorem gives_ok (a : α) : Gives (.ok a) a := .inr rfl

theorem gives_ofLimit (limit : Except LimitFault Unit) : Gives (Error.ofLimit limit) () := by
  cases limit with
  | ok => exact gives_ok ()
  | error fault => exact .inl ⟨fault, rfl⟩

theorem gives_ofInvalid {x : Except Invalid α} (h : x = .ok a) : Gives (Error.ofInvalid x) a :=
  .inr (Error.ofInvalid_eq_ok.mpr h)

theorem Gives.bind {f : α → Except Error β} (hx : Gives x a) (hf : Gives (f a) b) :
    Gives (x >>= f) b := by
  rcases hx with ⟨fault, rfl⟩ | rfl
  · exact .inl ⟨fault, rfl⟩
  · exact hf

theorem Gives.map (hx : Gives x a) (f : α → β) : Gives (f <$> x) (f a) := by
  rcases hx with ⟨fault, rfl⟩ | rfl
  · exact .inl ⟨fault, rfl⟩
  · exact gives_ok (f a)

theorem gives_readTemporal {form : LexicalForm} {parse? : List Char → Option α} {text : String}
    (h : parse? text.toList = some a) (limits : Limits) :
    Gives (readTemporal form parse? text limits) a :=
  (gives_ofLimit _).bind (gives_ofInvalid (orInvalid_eq_ok.mpr h))

theorem Gives.mapM {f : α → Except Error β} {as : List α} {bs : List β}
    (h : List.Forall₂ (fun a b => Gives (f a) b) as bs) : Gives (as.mapM f) bs := by
  induction h with
  | nil => exact gives_ok []
  | cons hab _ ih =>
    rw [List.mapM_cons]
    exact hab.bind (ih.bind (gives_ok _))

/-! ## Two results side by side -/

/-- Whether two results are both successes, with values of which one relation holds, or both
failures, with errors of which another relation holds. -/
inductive Parallel {ε ε' α β : Type} (E : ε → ε' → Prop) (R : α → β → Prop) :
    Except ε α → Except ε' β → Prop
  | ok {a : α} {b : β} : R a b → Parallel E R (.ok a) (.ok b)
  | error {error : ε} {error' : ε'} : E error error' → Parallel E R (.error error) (.error error')

section Parallel

variable {ε' γ δ : Type} {E : ε → ε' → Prop} {R : α → β → Prop} {S : γ → δ → Prop}
  {x : Except ε α} {y : Except ε' β}

theorem Parallel.bind {f : α → Except ε γ} {g : β → Except ε' δ} (h : Parallel E R x y)
    (hnext : ∀ a b, R a b → Parallel E S (f a) (g b)) : Parallel E S (x >>= f) (y >>= g) := by
  cases h with
  | ok hab => exact hnext _ _ hab
  | error herror => exact .error herror

theorem Parallel.map {f : α → γ} {g : β → δ} (h : Parallel E R x y)
    (hvalues : ∀ a b, R a b → S (f a) (g b)) : Parallel E S (f <$> x) (g <$> y) := by
  cases h with
  | ok hab => exact .ok (hvalues _ _ hab)
  | error herror => exact .error herror

theorem Parallel.mapError {ε₁ ε₂ : Type} {E : ε₁ → ε₂ → Prop} {f : ε → ε₁} {g : ε' → ε₂}
    (h : Parallel (fun error error' => E (f error) (g error')) R x y) :
    Parallel E R (x.mapError f) (y.mapError g) := by
  cases h with
  | ok hab => exact .ok hab
  | error herror => exact .error herror

/-- Two rows of tests are parallel if each test is parallel to the one opposite. -/
theorem Parallel.forM {f : α → Except ε Unit} {g : α → Except ε' Unit} {as : List α}
    (h : ∀ a ∈ as, Parallel E Eq (f a) (g a)) : Parallel E Eq (as.forM f) (as.forM g) := by
  induction as with
  | nil => exact .ok rfl
  | cons a as ih =>
    obtain ⟨ha, has⟩ := List.forall_mem_cons.mp h
    exact ha.bind fun _ _ _ => ih has

end Parallel

end SimpleTypes
