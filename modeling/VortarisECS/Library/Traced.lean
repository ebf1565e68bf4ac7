import Mathlib.Data.List.Basic

/-!
# Steps that leave a trace

A step of a system yields its next state together with the list of effects it
performed on the way.  Steps compose in sequence and over lists, and an
invariant may be established under an assumption about the effects alone: a
run whose effects are all acceptable keeps whatever every acceptable step
keeps.
-/

/-- The state a step ends in, with the effects it performed, in order. -/
structure Traced (ε : Type u) (σ : Type v) where
  state : σ
  effects : List ε

namespace Traced

/-- The step that does nothing. -/
def pure (state : σ) : Traced ε σ := ⟨state, []⟩

@[simp] theorem pure_state (state : σ) :
    (pure state : Traced ε σ).state = state := rfl

@[simp] theorem pure_effects (state : σ) :
    (pure state : Traced ε σ).effects = [] := rfl

/-- Run a second step from the state the first one ends in. -/
def andThen (first : Traced ε σ) (next : σ → Traced ε σ) : Traced ε σ :=
  ⟨(next first.state).state, first.effects ++ (next first.state).effects⟩

@[simp] theorem andThen_state (first : Traced ε σ) (next : σ → Traced ε σ) :
    (first.andThen next).state = (next first.state).state := rfl

@[simp] theorem andThen_effects (first : Traced ε σ) (next : σ → Traced ε σ) :
    (first.andThen next).effects =
      first.effects ++ (next first.state).effects := rfl

/-- Doing nothing first changes nothing. -/
theorem pure_andThen (state : σ) (next : σ → Traced ε σ) :
    (pure state).andThen next = next state := by
  rw [andThen, pure_state, pure_effects, List.nil_append]

/-- Change the state at the end of a step without a further effect. -/
def mapState (step : Traced ε σ) (change : σ → σ) : Traced ε σ :=
  ⟨change step.state, step.effects⟩

@[simp] theorem mapState_state (step : Traced ε σ) (change : σ → σ) :
    (step.mapState change).state = change step.state := rfl

@[simp] theorem mapState_effects (step : Traced ε σ) (change : σ → σ) :
    (step.mapState change).effects = step.effects := rfl

/-- Run one step for every element of a list, in order. -/
def forEach (step : σ → α → Traced ε σ) (state : σ) : List α → Traced ε σ
  | [] => pure state
  | item :: items =>
      (step state item).andThen fun next => forEach step next items

@[simp] theorem forEach_nil (step : σ → α → Traced ε σ) (state : σ) :
    forEach step state [] = pure state := rfl

@[simp] theorem forEach_cons
    (step : σ → α → Traced ε σ) (state : σ) (item : α) (items : List α) :
    forEach step state (item :: items) =
      (step state item).andThen fun next => forEach step next items := rfl

/-- Steps without effects are a fold. -/
theorem forEach_pure (change : σ → α → σ) (state : σ) (items : List α) :
    forEach (fun state item => (pure (change state item) : Traced ε σ)) state
      items = pure (items.foldl change state) := by
  induction items generalizing state with
  | nil => rfl
  | cons item items inductionHypothesis =>
      rw [forEach_cons, andThen, pure_state, pure_effects, List.nil_append,
        inductionHypothesis, List.foldl_cons]

/-- A list run splits at any point. -/
theorem forEach_append
    (step : σ → α → Traced ε σ) (state : σ) (first second : List α) :
    forEach step state (first ++ second) =
      (forEach step state first).andThen fun next =>
        forEach step next second := by
  induction first generalizing state with
  | nil => simp [andThen, pure]
  | cons item items inductionHypothesis =>
      simp [andThen, inductionHypothesis, List.append_assoc]

/-- A list is gone through in two parts. -/
theorem forEach_append_state
    (step : σ → α → Traced ε σ) (state : σ) (first second : List α) :
    (forEach step state (first ++ second)).state =
      (forEach step (forEach step state first).state second).state := by
  rw [forEach_append, andThen_state]

/-- The effects of the two parts follow each other. -/
theorem forEach_append_effects
    (step : σ → α → Traced ε σ) (state : σ) (first second : List α) :
    (forEach step state (first ++ second)).effects =
      (forEach step state first).effects ++
        (forEach step (forEach step state first).state second).effects := by
  rw [forEach_append, andThen_effects]

/-! ## Invariants of acceptable runs -/

/-- Every effect of a step is acceptable. -/
def Accepted (accept : ε → Prop) (step : Traced ε σ) : Prop :=
  ∀ effect ∈ step.effects, accept effect

instance (accept : ε → Prop) [DecidablePred accept] (step : Traced ε σ) :
    Decidable (Accepted accept step) :=
  inferInstanceAs (Decidable (∀ effect ∈ step.effects, accept effect))

@[simp] theorem accepted_pure (accept : ε → Prop) (state : σ) :
    Accepted accept (pure state) := by
  simp [Accepted]

/-- Two steps are accepted when each is. -/
@[simp] theorem accepted_andThen
    (accept : ε → Prop) (first : Traced ε σ) (next : σ → Traced ε σ) :
    Accepted accept (first.andThen next) ↔
      Accepted accept first ∧ Accepted accept (next first.state) := by
  simp [Accepted, or_imp, forall_and]

@[simp] theorem accepted_mapState
    (accept : ε → Prop) (step : Traced ε σ) (change : σ → σ) :
    Accepted accept (step.mapState change) ↔ Accepted accept step :=
  Iff.rfl

/-- What a step is accepted for may be weakened. -/
theorem Accepted.imp
    {accept weaker : ε → Prop} {step : Traced ε σ}
    (accepted : Accepted accept step)
    (implies : ∀ effect, accept effect → weaker effect) :
    Accepted weaker step :=
  fun effect member => implies effect (accepted effect member)

/-- A step function keeps an invariant whenever its effects are acceptable. -/
def Maintains
    (invariant : σ → Prop) (accept : ε → Prop)
    (step : σ → Traced ε σ) : Prop :=
  ∀ state, invariant state → Accepted accept (step state) →
    invariant (step state).state

/-- The sequential composition rule. -/
theorem Maintains.andThen
    {invariant : σ → Prop} {accept : ε → Prop}
    {first second : σ → Traced ε σ}
    (firstMaintains : Maintains invariant accept first)
    (secondMaintains : Maintains invariant accept second) :
    Maintains invariant accept
      fun state => (first state).andThen second := by
  intro state holds accepted
  rw [accepted_andThen] at accepted
  exact secondMaintains _ (firstMaintains state holds accepted.1) accepted.2

/-- The list rule: what every step of a list keeps, the whole run keeps. -/
theorem forEach_maintains
    {invariant : σ → Prop} {accept : ε → Prop}
    {step : σ → α → Traced ε σ}
    {items : List α}
    (stepMaintains : ∀ item ∈ items,
      Maintains invariant accept fun state => step state item) :
    Maintains invariant accept fun state => forEach step state items := by
  induction items with
  | nil =>
      intro state holds _
      exact holds
  | cons item items inductionHypothesis =>
      have headMaintains := stepMaintains item List.mem_cons_self
      have tailMaintains := inductionHypothesis fun later member =>
        stepMaintains later (List.mem_cons_of_mem item member)
      exact headMaintains.andThen tailMaintains

/-- What every step of a list keeps of a knowledge that its effects change, the
whole run keeps. -/
theorem forEach_follows
    (inv : γ → σ → Prop) {next : γ → ε → γ} {step : σ → α → Traced ε σ}
    {items : List α}
    (follows : ∀ item ∈ items, ∀ known state, inv known state →
      inv ((step state item).effects.foldl next known) (step state item).state)
    {known : γ} {state : σ} (holds : inv known state) :
    inv ((forEach step state items).effects.foldl next known)
      (forEach step state items).state := by
  induction items generalizing known state with
  | nil => exact holds
  | cons item items inductionHypothesis =>
      rw [forEach_cons, andThen_effects, List.foldl_append, andThen_state]
      exact inductionHypothesis
        (fun later member => follows later (List.mem_cons_of_mem item member))
        (follows item List.mem_cons_self known state holds)

end Traced
