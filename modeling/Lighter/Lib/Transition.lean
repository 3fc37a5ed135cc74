import Mathlib.Logic.Basic

/-!
# Runs of a guarded transition function

A component is a total step function over actions, and what its environment has
promised is a separate guard on each action in the state it is taken from. Runs
are finite action lists; every state a component can reach is the end of some
legal run, so a safety law is proved once for the end of a run and then speaks
about every state on the way.
-/

namespace Lighter.Transition

open List

universe u v
variable {σ : Type u} {α : Type v}

/-- The state after taking the actions in order. -/
def run (step : σ → α → σ) (start : σ) (actions : List α) : σ :=
  actions.foldl step start

/-- Every action is allowed in the state it is taken from. -/
def Legal (allowed : σ → α → Prop) (step : σ → α → σ) : σ → List α → Prop
  | _, [] => True
  | start, action :: rest =>
      allowed start action ∧ Legal allowed step (step start action) rest

/-- Where each guard can be decided, so can the legality of a run. -/
instance decidableLegal {allowed : σ → α → Prop}
    [∀ state action, Decidable (allowed state action)]
    {step : σ → α → σ} :
    (start : σ) → (actions : List α) → Decidable (Legal allowed step start actions)
  | _, [] => isTrue trivial
  | start, action :: rest =>
      @instDecidableAnd _ _ _ (decidableLegal (step start action) rest)

variable (allowed : σ → α → Prop) (step : σ → α → σ) {start : σ} {actions : List α}

@[simp] theorem run_nil (start : σ) : run step start [] = start := rfl

@[simp] theorem run_cons (start : σ) (action : α) (rest : List α) :
    run step start (action :: rest) = run step (step start action) rest := rfl

theorem run_append (start : σ) (first second : List α) :
    run step start (first ++ second) = run step (run step start first) second := by
  simp [run]

theorem legal_append (start : σ) (first second : List α) :
    Legal allowed step start (first ++ second) ↔
      Legal allowed step start first ∧
        Legal allowed step (run step start first) second := by
  induction first generalizing start with
  | nil => simp [Legal]
  | cons action rest ih => simp [Legal, ih, and_assoc]

/-- An invariant of every allowed step is an invariant of every legal run. -/
theorem run_invariant (invariant : σ → Prop)
    (preserved : ∀ state action, invariant state → allowed state action →
      invariant (step state action)) (start : σ) (actions : List α) (initial : invariant start)
    (legal : Legal allowed step start actions) : invariant (run step start actions) := by
  induction actions generalizing start with
  | nil => exact initial
  | cons action rest ih =>
    exact ih (step start action) (preserved start action initial legal.1) legal.2

/-- An invariant of every step is an invariant of every run. -/
theorem run_preserves (invariant : σ → Prop)
    (preserved : ∀ state action, invariant state → invariant (step state action))
    (start : σ) (actions : List α) (initial : invariant start) :
    invariant (run step start actions) := by
  induction actions generalizing start with
  | nil => exact initial
  | cons action rest ih => exact ih (step start action) (preserved start action initial)

/-- A guard that looks at the action only. -/
theorem legal_of_all {legal : α → Prop} (all : ∀ action ∈ actions, legal action) :
    Legal (fun _ => legal) step start actions := by
  induction actions generalizing start with
  | nil => trivial
  | cons action rest ih =>
    exact ⟨all action mem_cons_self, ih fun other inside => all other (mem_cons_of_mem _ inside)⟩

theorem Legal.and {also : σ → α → Prop} (legal : Legal allowed step start actions)
    (other : Legal also step start actions) :
    Legal (fun state action => allowed state action ∧ also state action) step start actions := by
  induction actions generalizing start with
  | nil => trivial
  | cons action rest ih =>
    exact ⟨⟨legal.1, other.1⟩, ih legal.2 other.2⟩

/-- A bound on the end of a run that every step can only come nearer to holds after every step
of it. -/
theorem legal_of_end {within : σ → Prop}
    (back : ∀ state action, within (step state action) → within state)
    (ends : within (run step start actions)) :
    Legal (fun state action => within (step state action)) step start actions := by
  have first : ∀ (rest : List α) (state : σ), within (run step state rest) → within state := by
    intro rest
    induction rest with
    | nil => exact fun _ here => here
    | cons action rest ih =>
      exact fun state here => back state action (ih _ here)
  induction actions generalizing start with
  | nil => trivial
  | cons action rest ih => exact ⟨first rest _ ends, ih ends⟩

/-- A guard that says of each step whether it is lawful says it of every step of a run, as
long as a lawful step leaves the next one ready. -/
theorem each_step_iff (usual : σ → α → Prop) (ready : σ → Prop) (lawful : σ → α → Prop)
    (exact : ∀ state action, usual state action → ready state →
      (lawful state action ↔ allowed state action))
    (next : ∀ state action, ready state → lawful state action → ready (step state action))
    (start : σ) (actions : List α) (usually : Legal usual step start actions)
    (initial : ready start) :
    (∀ prior action, prior ++ [action] <+: actions → lawful (run step start prior) action) ↔
      Legal allowed step start actions := by
  induction actions generalizing start with
  | nil =>
    constructor
    · intro _
      trivial
    · intro _ prior action empty
      exact absurd (prefix_nil.mp empty) (by simp)
  | cons first rest ih =>
    have here := exact start first usually.1 initial
    have later := fun kept => ih (step start first) usually.2 (next start first initial kept)
    constructor
    · intro throughout
      have kept : lawful start first :=
        throughout [] first (prefix_cons_iff.mpr (Or.inr ⟨[], rfl, nil_prefix⟩))
      refine ⟨here.mp kept, (later kept).mp ?_⟩
      intro prior action before
      exact throughout (first :: prior) action (cons_prefix_cons.mpr ⟨rfl, before⟩)
    rintro ⟨permitted, legal⟩ prior action before
    have kept := here.mpr permitted
    cases prior with
    | nil =>
      obtain rfl := (cons_prefix_cons.mp before).1
      exact kept
    | cons other more =>
      obtain ⟨rfl, shorter⟩ := cons_prefix_cons.mp before
      exact (later kept).mpr legal more action shorter

/-- The same for a law of the states: it holds at every moment of the run. -/
theorem holds_throughout_iff_of_legal (ready : σ → α → Prop) (holds : σ → Prop)
    (exact : ∀ state action, ready state action → holds state →
      (holds (step state action) ↔ allowed state action))
    (start : σ) (actions : List α) (readily : Legal ready step start actions)
    (initial : holds start) :
    (∀ prior, prior <+: actions → holds (run step start prior)) ↔
      Legal allowed step start actions := by
  rw [← each_step_iff allowed step ready holds (fun state action => holds (step state action))
    exact (fun _ _ _ kept => kept) start actions readily initial]
  constructor
  · intro throughout prior action before
    have kept := throughout _ before
    rw [run_append] at kept
    exact kept
  · intro each prior before
    rcases eq_nil_or_concat prior with rfl | ⟨first, last, rfl⟩
    · exact initial
    · rw [concat_eq_append] at before ⊢
      rw [run_append]
      exact each first last before

/-- The same where what is asked of an action does not depend on the state. -/
theorem holds_throughout_iff (usual : α → Prop) (holds : σ → Prop)
    (exact : ∀ state action, usual action → holds state →
      (holds (step state action) ↔ allowed state action))
    (start : σ) (actions : List α) (ordinary : ∀ action ∈ actions, usual action)
    (initial : holds start) :
    (∀ prior, prior <+: actions → holds (run step start prior)) ↔
      Legal allowed step start actions :=
  holds_throughout_iff_of_legal allowed step (fun _ => usual) holds exact start actions
    (legal_of_all step ordinary) initial

/-- A stronger guard admits fewer runs. -/
theorem Legal.weaken {strong : σ → α → Prop}
    (weaker : ∀ state action, strong state action → allowed state action)
    (legal : Legal strong step start actions) : Legal allowed step start actions := by
  induction actions generalizing start with
  | nil => trivial
  | cons action rest ih => exact ⟨weaker _ _ legal.1, ih legal.2⟩

/-- Every step of a legal run is taken where the invariant holds. -/
theorem Legal.holding {invariant : σ → Prop}
    (preserved : ∀ state action, invariant state → allowed state action →
      invariant (step state action)) (initial : invariant start)
    (legal : Legal allowed step start actions) :
    Legal (fun state action => invariant state ∧ allowed state action) step start actions := by
  induction actions generalizing start with
  | nil => trivial
  | cons action rest ih =>
    exact ⟨⟨initial, legal.1⟩, ih (preserved start action initial legal.1) legal.2⟩

/-- One state leads to another through steps that are each allowed. -/
def Reaches (before after : σ) : Prop :=
  ∃ actions, Legal allowed step before actions ∧ run step before actions = after

namespace Reaches

variable {allowed step}

theorem refl (state : σ) : Reaches allowed step state state := ⟨[], trivial, rfl⟩

theorem one {state : σ} (action : α) (legal : allowed state action) :
    Reaches allowed step state (step state action) := ⟨[action], ⟨legal, trivial⟩, rfl⟩

theorem trans {first second third : σ} (prior : Reaches allowed step first second)
    (later : Reaches allowed step second third) : Reaches allowed step first third := by
  obtain ⟨before, legalBefore, atSecond⟩ := prior
  obtain ⟨after, legalAfter, atThird⟩ := later
  refine ⟨before ++ after, ?_, ?_⟩
  · rw [legal_append, atSecond]
    exact ⟨legalBefore, legalAfter⟩
  · rw [run_append, atSecond, atThird]

/-- What every allowed step keeps, every state reached has. -/
theorem invariant {before after : σ} (reaches : Reaches allowed step before after)
    (holds : σ → Prop)
    (preserved : ∀ state action, holds state → allowed state action →
      holds (step state action)) (initial : holds before) : holds after := by
  obtain ⟨actions, legal, arrived⟩ := reaches
  rw [← arrived]
  exact run_invariant allowed step holds preserved before actions initial legal

end Reaches

/-!
### Simulation

Two systems that answer each action are compared by what they answer. When a
relation between their states is kept by every allowed action, and related states
give the same answer to it, the two give the same answers along every legal run.
-/

universe w x y
variable {β : Type w} {τ : Type x} {ε : Type y}

/-- The answers along a run. -/
def outputs (step : σ → α → σ × β) : σ → List α → List β
  | _, [] => []
  | state, action :: rest => (step state action).2 :: outputs step (step state action).1 rest

/-- One system answers as another does on the events its actions stand for. -/
theorem outputs_simulated (allowed : σ → α → Prop) (step : σ → α → σ × β)
    (abstract : τ → ε → τ × β) (event : α → ε) (related : σ → τ → Prop)
    (simulates : ∀ state model action, related state model → allowed state action →
      related (step state action).1 (abstract model (event action)).1 ∧
        (step state action).2 = (abstract model (event action)).2)
    (state : σ) (model : τ) (actions : List α) (initial : related state model)
    (legal : Legal allowed (fun state action => (step state action).1) state actions) :
    outputs step state actions = outputs abstract model (actions.map event) ∧
      related (run (fun state action => (step state action).1) state actions)
        (run (fun model event => (abstract model event).1) model (actions.map event)) := by
  induction actions generalizing state model with
  | nil => exact ⟨rfl, initial⟩
  | cons action rest ih =>
    obtain ⟨permitted, later⟩ := legal
    obtain ⟨next, same⟩ := simulates state model action initial permitted
    obtain ⟨answers, final⟩ := ih _ _ next later
    refine ⟨?_, final⟩
    rw [map_cons, outputs, outputs, same, answers]

end Lighter.Transition
