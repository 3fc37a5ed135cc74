import Lighter.Lib.Transition
import Mathlib.Order.Lattice.Nat

/-!
# Endless runs and fairness

A component that is stepped forever, by a schedule that names an action for each moment. A
thread is treated fairly if at no moment it can go on from then on without ever being
stepped. What a thread waits for happens when it stays able until it is stepped, and what
can happen only so many times has at some moment happened for the last time.
-/

namespace Lighter.Endless

universe u v
variable {σ : Type u} {α : Type v}

/-- The state at each moment. -/
def path (step : σ → α → σ) (start : σ) (acts : Nat → α) : Nat → σ
  | 0 => start
  | moment + 1 => step (path step start acts moment) (acts moment)

variable {step : σ → α → σ} {start : σ} {acts : Nat → α}

/-- From one moment to another is a finite run. -/
theorem path_add (moment wait : Nat) : path step start acts (moment + wait) =
    Transition.run step (path step start acts moment)
      ((List.range wait).map fun index => acts (moment + index)) := by
  induction wait with
  | zero => rfl
  | succ wait ih =>
    rw [List.range_succ, List.map_append, Transition.run_append, ← ih]
    rfl

/-- The state at a moment is the end of a finite run. -/
theorem path_eq_run (moment : Nat) : path step start acts moment =
    Transition.run step start ((List.range moment).map acts) := by
  have whole : path step start acts (0 + moment) = _ := path_add 0 moment
  simp only [Nat.zero_add] at whole
  exact whole

/-- What every allowed step keeps holds at every moment. -/
theorem path_invariant (allowed : σ → α → Prop) (invariant : σ → Prop)
    (preserved : ∀ state action, invariant state → allowed state action →
      invariant (step state action)) (initial : invariant start)
    (legal : ∀ moment, allowed (path step start acts moment) (acts moment)) (moment : Nat) :
    invariant (path step start acts moment) := by
  induction moment with
  | zero => exact initial
  | succ moment ih => exact preserved _ _ ih (legal moment)

/-- A thread that is able is stepped, unless it stops being able. -/
def Fair (states : Nat → σ) (acts : Nat → α) (able : σ → Prop) (own : α → Prop) : Prop :=
  ∀ moment, ∃ later, moment ≤ later ∧ (¬ able (states later) ∨ own (acts later))

/-- A thread in a place that it leaves only by its own step is stepped there. -/
theorem Fair.stepped {states : Nat → σ} {able : σ → Prop} {own : α → Prop}
    (fair : Fair states acts able own) (place : σ → Prop)
    (stays : ∀ moment, place (states moment) → ¬ own (acts moment) → place (states (moment + 1)))
    (ready : ∀ state, place state → able state) {moment : Nat} (here : place (states moment)) :
    ∃ later, moment ≤ later ∧ place (states later) ∧ own (acts later) := by
  by_contra never
  -- It is never stepped there, so it is there for ever, and able.
  have always : ∀ wait, place (states (moment + wait)) := by
    intro wait
    induction wait with
    | zero => exact here
    | succ wait ih =>
      refine stays (moment + wait) ih fun own => ?_
      exact never ⟨moment + wait, Nat.le_add_right _ _, ih, own⟩
  obtain ⟨later, after, stopped | own⟩ := fair moment
  all_goals
    obtain ⟨wait, rfl⟩ := Nat.exists_eq_add_of_le after
  · exact stopped (ready _ (always wait))
  · exact never ⟨moment + wait, after, always wait, own⟩

/-- A count that only grows and is bounded stops growing. -/
theorem eventually_constant {count : Nat → Nat}
    (grows : ∀ moment, count moment ≤ count (moment + 1))
    {bound : Nat} (bounded : ∀ moment, count moment ≤ bound) :
    ∃ last, ∀ moment, last ≤ moment → count moment = count last := by
  have above : BddAbove (Set.range count) := by
    refine ⟨bound, ?_⟩
    rintro _ ⟨moment, rfl⟩
    exact bounded moment
  obtain ⟨last, most⟩ := Nat.sSup_mem (Set.range_nonempty count) above
  refine ⟨last, fun moment after => Nat.le_antisymm ?_ (monotone_nat_of_le_succ grows after)⟩
  rw [most]
  exact le_csSup above ⟨moment, rfl⟩

end Lighter.Endless
