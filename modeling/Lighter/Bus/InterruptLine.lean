import Lighter.Lib.Transition
import Mathlib.Logic.Function.Basic

/-!
# The interrupt line

A level-triggered line that follows a status word. Raising sets bits of the word and
acknowledging clears them, each in one atomic step outside any lock; then the caller takes the
lock, reads the word again, and drives the line if it is not what the word asks for. Any number
of threads do this in any order. An action is one atomic step of one thread, and a thread that
finds the lock taken stays where it is. The line's level is what the interrupt controller was
last told, and a lock that is never poisoned is all that is left out.
-/

namespace Lighter.Bus

open Transition Function

/-- What a thread asks of the line. -/
inductive Call where
  | raise (bits : UInt32)
  | acknowledge (bits : UInt32)
deriving DecidableEq, Repr

/-- The `fetch_or` and the `fetch_and`. -/
def Call.change (status : UInt32) : Call → UInt32
  | .raise bits => status ||| bits
  | .acknowledge bits => status &&& ~~~bits

/-- Where a thread is. -/
inductive Phase where
  | idle
  /-- The status is changed, the lock not yet taken. -/
  | changed
  | holding
  | loaded (want : Bool)
  /-- The controller has been told, the level not yet remembered. -/
  | driven (want : Bool)
  | leaving
deriving DecidableEq, Repr

/-- Under the lock. -/
def Phase.inside : Phase → Bool
  | .idle | .changed => false
  | _ => true

structure InterruptLine (τ : Type) where
  status : UInt32
  /-- What the controller was last told. -/
  line : Bool
  /-- The level remembered under the lock. -/
  level : Bool
  holder : Option τ
  threads : τ → Phase
  /-- The changes of the status so far, the newest first. -/
  changes : List Call

namespace InterruptLine

variable {τ : Type} [DecidableEq τ]

def new : InterruptLine τ := ⟨0, false, false, none, fun _ => .idle, []⟩

def enter (state : InterruptLine τ) (thread : τ) (phase : Phase) : InterruptLine τ :=
  { state with threads := Function.update state.threads thread phase }

/-- `raise` or `acknowledge`, up to the call of `sync`. -/
def call (state : InterruptLine τ) (thread : τ) (call : Call) : InterruptLine τ :=
  if state.threads thread = .idle then
    { state with status := call.change state.status, changes := call :: state.changes }.enter thread
      .changed
  else state

/-- The next step of `sync`. -/
def go (state : InterruptLine τ) (thread : τ) : InterruptLine τ :=
  match state.threads thread with
  | .idle => state
  | .changed =>
      if state.holder.isNone then { state with holder := some thread }.enter thread .holding
      else state
  | .holding => state.enter thread (.loaded (state.status != 0))
  | .loaded want =>
      if state.level != want then { state with line := want }.enter thread (.driven want)
      else state.enter thread .leaving
  | .driven want => { state with level := want }.enter thread .leaving
  | .leaving => { state with holder := none }.enter thread .idle

/-- One atomic step: a thread begins a call, or goes on with the one it is in. -/
def step (state : InterruptLine τ) : τ × Option Call → InterruptLine τ
  | (thread, some asked) => state.call thread asked
  | (thread, none) => state.go thread

/-! ## The line and the status -/

/-- A thread has changed the status and will read it under the lock. -/
def Owed (state : InterruptLine τ) : Prop := ∃ thread, state.threads thread = .changed

/-- A level is what the status asks for, unless someone is going to look again. -/
def Wanted (state : InterruptLine τ) (level : Bool) : Prop :=
  level = (state.status != 0) ∨ state.Owed

/-- What the thread under the lock has to do yet, or nothing if the lock is free. -/
structure Sound (state : InterruptLine τ) : Prop where
  alone : ∀ thread, (state.threads thread).inside = true ↔ state.holder = some thread
  free : state.holder = none → state.level = state.line ∧ state.Wanted state.line
  holding : ∀ thread, state.threads thread = .holding → state.level = state.line
  loaded : ∀ thread want, state.threads thread = .loaded want →
    state.level = state.line ∧ state.Wanted want
  driven : ∀ thread want, state.threads thread = .driven want →
    state.line = want ∧ state.Wanted want
  leaving : ∀ thread, state.threads thread = .leaving →
    state.level = state.line ∧ state.Wanted state.line

omit [DecidableEq τ] in
/-- It stays so while the status does and whoever is going to look still is. -/
theorem Wanted.mono {state after : InterruptLine τ} {level : Bool} (wanted : state.Wanted level)
    (status : after.status = state.status)
    (owed : ∀ thread, state.threads thread = .changed → after.threads thread = .changed) :
    after.Wanted level := by
  rcases wanted with same | ⟨thread, changed⟩
  · exact .inl (status ▸ same)
  · exact .inr ⟨thread, owed thread changed⟩

variable {state : InterruptLine τ}

theorem Sound.call (sound : Sound state) (thread : τ) (asked : Call) :
    Sound (state.call thread asked) := by
  unfold InterruptLine.call
  split
  · rename_i idle
    -- Whoever changed the status is going to look at it.
    have owed : ∀ level, ({ state with
        status := asked.change state.status,
        changes := asked :: state.changes }.enter thread .changed).Wanted level :=
      fun _ => .inr ⟨thread, by simp [enter]⟩
    obtain ⟨alone, free, holding, loaded, driven, leaving⟩ := sound
    constructor <;> simp only [enter, update_apply] at owed ⊢ <;> grind [Phase.inside]
  · exact sound

/-- A thread under the lock goes on: what it leaves the next step to do is true of what it
has done. -/
theorem Sound.go (sound : Sound state) (thread : τ) : Sound (state.go thread) := by
  have wanted : ∀ (after : InterruptLine τ) (level : Bool), state.Wanted level →
      after.status = state.status →
      (∀ thread, state.threads thread = .changed → after.threads thread = .changed) →
        after.Wanted level := fun _ _ => Wanted.mono
  have alone := sound.alone
  unfold InterruptLine.go
  split
  · exact sound
  · rename_i changed
    split
    · rename_i free
      have rest := sound.free (Option.isNone_iff_eq_none.mp free)
      constructor <;> simp only [enter, update_apply] <;> grind [Phase.inside]
    · exact sound
  · rename_i holding
    have level := sound.holding thread holding
    constructor <;> simp only [enter, update_apply] <;> grind [Phase.inside, Wanted]
  · rename_i want loaded
    obtain ⟨level, asks⟩ := sound.loaded thread want loaded
    split
    · have still := wanted ({ state with line := want }.enter thread (.driven want)) want asks rfl
        (by simp only [enter, update_apply]; grind)
      constructor <;> simp only [enter, update_apply] at still ⊢ <;> grind [Phase.inside]
    · have still := wanted (state.enter thread .leaving) want asks rfl
        (by simp only [enter, update_apply]; grind)
      constructor <;> simp only [enter, update_apply] at still ⊢ <;> grind [Phase.inside]
  · rename_i want driven
    obtain ⟨line, asks⟩ := sound.driven thread want driven
    have still := wanted ({ state with level := want }.enter thread .leaving) want asks rfl
      (by simp only [enter, update_apply]; grind)
    constructor <;> simp only [enter, update_apply] at still ⊢ <;> grind [Phase.inside]
  · rename_i leaving
    obtain ⟨level, asks⟩ := sound.leaving thread leaving
    have still := wanted ({ state with holder := none }.enter thread .idle) state.line asks rfl
      (by simp only [enter, update_apply]; grind)
    constructor <;> simp only [enter, update_apply] at still ⊢ <;> grind [Phase.inside]

theorem Sound.step (sound : Sound state) (action : τ × Option Call) :
    Sound (state.step action) := by
  obtain ⟨thread, asked⟩ := action
  cases asked with
  | none => exact sound.go thread
  | some asked => exact sound.call thread asked

omit [DecidableEq τ] in
theorem sound_new : Sound (new : InterruptLine τ) := by
  constructor <;> simp [new, Phase.inside, Wanted]

/-! ## The bits of the status -/

/-- A bit that was raised is set, unless it was acknowledged since. -/
def Lasting (status : UInt32) (changes : List Call) : Prop :=
  ∀ later bits earlier, changes = later ++ .raise bits :: earlier →
    ∀ bit, bits.toBitVec.getLsbD bit = true → status.toBitVec.getLsbD bit = true ∨
      ∃ cleared, .acknowledge cleared ∈ later ∧ cleared.toBitVec.getLsbD bit = true

theorem Lasting.change {status : UInt32} {changes : List Call} (lasting : Lasting status changes)
    (asked : Call) : Lasting (asked.change status) (asked :: changes) := by
  intro later bits prior split bit raised
  cases later with
  | nil =>
    obtain ⟨rfl, rfl⟩ := List.cons.inj split
    simp [Call.change, raised]
  | cons first later =>
    obtain ⟨rfl, rest⟩ := List.cons.inj split
    rcases lasting later bits prior rest bit raised with set | ⟨cleared, member, clears⟩
    · cases asked with
      | raise more => simp [Call.change, set]
      | acknowledge cleared =>
        by_cases clears : cleared.toBitVec.getLsbD bit = true
        · exact .inr ⟨cleared, List.mem_cons_self, clears⟩
        refine .inl ?_
        rw [Call.change, UInt32.toBitVec_and, UInt32.toBitVec_not, BitVec.getLsbD_and, set,
          BitVec.getLsbD_not, Bool.eq_false_iff.mpr clears]
        simpa using BitVec.lt_of_getLsbD set
    · exact .inr ⟨cleared, List.mem_cons_of_mem _ member, clears⟩

theorem changes_go (state : InterruptLine τ) (thread : τ) :
    (state.go thread).status = state.status ∧ (state.go thread).changes = state.changes := by
  unfold go
  split <;> (try split) <;> exact ⟨rfl, rfl⟩

theorem lasting_step (state : InterruptLine τ) (action : τ × Option Call)
    (lasting : Lasting state.status state.changes) :
    Lasting (state.step action).status (state.step action).changes := by
  obtain ⟨thread, asked⟩ := action
  cases asked with
  | none =>
    obtain ⟨status, changes⟩ := changes_go state thread
    exact status ▸ changes ▸ lasting
  | some asked =>
    simp only [step, call]
    split
    · exact lasting.change asked
    · exact lasting

/-- Whenever no call is in progress the line is high exactly while the status is not zero, and
the level remembered is the one last driven. At every moment a bit that some call raised, be it
returned or not, is set unless a later acknowledgement cleared it. -/
theorem line_follows_status (actions : List (τ × Option Call)) :
    let state := run step new actions
    ((∀ thread, state.threads thread = .idle) →
        state.line = (state.status != 0) ∧ state.level = state.line) ∧
      Lasting state.status state.changes := by
  intro state
  have sound : Sound state := run_preserves step Sound (fun _ action sound => sound.step action)
    new actions sound_new
  refine ⟨fun idle => ?_, run_preserves step (fun state => Lasting state.status state.changes)
    lasting_step new actions (by simp [Lasting, new])⟩
  have free : state.holder = none := by
    cases held : state.holder with
    | none => rfl
    | some thread =>
      have inside := (sound.alone thread).mpr held
      rw [idle thread] at inside
      cases inside
  obtain ⟨level, same | ⟨thread, changed⟩⟩ := sound.free free
  · exact ⟨same, level⟩
  · rw [idle thread] at changed
    cases changed

/-- A slow raiser: the first thread has set its bit when the second acknowledges an earlier
interrupt and drops the line; then it lifts the line again. -/
def slowRaiser : List (Bool × Option Call) :=
  (false, some (.raise 1)) :: List.replicate 5 (false, none) ++
    [(false, some (.raise 2)), (true, some (.acknowledge 1))] ++ List.replicate 5 (true, none) ++
    List.replicate 5 (false, none)

theorem line_follows_status_slowRaiser :
    let state := run step new slowRaiser
    state.status = 2 ∧ state.line = true ∧ state.level = true := by
  have idle : ∀ thread, (run step new slowRaiser).threads thread = .idle := by decide
  obtain ⟨line, level⟩ := (line_follows_status slowRaiser).1 idle
  have status : (run step new slowRaiser).status = 2 := by decide
  rw [status] at line
  exact ⟨status, line, level.trans line⟩

end InterruptLine
end Lighter.Bus
