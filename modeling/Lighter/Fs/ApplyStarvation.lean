import Lighter.Fs.ApplyProgress
import Mathlib.Algebra.Ring.Nat
import Mathlib.Data.List.GetD

/-!
# A stream of jobs that starves another

Two runs of a queue with one worker. In the first one job is pushed and applied, as in any
fair run with so many pushes. In the second a clone is pushed and then renames of another
file for ever, each while the worker puts the one before away. A worker that looks takes the
serial lane first, so it never takes the clone.
-/

namespace Lighter.Fs.Apply

open Endless List Transition World

namespace Starvation

variable {seq : Nat} {world : World 1}

local instance one : NeZero 1 := ⟨Nat.one_ne_zero⟩

def narrow : Config where
  wide := true
  dirAffinity := true
  createWidth := 1
  bytesCap := 0
  window := 2
  positive := by decide

def cloneJob : Job := ⟨.clone, ⟨[1], by decide, by decide, by decide, by decide⟩, 0⟩

def renameJob : Job := ⟨.rename, ⟨[2], by decide, by decide, by decide, by decide⟩, 0⟩

/-- The clone and the first rename are pushed while the worker has not looked. -/
def opening : List (Act 1) :=
  [.call 0 (.push cloneJob), .go 0 0, .go 0 0, .call 0 (.push renameJob), .go 0 0, .go 0 0]

/-- The worker runs a rename and puts it away, the next is pushed, and the worker goes on to
look again. -/
def turn : List (Act 1) :=
  [.work 0 0, .work 0 0, .work 0 0, .work 0 0, .call 0 (.push renameJob), .go 0 0, .go 0 0,
    .work 0 0]

def storm (moment : Nat) : Act 1 :=
  if moment < 6 then opening.getD moment (.work 0 0) else turn.getD ((moment - 6) % 8) (.work 0 0)

/-- The worker is about to look, with a rename ready; the clone has not been started. -/
structure Turn (seq : Nat) (world : World 1) : Prop where
  looking : world.workers 0 = .looking
  idle : world.clients 0 = .idle
  free : world.state.held = false
  unused : world.state.serialRunning = false
  ready : world.state.ready = [seq]
  slot : world.state.slots seq = some ⟨some renameJob, 0, [], 2⟩
  tail : world.state.tails 2 = some seq
  pushed : world.pushed = seq
  depth : world.depth = 2
  bytes : world.bytes = 0
  starved : .started 1 ∉ world.log
  later : 2 ≤ seq

/-- The rename is put away. -/
structure Away (seq : Nat) (world : World 1) : Prop where
  settling : world.workers 0 = .settling
  idle : world.clients 0 = .idle
  free : world.state.held = false
  unused : world.state.serialRunning = false
  ready : world.state.ready = []
  tail : world.state.tails 2 = none
  pushed : world.pushed = seq
  depth : world.depth = 1
  bytes : world.bytes = 0
  starved : .started 1 ∉ world.log
  later : 2 ≤ seq

theorem Turn.away (now : Turn seq world) :
    Away seq (run (World.step narrow) world
      [.work 0 0, .work 0 0, .work 0 0, .work 0 0]) := by
  have first : world.step narrow (.work 0 0) = (({ world with state := { world.state with
      ready := []
      slots := Function.update world.state.slots seq (some ⟨none, 0, [], 2⟩)
      serialRunning := true } }.setWorker 0 (.busy .running seq renameJob)).note
        (.started seq)) := by
    simp [World.step, World.work, World.look, now.looking, now.free, State.pick, now.unused,
      now.ready, State.take, now.slot, renameJob, Kind.lane]
  simp only [run, foldl_cons, foldl_nil, first]
  have lane : Kind.rename.lane narrow = .serial := rfl
  have keys : renameJob.keys.list = [2] := rfl
  have kind : renameJob.kind = .rename := rfl
  have bytes : renameJob.bytes = 0 := rfl
  have differs : (1 : Nat) ≠ seq := by
    have := now.later
    omega
  constructor
  all_goals
    simp [World.step, World.work, World.setWorker, World.note, World.complete, State.complete,
      State.leave, State.untail, lane, keys, kind, bytes, now.idle, now.free, now.tail,
      now.pushed, now.depth, now.bytes, now.starved, now.later, differs]

/-- The next rename is pushed before the worker looks again. -/
theorem Away.turn (now : Away seq world) :
    Turn (seq + 1) (run (World.step narrow) world
      [.call 0 (.push renameJob), .go 0 0, .go 0 0, .work 0 0]) := by
  have lane : Kind.rename.lane narrow = .serial := rfl
  have keys : renameJob.keys.list = [2] := rfl
  have laneKey : Bounded.keyOf narrow renameJob.keys (seq + 1) = 2 := rfl
  have kind : renameJob.kind = .rename := rfl
  have bytes : renameJob.bytes = 0 := rfl
  have called : world.step narrow (.call 0 (.push renameJob)) =
      world.setClient 0 (.pushing renameJob) := by
    simp [World.step, now.idle, World.begin]
  have pushed : (world.setClient 0 (.pushing renameJob)).step narrow (.go 0 0) =
      (world.setClient 0 (.pushing renameJob)).push narrow 0 renameJob := by
    simp [World.step, World.go, World.setClient, now.bytes, now.depth, narrow]
  have queued : world.state.enqueue narrow (seq + 1) renameJob = { world.state with
      tails := Function.update world.state.tails 2 (some (seq + 1))
      incomplete := insert (seq + 1) world.state.incomplete
      slots := Function.update world.state.slots (seq + 1) (some ⟨some renameJob, 0, [], 2⟩)
      ready := [seq + 1] } := by
    simp [State.enqueue, State.link, keys, laneKey, kind, lane, now.tail, State.offer, now.ready]
  have nobody : (finRange 1).find? (fun worker => world.workers worker = .asleep) = none := by
    rw [find?_eq_none]
    intro worker _
    rw [Subsingleton.elim worker 0, now.settling]
    simp
  simp only [run, foldl_cons, foldl_nil, called, pushed]
  have later := now.later
  constructor
  all_goals
    simp [World.step, World.go, World.push, World.work, World.setWorker, World.setClient,
      World.note,
      World.notifyOne, nobody, World.settle, World.rise, queued, bytes, now.settling, now.pushed,
      now.depth, now.bytes, now.free, now.unused, now.starved]
  omega

theorem Turn.next (now : Turn seq world) : Turn (seq + 1) (run (World.step narrow) world turn) := by
  have split : turn = [.work 0 0, .work 0 0, .work 0 0, .work 0 0] ++
      [.call 0 (.push renameJob), .go 0 0, .go 0 0, .work 0 0] := rfl
  rw [split, run_append]
  exact now.away.turn

/-- Steps of workers and of one caller that does not hold the queue. -/
def lone : Act 1 → Bool
  | .work _ _ => true
  | .call client call => client = 0 && call ≠ .hold
  | .go client _ => client = 0
  | _ => false

/-- The other callers make no call, and the queue is not held. -/
structure Alone (world : World 1) : Prop where
  idle : ∀ client, client ≠ 0 → world.clients client = .idle
  free : world.state.held = false
  gentle : world.clients 0 ≠ .holding

theorem notifyOne_held {n : Nat} (world : World n) (chosen : Fin n) :
    (world.notifyOne chosen).state.held = world.state.held := by
  rw [notifyOne_eq]

theorem work_held {config : Config} {n : Nat} {world : World n} (kept : World.Kept config world)
    (worker chosen : Fin n) : (world.work config worker chosen).state.held = world.state.held := by
  unfold World.work
  split
  · unfold World.look
    split
    · rfl
    split
    · rfl
    rename_i picked seq chose
    split
    · rfl
    rename_i state job took
    obtain ⟨after, its, result, _, _, _, _, _, held, _⟩ := kept.sound.take chose
    rw [took] at result
    obtain ⟨rfl, rfl⟩ := Prod.mk.inj (Option.some.inj result)
    exact held
  · rfl
  · rfl
  · rfl
  · rename_i seq job phase
    have hand : (world.workers worker).hand = some (.counted, seq, job) := by rw [phase]; rfl
    obtain ⟨_, held, _⟩ := kept.sound.complete (World.mem_taken.mpr ⟨worker, _, _, hand⟩)
      (kept.named worker _ seq job hand)
    unfold World.complete
    dsimp only
    split
    · exact held
    · exact (notifyOne_held _ chosen).trans held
    · exact held
  · rfl

/-- A caller that does not hold the queue leaves it as free as it was. -/
theorem went_held {after : World 1} {chosen : Fin 1} (free : world.state.held = false)
    (gentle : world.clients 0 ≠ .holding) (went : Went narrow world 0 chosen after) :
    after.state.held = false ∧ after.clients 0 ≠ .holding := by
  have placed : ∀ (other : World 1) (phase : Client), other.state.held = false → phase ≠ .holding →
      (other.setClient 0 phase).state.held = false ∧
        (other.setClient 0 phase).clients 0 ≠ .holding := by
    intro other phase unheld place
    refine ⟨unheld, fun holding => place ?_⟩
    rw [← holding]
    exact (Function.update_self (0 : Nat) phase other.clients).symm
  cases went with
  | rests => exact ⟨free, gentle⟩
  | pushes => exact placed _ .notifying ((Links.enqueue_held _ _ _ _).trans free) (by simp)
  | notifies => exact placed _ _ ((notifyOne_held _ _).trans free) (by simp)
  | leaves => exact placed world .idle free (by simp)
  | holds phase => exact absurd phase gentle
  | frees => exact placed _ _ rfl (by simp)
  | fills | marks | counts | enters | waits | releases => exact placed _ _ free (by simp)

theorem Alone.step (kept : Kept narrow world) (alone : Alone world) {act : Act 1}
    (own : lone act = true) : Alone (world.step narrow act) := by
  cases act with
  | work worker chosen =>
    refine ⟨fun client other => ?_, (work_held kept worker chosen).trans alone.free, ?_⟩
    · rcases work_clients narrow world worker chosen client with same | risen
      · exact same.trans (alone.idle client other)
      · exact risen.trans (by rw [alone.idle client other]; rfl)
    have gentle := alone.gentle
    intro holding
    rcases work_clients narrow world worker chosen 0 with same | risen
    · exact gentle (same.symm.trans holding)
    have before := risen.symm.trans holding
    cases phase : world.clients 0 with
    | holding => exact gentle phase
    | _ =>
      rw [phase] at before
      cases before
  | call client call =>
    obtain ⟨zero, kind⟩ := Bool.and_eq_true_iff.mp own
    obtain rfl := of_decide_eq_true zero
    unfold World.step
    dsimp only
    split
    · refine ⟨fun other differs => ?_, alone.free, ?_⟩
      · exact (setClient_stays differs).trans (alone.idle other differs)
      · cases call with
        | hold => exact absurd rfl (of_decide_eq_true kind)
        | _ => simp [setClient, begin]
    · exact alone
  | go client chosen =>
    obtain rfl := of_decide_eq_true own
    obtain ⟨free, gentle⟩ := went_held alone.free alone.gentle (go_went narrow world 0 chosen)
    refine ⟨fun other differs => ?_, free, gentle⟩
    exact (go_others narrow world chosen differs).trans (alone.idle other differs)
  | wake worker => cases own
  | rouse client => cases own
  | set flag value => cases own

theorem alone_states {acts : Nat → Act 1} (own : ∀ moment, lone (acts moment) = true)
    (moment : Nat) : Alone (states narrow acts moment) := by
  induction moment with
  | zero => exact ⟨fun _ _ => rfl, rfl, by simp [states, path, World.start]⟩
  | succ moment ih =>
    exact ih.step (reached_states ⟨narrow, acts⟩ moment).kept (own moment)

/-- Such a run is fair if its worker and its caller are stepped now and again or at rest. -/
theorem fair_of_lone {acts : Nat → Act 1} (own : ∀ moment, lone (acts moment) = true)
    (worker : ∀ moment, ∃ later, moment ≤ later ∧
      ((states narrow acts later).workers 0 = .asleep ∨ acts later = .work 0 0))
    (client : ∀ moment, ∃ later, moment ≤ later ∧
      (((states narrow acts later).clients 0).able = false ∨ acts later = .go 0 0)) :
    IsFair narrow acts := by
  refine ⟨fun someone moment => ?_, fun someone moment => ?_⟩
  · obtain rfl : someone = 0 := Subsingleton.elim _ _
    obtain ⟨later, after, asleep | stepped⟩ := worker moment
    · exact ⟨later, after, Or.inl fun awake => awake asleep⟩
    · exact ⟨later, after, Or.inr ⟨0, stepped⟩⟩
  by_cases first : someone = 0
  · obtain rfl := first
    obtain ⟨later, after, resting | stepped⟩ := client moment
    · exact ⟨later, after, Or.inl (by simp [resting])⟩
    · exact ⟨later, after, Or.inr ⟨0, stepped⟩⟩
  · refine ⟨moment, Nat.le_refl _, Or.inl ?_⟩
    simp [(alone_states own moment).idle someone first, Client.able]

theorem storm_turn (round : Nat) {index : Nat} (within : index < 8) :
    storm (6 + 8 * round + index) = turn.getD index (.work 0 0) := by
  unfold storm
  rw [if_neg (by omega), show (6 + 8 * round + index - 6) % 8 = index by omega]

theorem storm_lone (moment : Nat) : lone (storm moment) = true := by
  have openings : ∀ index < 6, lone (opening.getD index (.work 0 0)) = true := by decide
  have turns : ∀ index < 8, lone (turn.getD index (.work 0 0)) = true := by decide
  unfold storm
  split
  · exact openings moment (by assumption)
  · exact turns _ (Nat.mod_lt _ (by decide))

theorem storm_fair : IsFair narrow storm := by
  refine fair_of_lone storm_lone (fun moment => ?_) fun moment => ?_
  · exact ⟨6 + 8 * moment + 0, by omega, Or.inr (storm_turn moment (by decide))⟩
  · exact ⟨6 + 8 * moment + 5, by omega, Or.inr (storm_turn moment (by decide))⟩

/-- At the start of every round the worker is about to look past the clone. -/
theorem storm_turns (round : Nat) : Turn (2 + round) (states narrow storm (6 + 8 * round)) := by
  induction round with
  | zero => constructor <;> first | rfl | decide
  | succ round ih =>
    have acts : (range 8).map (fun index => storm (6 + 8 * round + index)) = turn := by
      rw [show turn = (range 8).map fun index => turn.getD index (.work 0 0) from rfl]
      exact map_congr_left fun index within => storm_turn round (mem_range.mp within)
    have whole : states narrow storm (6 + 8 * round + 8) = _ := path_add (6 + 8 * round) 8
    rw [acts] at whole
    rw [show 6 + 8 * (round + 1) = 6 + 8 * round + 8 from rfl, whole]
    exact ih.next

/-- A few steps, and then a worker that is asleep. -/
def script (acts : List (Act 1)) (moment : Nat) : Act 1 := acts.getD moment (.work 0 0)

section Scripts

variable {acts : List (Act 1)} (asleep : (World.states narrow (script acts) acts.length).workers 0 =
  .asleep)

include asleep in
/-- Nothing changes after the steps of a script. -/
theorem script_rests (wait : Nat) : states narrow (script acts) (acts.length + wait) =
    states narrow (script acts) acts.length := by
  induction wait with
  | zero => rfl
  | succ wait ih =>
    have act : script acts (acts.length + wait) = .work 0 0 :=
      getD_eq_default _ _ (Nat.le_add_right _ _)
    calc states narrow (script acts) (acts.length + (wait + 1))
        = (states narrow (script acts) (acts.length + wait)).step narrow
            (script acts (acts.length + wait)) := rfl
      _ = (states narrow (script acts) acts.length).work narrow 0 0 := by
        rw [ih, act]
        rfl
      _ = states narrow (script acts) acts.length := by
        unfold work
        rw [asleep]

theorem script_lone (own : ∀ act ∈ acts, lone act = true) (moment : Nat) :
    lone (script acts moment) = true := by
  unfold script
  rcases Nat.lt_or_ge moment acts.length with within | past
  · grind
  · rw [getD_eq_default _ _ past]
    rfl

include asleep in
theorem script_fair (own : ∀ act ∈ acts, lone act = true)
    (resting : ((states narrow (script acts) acts.length).clients 0).able = false) :
    IsFair narrow (script acts) := by
  refine fair_of_lone (script_lone own) (fun moment => ?_) fun moment => ?_
  · refine ⟨acts.length + moment, Nat.le_add_left _ _, Or.inl ?_⟩
    rw [script_rests asleep]
    exact asleep
  · refine ⟨acts.length + moment, Nat.le_add_left _ _, Or.inl ?_⟩
    rw [script_rests asleep]
    exact resting

end Scripts

/-- Two clones of one file are pushed, run and put away. -/
def twoClones : List (Act 1) :=
  [.call 0 (.push cloneJob), .go 0 0, .go 0 0, .call 0 (.push cloneJob), .go 0 0, .go 0 0] ++
    replicate 11 (.work 0 0)

/-- A caller waits for a job that nobody pushes. -/
def idleWait : List (Act 1) := [.call 0 (.drainTo 1), .go 0 0, .go 0 0, .work 0 0]

theorem twoClones_asleep :
    (states narrow (script twoClones) twoClones.length).workers 0 = .asleep := by decide

theorem twoClones_fair : IsFair narrow (script twoClones) :=
  script_fair twoClones_asleep (by decide) (by decide)

theorem twoClones_pushed (moment : Nat) : (states narrow (script twoClones) moment).pushed ≤ 2 := by
  refine (pushed_le ⟨narrow, script twoClones⟩ (Nat.le_add_left moment twoClones.length)).trans ?_
  rw [script_rests twoClones_asleep]
  decide

/-- The queue is fair to its threads and never held, and yet a clone that was pushed is never
started while renames keep coming, and a caller that waits for a number nobody reaches does
not return. -/
theorem clone_starved :
    (World.IsFair narrow storm ∧
      (∀ moment, (World.states narrow storm moment).state.held = false) ∧
      .pushed 1 ∈ (World.states narrow storm 6).log ∧
      ∀ moment, .started 1 ∉ (World.states narrow storm moment).log) ∧
    (World.IsFair narrow (script idleWait) ∧
      (∀ moment, (World.states narrow (script idleWait) moment).state.held = false) ∧
      ∀ wait, (World.states narrow (script idleWait) (4 + wait)).clients 0 =
        .waiting (.drainTo 1)) := by
  have asleep : (states narrow (script idleWait) idleWait.length).workers 0 = .asleep := by
    decide
  have own : ∀ act ∈ idleWait, lone act = true := by decide
  constructor
  · refine ⟨storm_fair, fun moment => (alone_states storm_lone moment).free, by decide, ?_⟩
    intro moment started
    exact (storm_turns moment).starved ((log_le ⟨narrow, storm⟩ (by omega)).subset started)
  · refine ⟨script_fair asleep own (by decide), fun moment => ?_, fun wait => ?_⟩
    · exact (alone_states (script_lone own) moment).free
    · exact congrArg (fun world : World 1 => world.clients 0) (script_rests asleep wait)

/-- Both clones run, once, and the second starts after the first has finished. -/
theorem clone_runs_once :
    (∀ seq ∈ [1, 2], ∃ since, ∀ later, since ≤ later →
      (World.states narrow (script twoClones) later).log.count (.started seq) = 1 ∧
        (World.states narrow (script twoClones) later).log.count (.finished seq) = 1) ∧
    ∃ past rest, (run (World.step narrow) (World.start 1) twoClones).log =
      past ++ .started 2 :: rest ∧ .finished 1 ∈ past := by
  obtain ⟨ordered, once⟩ := jobs_run_once_in_order narrow 1
  constructor
  · intro seq pushed
    have noted : ∀ seq ∈ [1, 2], .pushed seq ∈ (World.states narrow (script twoClones) 6).log := by
      decide
    exact once (script twoClones) twoClones_fair
      (fun moment => (alone_states (script_lone (by decide)) moment).free) 2 twoClones_pushed 6 seq
      (noted seq pushed)
  · have started : .started 2 ∈ (run (World.step narrow) (World.start 1) twoClones).log := by
      decide
    obtain ⟨past, rest, split⟩ := append_of_mem started
    refine ⟨past, rest, split, (ordered twoClones).2.1 past 2 rest split 1 ?_ (by decide)⟩
    have jobs : (run (World.step narrow) (World.start 1) twoClones).jobs =
        [cloneJob, cloneJob] := by
      decide
    rw [jobs]
    exact ⟨1, ⟨cloneJob, rfl, by decide⟩, ⟨cloneJob, rfl, by decide⟩⟩

/-- Both clones are applied, and the pushes return. -/
theorem clone_applied :
    (∀ seq ∈ [1, 2], ∃ later, .applied seq ∈ (World.states narrow (script twoClones) later).log) ∧
      ∀ moment ∈ [1, 4], ∃ later, moment ≤ later ∧
        (World.states narrow (script twoClones) later).clients 0 = .idle := by
  have progress := (queue_never_stuck narrow 1).2 (script twoClones) twoClones_fair 0
    (fun moment _ => (alone_states (script_lone (by decide)) moment).free) 2 twoClones_pushed
  have noted : ∀ seq ∈ [1, 2], .pushed seq ∈ (World.states narrow (script twoClones) 6).log := by
    decide
  have pushing : ∀ moment ∈ [1, 4],
      (World.states narrow (script twoClones) moment).clients 0 = .pushing cloneJob := by
    decide
  refine ⟨fun seq pushed => (progress 6).1 seq (noted seq pushed), fun moment inside => ?_⟩
  exact (progress moment).2 0 (Or.inl ⟨cloneJob, Or.inl (pushing moment inside)⟩)

end Starvation
end Lighter.Fs.Apply
