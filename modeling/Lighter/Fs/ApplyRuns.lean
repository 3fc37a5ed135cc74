import Lighter.Fs.ApplyWorld
import Mathlib.Data.Finset.Option

/-!
# What a step of the threads can do

Most steps move a caller, wake or put to sleep a worker, or change a flag, and leave the
queue, its counters and the jobs in the workers' hands alone. Of the others there are five:
a push, a look that takes a job, a job's return, its bytes given back, and a completion. The
queue stays sound through all of them, for the jobs that the workers have in hand.
-/

namespace Lighter.Fs.Apply

open List Finset

/-- Not about a job. -/
def Event.aside : Event → Bool
  | .flag _ _ => true
  | .ended _ => true
  | _ => false

namespace World

variable {n : Nat} {config : Config}

/-- The same queue, counters and jobs in hand. -/
structure Quiet (before after : World n) : Prop where
  state : after.state = { before.state with held := after.state.held }
  hands : ∀ worker, (after.workers worker).hand = (before.workers worker).hand
  depth : after.depth = before.depth
  pushed : after.pushed = before.pushed
  applied : after.applied = before.applied
  bytes : after.bytes = before.bytes
  jobs : after.jobs = before.jobs
  log : ∃ more, after.log = before.log ++ more ∧ ∀ event ∈ more, event.aside = true

namespace Quiet

theorem refl (world : World n) : Quiet world world :=
  ⟨rfl, fun _ => rfl, rfl, rfl, rfl, rfl, rfl, [], (append_nil _).symm, by simp⟩

theorem trans {first second third : World n} (prior : Quiet first second)
    (later : Quiet second third) : Quiet first third := by
  obtain ⟨more, log, aside⟩ := prior.log
  obtain ⟨further, longer, beside⟩ := later.log
  refine ⟨?_, fun worker => (later.hands worker).trans (prior.hands worker),
    later.depth.trans prior.depth, later.pushed.trans prior.pushed,
    later.applied.trans prior.applied, later.bytes.trans prior.bytes,
    later.jobs.trans prior.jobs, more ++ further, ?_, ?_⟩
  · rw [later.state, prior.state]
  · rw [longer, log, append_assoc]
  · grind

theorem setClient (world : World n) (client : Nat) (phase : Client) :
    Quiet world (world.setClient client phase) := { refl world with }

theorem leave (world : World n) (client : Nat) (barrier : Barrier) :
    Quiet world (world.leave client barrier) :=
  { refl world with log := ⟨[.ended barrier], rfl, by simp [Event.aside]⟩ }

/-- A worker without a job in hand goes where it has none either. -/
theorem setWorker {world : World n} {worker : Fin n} {phase : Phase}
    (before : (world.workers worker).hand = none) (after : phase.hand = none) :
    Quiet world (world.setWorker worker phase) := by
  refine { refl world with hands := fun other => ?_ }
  by_cases same : other = worker
  · subst same
    simp [World.setWorker, before, after]
  · simp [World.setWorker, same]

variable (world : World n)

theorem notifyOne (chosen : Fin n) : Quiet world (world.notifyOne chosen) := by
  unfold World.notifyOne
  split
  · rename_i asleep
    exact setWorker (by rw [asleep]; rfl) rfl
  split
  · exact refl world
  · rename_i worker found
    have asleep := find?_some found
    exact setWorker (by rw [of_decide_eq_true asleep]; rfl) rfl

theorem notifyAll : Quiet world world.notifyAll := by
  refine { refl world with hands := fun worker => ?_ }
  unfold World.notifyAll
  dsimp only
  split
  · rename_i asleep
    rw [asleep]
    rfl
  · rfl

theorem settle : Quiet world world.settle := { refl world with }

theorem held (value : Bool) :
    Quiet world { world with state := { world.state with held := value } } :=
  { refl world with state := rfl }

end Quiet

/-- What a step does to the queue and the jobs in hand, whatever else it does. -/
inductive Moved (config : Config) (before after : World n) : Prop where
  | quiet (same : Quiet before after)
  | pushed (client : Nat) (job : Job) (same : Quiet (before.push config client job) after)
  | took (worker : Fin n) (picked state : State) (seq : Nat) (job : Job)
      (idle : (before.workers worker).hand = none)
      (chosen : before.state.pick config = some (picked, seq))
      (taken : picked.take config seq = some (state, job))
      (same : Quiet (({ before with state := state }.setWorker worker
        (.busy .running seq job)).note (.started seq)) after)
  | returned (worker : Fin n) (seq : Nat) (job : Job)
      (hand : before.workers worker = .busy .running seq job)
      (same : Quiet ((before.setWorker worker (.busy .returned seq job)).note (.finished seq))
        after)
  | counted (worker : Fin n) (seq : Nat) (job : Job)
      (hand : before.workers worker = .busy .returned seq job)
      (same : Quiet ({ before with bytes := before.bytes - job.bytes }.setWorker worker
        (.busy .counted seq job)) after)
  | applied (worker : Fin n) (seq : Nat) (job : Job)
      (hand : before.workers worker = .busy .counted seq job)
      (same : Quiet (({ before with
        state := (before.state.complete config seq job).1
        applied := (before.state.complete config seq job).1.watermark before.pushed
        depth := before.depth - 1 }.setWorker worker .settling).note (.applied seq)) after)

variable (world : World n)

theorem look_moved (worker : Fin n) (looking : world.workers worker = .looking) :
    Moved config world (world.look config worker) := by
  have idle : (world.workers worker).hand = none := by rw [looking]; rfl
  have sleeps : Moved config world (world.setWorker worker .asleep) :=
    .quiet (Quiet.setWorker idle rfl)
  unfold look
  split
  · exact sleeps
  split
  · exact sleeps
  rename_i picked seq chosen
  split
  · exact .quiet (Quiet.refl world)
  · rename_i state job taken
    exact .took worker picked state seq job idle chosen taken (Quiet.refl _)

theorem complete_moved (worker chosen : Fin n) {seq : Nat} {job : Job}
    (hand : world.workers worker = .busy .counted seq job) :
    Moved config world (world.complete config worker chosen seq job) := by
  refine .applied worker seq job hand ?_
  unfold complete
  dsimp only
  split
  · exact Quiet.refl _
  · exact Quiet.notifyOne _ chosen
  · exact Quiet.notifyAll _

theorem work_moved (worker chosen : Fin n) :
    Moved config world (world.work config worker chosen) := by
  unfold work
  split
  · rename_i looking
    exact look_moved world worker looking
  · exact .quiet (Quiet.refl world)
  · rename_i seq job hand
    exact .returned worker seq job hand (Quiet.refl _)
  · rename_i seq job hand
    exact .counted worker seq job hand (Quiet.refl _)
  · rename_i seq job hand
    exact complete_moved world worker chosen hand
  rename_i settling
  refine .quiet ((Quiet.settle world).trans (Quiet.setWorker ?_ rfl))
  change (world.workers worker).hand = none
  rw [settling]
  rfl

/-- A notification changes nothing but the workers. -/
theorem notifyOne_eq (chosen : Fin n) :
    world.notifyOne chosen = { world with workers := (world.notifyOne chosen).workers } := by
  unfold notifyOne
  split
  · rfl
  · split <;> rfl

/-- What a caller's step can do. -/
inductive Went (config : Config) (world : World n) (client : Nat) (chosen : Fin n) :
    World n → Prop where
  | rests : Went config world client chosen world
  | fills (job : Job) (phase : world.clients client = .pushing job)
      (full : config.bytesCap < world.bytes ∨ config.window < world.depth) :
      Went config world client chosen (world.setClient client (.pushAsleep job))
  | pushes (job : Job) (phase : world.clients client = .pushing job) :
      Went config world client chosen (world.push config client job)
  | notifies : Went config world client chosen ((world.notifyOne chosen).setClient client .idle)
  | marks (called : Nat) (phase : world.clients client = .marking called) :
      Went config world client chosen
        (world.setClient client (.checking (.drain called world.pushed)))
  | counts (called flag : Nat) (phase : world.clients client = .checking (.waitWhile called flag)) :
      Went config world client chosen (world.setClient client (.counting called flag))
  | enters (barrier : Barrier) (phase : world.clients client = .checking barrier ∨
      ∃ called flag, barrier = .waitWhile called flag ∧
        world.clients client = .counting called flag) :
      Went config world client chosen (world.setClient client (.entering barrier))
  | waits (barrier : Barrier) (phase : world.clients client = .entering barrier)
      (stay : world.stays barrier = true) :
      Went config world client chosen (world.setClient client (.waiting barrier))
  | leaves (barrier : Barrier) (phase : world.clients client = .checking barrier ∨
      world.clients client = .entering barrier ∨
      ∃ called flag, barrier = .waitWhile called flag ∧
        world.clients client = .counting called flag)
      (done : world.stays barrier = false) :
      Went config world client chosen (world.leave client barrier)
  | holds (phase : world.clients client = .holding) : Went config world client chosen
      ({ world with state := { world.state with held := true } }.setClient client .idle)
  | frees : Went config world client chosen
      ({ world with state := { world.state with held := false } }.setClient client .releasing)
  | releases : Went config world client chosen (world.notifyAll.setClient client .idle)

theorem check_went (config : Config) (world : World n) {client : Nat} (chosen : Fin n)
    {barrier : Barrier} (phase : world.clients client = .checking barrier) :
    Went config world client chosen (world.check client barrier) := by
  unfold check
  cases barrier with
  | drain called mark | drainTo mark =>
    dsimp only
    split
    · rename_i reached
      exact .leaves _ (Or.inl phase) (by simpa [stays] using reached)
    · exact .enters _ (Or.inl phase)
  | waitWhile called flag =>
    dsimp only
    split
    · rename_i down
      exact .leaves _ (Or.inl phase) (by simp [stays, Bool.not_eq_true' _ |>.mp down])
    · exact .counts called flag phase

theorem go_went (config : Config) (world : World n) (client : Nat) (chosen : Fin n) :
    Went config world client chosen (world.go config client chosen) := by
  unfold go
  split
  · exact .rests
  · rename_i job phase
    split
    · rename_i full
      exact .fills job phase (by simpa using full)
    · exact .pushes job phase
  · exact .rests
  · exact .notifies
  · rename_i called phase
    exact .marks called phase
  · rename_i barrier phase
    exact check_went config world chosen phase
  · rename_i called flag phase
    split
    · rename_i empty
      exact .leaves _ (Or.inr (Or.inr ⟨called, flag, rfl, phase⟩)) (by simp [stays, empty])
    · exact .enters _ (Or.inr ⟨called, flag, rfl, phase⟩)
  · rename_i barrier phase
    split
    · rename_i stay
      exact .waits barrier phase stay
    · rename_i done
      exact .leaves barrier (Or.inr (Or.inl phase)) (Bool.not_eq_true _ |>.mp done)
  · exact .rests
  · rename_i phase
    exact .holds phase
  · exact .frees
  · exact .releases

theorem Went.moved {world after : World n} {client : Nat} {chosen : Fin n}
    (went : Went config world client chosen after) : Moved config world after := by
  cases went with
  | rests => exact .quiet (Quiet.refl world)
  | pushes job => exact .pushed client job (Quiet.refl _)
  | fills | marks | counts | enters | waits => exact .quiet (Quiet.setClient world client _)
  | leaves barrier => exact .quiet (Quiet.leave world client barrier)
  | notifies => exact .quiet ((Quiet.notifyOne world chosen).trans (Quiet.setClient _ client _))
  | holds => exact .quiet ((Quiet.held world true).trans (Quiet.setClient _ client _))
  | frees => exact .quiet ((Quiet.held world false).trans (Quiet.setClient _ client _))
  | releases => exact .quiet ((Quiet.notifyAll world).trans (Quiet.setClient _ client _))

/-- Every step is one of the six. -/
theorem step_moved (config : Config) (world : World n) (act : Act n) :
    Moved config world (world.step config act) := by
  cases act with
  | work worker chosen => exact work_moved world worker chosen
  | wake worker =>
    unfold step
    dsimp only
    split
    · rename_i asleep
      exact .quiet (Quiet.setWorker (by rw [asleep]; rfl) rfl)
    · exact .quiet (Quiet.refl world)
  | call client call =>
    unfold step
    dsimp only
    split
    · exact .quiet (Quiet.setClient world client _)
    · exact .quiet (Quiet.refl world)
  | go client chosen => exact (go_went config world client chosen).moved
  | rouse client => exact .quiet (Quiet.setClient world client _)
  | set flag value =>
    exact .quiet ⟨rfl, fun _ => rfl, rfl, rfl, rfl, rfl, rfl, [.flag flag value], rfl,
      by simp [Event.aside]⟩

/-- The jobs that workers have in hand, by number. -/
def taken (world : World n) : Finset Nat :=
  Finset.univ.biUnion fun worker => ((world.workers worker).hand.map fun hand => hand.2.1).toFinset

theorem mem_taken {world : World n} {seq : Nat} :
    seq ∈ world.taken ↔
      ∃ worker stage job, (world.workers worker).hand = some (stage, seq, job) := by
  simp [taken]

theorem Quiet.taken {before after : World n} (same : Quiet before after) :
    after.taken = before.taken := by
  ext seq
  simp only [mem_taken, same.hands]

section Hands

variable {world after : World n} {worker : Fin n} {stage stage' : Stage} {seq : Nat} {job : Job}

/-- What the workers other than one have in hand is what they had. -/
theorem hand_setWorker (world : World n) (worker other : Fin n) (phase : Phase) :
    ((world.setWorker worker phase).workers other).hand =
      if other = worker then phase.hand else (world.workers other).hand := by
  by_cases same : other = worker
  · subst same
    simp [setWorker]
  · simp [setWorker, same]

/-- Only this worker's hand changed. -/
abbrev Hands (world after : World n) (worker : Fin n) (hand : Option (Stage × Nat × Job)) : Prop :=
  ∀ other, (after.workers other).hand = if other = worker then hand else (world.workers other).hand

/-- The worker took the job that the queue let go of. -/
abbrev started (world : World n) (worker : Fin n) (state : State) (seq : Nat) (job : Job) :
    World n :=
  ({ world with state := state }.setWorker worker (.busy .running seq job)).note (.started seq)

/-- The worker put its job away, and has woken nobody yet. -/
abbrev putAway (config : Config) (world : World n) (worker : Fin n) (seq : Nat) (job : Job) :
    World n :=
  ({ world with
    state := (world.state.complete config seq job).1
    applied := (world.state.complete config seq job).1.watermark world.pushed
    depth := world.depth - 1 }.setWorker worker .settling).note (.applied seq)

/-- A worker takes a job. -/
theorem taken_insert (idle : (world.workers worker).hand = none)
    (hands : Hands world after worker (some (stage, seq, job))) :
    after.taken = insert seq world.taken := by
  ext number
  rw [mem_taken, mem_insert, mem_taken]
  constructor
  · grind
  · grind

variable (before : (world.workers worker).hand = some (stage, seq, job))
include before

variable (hands : Hands world after worker (some (stage', seq, job)))
include hands

/-- A worker goes on with its job. -/
theorem hand_before {other : Fin n} {later : Stage} {number : Nat} {its : Job}
    (hand : (after.workers other).hand = some (later, number, its)) :
    ∃ prior, (world.workers other).hand = some (prior, number, its) := by
  rw [hands] at hand
  split at hand
  · grind
  · exact ⟨later, hand⟩

theorem taken_same : after.taken = world.taken := by
  ext number
  rw [mem_taken, mem_taken]
  constructor
  · grind
  · grind

omit hands

/-- A worker lets its job go, which nobody else has. -/
theorem taken_erase
    (alone : ∀ other stage' job', (world.workers other).hand = some (stage', seq, job') →
      other = worker) (hands : Hands world after worker none) :
    after.taken = world.taken.erase seq := by
  ext number
  rw [mem_taken, mem_erase, mem_taken]
  constructor
  · grind
  · grind

end Hands

/-- The queue is sound for the jobs in hand, which are the workers' own, and its counters
say how much is outstanding. -/
structure Kept (config : Config) (world : World n) : Prop where
  sound : Sound config world.jobs world.taken world.state
  alone : ∀ first second stage stage' seq job job',
    (world.workers first).hand = some (stage, seq, job) →
    (world.workers second).hand = some (stage', seq, job') → first = second
  named : ∀ worker stage seq job, (world.workers worker).hand = some (stage, seq, job) →
    nth world.jobs seq = some job
  pushed : world.pushed = world.jobs.length
  depth : world.depth = world.state.incomplete.card
  watermark : world.applied = world.state.watermark world.pushed

namespace Kept

variable {world : World n}

theorem start (config : Config) (n : Nat) : Kept config (World.start n) := by
  have empty : (World.start n).taken = ∅ := by
    ext seq
    simp [mem_taken, World.start, Phase.hand]
  refine ⟨?_, ?_, ?_, rfl, rfl, rfl⟩
  · rw [empty]
    exact Sound.start config
  · intro first second stage stage' seq job job' hand
    cases hand
  · intro worker stage seq job hand
    cases hand

theorem quiet (kept : Kept config world) {after : World n} (same : Quiet world after) :
    Kept config after := by
  have incomplete : after.state.incomplete = world.state.incomplete := by rw [same.state]
  constructor
  · rw [same.jobs, same.taken, same.state]
    exact ⟨kept.sound.links.of_eq rfl rfl rfl, kept.sound.lanes.of_eq rfl rfl rfl rfl⟩
  · intro first second
    rw [same.hands, same.hands]
    exact kept.alone first second
  · intro worker
    rw [same.hands, same.jobs]
    exact kept.named worker
  · rw [same.pushed, same.jobs]
    exact kept.pushed
  · rw [same.depth, incomplete]
    exact kept.depth
  · rw [same.applied, same.pushed, kept.watermark, State.watermark, State.watermark, incomplete]

/-- A push leaves the watermark where it was: the new job is the oldest outstanding only if
there was none. -/
theorem watermark_insert (state after : State) (pushed : Nat)
    (known : ∀ seq ∈ state.incomplete, seq ≤ pushed)
    (incomplete : after.incomplete = insert (pushed + 1) state.incomplete) :
    after.watermark (pushed + 1) = state.watermark pushed := by
  unfold State.watermark
  rw [incomplete, min_insert]
  cases least : state.incomplete.min with
  | top => rfl
  | coe oldest =>
    have small := known oldest (mem_of_min least)
    rw [min_eq_right (WithTop.coe_le_coe.mpr (Nat.le_succ_of_le small))]

section

variable (kept : Kept config world)
include kept

/-- What a worker has taken is outstanding. -/
theorem busy {worker : Fin n} {stage : Stage} {seq : Nat} {job : Job}
    (hand : world.workers worker = .busy stage seq job) :
    (world.workers worker).hand = some (stage, seq, job) ∧ seq ∈ world.taken ∧
      seq ∈ world.state.incomplete := by
  have before : (world.workers worker).hand = some (stage, seq, job) := by rw [hand]; rfl
  have held := mem_taken.mpr ⟨worker, _, _, before⟩
  exact ⟨before, held, kept.sound.links.takenPresent seq held⟩

theorem push (client : Nat) (job : Job) : Kept config (world.push config client job) := by
  have sound := kept.sound.enqueue job
  rw [← kept.pushed] at sound
  have tables := Links.enqueue_incomplete config world.state (world.pushed + 1) job
  constructor
  · exact sound
  · exact kept.alone
  · intro worker stage seq other hand
    have found := kept.named worker stage seq other hand
    exact (nth_append (nth_le found).2).trans found
  · simp [World.push, World.note, World.setClient, kept.pushed]
  · have fresh : world.pushed + 1 ∉ world.state.incomplete := by
      intro there
      have known := (kept.sound.links.known there).2
      rw [kept.pushed] at known
      omega
    change world.depth + 1 = (world.state.enqueue config (world.pushed + 1) job).incomplete.card
    rw [tables, card_insert_of_notMem fresh, kept.depth]
  · change world.applied = (world.state.enqueue config (world.pushed + 1) job).watermark
      (world.pushed + 1)
    rw [kept.watermark, watermark_insert world.state _ world.pushed (fun seq there => ?_) tables]
    rw [kept.pushed]
    exact (kept.sound.links.known there).2

/-- A worker's hand changed and no job came or went: what is known of the jobs in hand is
known still. -/
theorem setWorker {after : World n} {worker : Fin n} {stage stage' : Stage} {seq : Nat} {job : Job}
    (before : (world.workers worker).hand = some (stage, seq, job))
    (hands : Hands world after worker (some (stage', seq, job)))
    (state : after.state = world.state) (depth : after.depth = world.depth)
    (pushed : after.pushed = world.pushed) (applied : after.applied = world.applied)
    (jobs : after.jobs = world.jobs) : Kept config after := by
  -- Whoever has a job in hand had it in hand.
  have had : ∀ other stage number its, (after.workers other).hand = some (stage, number, its) →
      ∃ prior, (world.workers other).hand = some (prior, number, its) :=
    fun other stage number its => hand_before before hands
  constructor
  · rw [jobs, taken_same before hands, state]
    exact kept.sound
  · have alone := kept.alone
    grind
  · have named := kept.named
    grind
  · rw [pushed, jobs]
    exact kept.pushed
  · rw [depth, state]
    exact kept.depth
  · rw [applied, pushed, state]
    exact kept.watermark

theorem took {worker : Fin n} {picked state : State} {seq : Nat}
    {job : Job} (idle : (world.workers worker).hand = none)
    (chosen : world.state.pick config = some (picked, seq))
    (taken : picked.take config seq = some (state, job)) :
    Kept config (world.started worker state seq job) := by
  obtain ⟨after, its, result, named, _, fresh, _, incomplete, _, sound⟩ := kept.sound.take chosen
  rw [taken] at result
  obtain ⟨rfl, rfl⟩ := Prod.mk.inj (Option.some.inj result)
  have hands : Hands world (world.started worker state seq job) worker
      (some (.running, seq, job)) :=
    fun other => hand_setWorker _ worker other _
  constructor
  · rw [taken_insert idle hands]
    exact sound
  · intro first second stage stage' number its its' handFirst handSecond
    rw [hands] at handFirst handSecond
    split at handFirst
    · rename_i isFirst
      cases handFirst
      split at handSecond
      · rename_i isSecond
        exact isFirst.trans isSecond.symm
      · exact absurd (mem_taken.mpr ⟨second, _, _, handSecond⟩) fresh
    · split at handSecond
      · cases handSecond
        exact absurd (mem_taken.mpr ⟨first, _, _, handFirst⟩) fresh
      · exact kept.alone first second stage stage' number its its' handFirst handSecond
  · intro other stage number its hand
    rw [hands] at hand
    split at hand
    · cases hand
      exact named
    · exact kept.named other stage number its hand
  · exact kept.pushed
  · change world.depth = state.incomplete.card
    rw [incomplete]
    exact kept.depth
  · change world.applied = state.watermark world.pushed
    rw [kept.watermark, State.watermark, State.watermark, incomplete]

theorem applied {worker : Fin n} {seq : Nat} {job : Job}
    (hand : world.workers worker = .busy .counted seq job) :
    Kept config (world.putAway config worker seq job) := by
  obtain ⟨had, held, there⟩ := kept.busy hand
  have hands : Hands world (world.putAway config worker seq job) worker none :=
    fun other => hand_setWorker _ worker other _
  obtain ⟨incomplete, _, sound⟩ := kept.sound.complete held (kept.named worker _ seq job had)
  unfold putAway at *
  generalize world.state.complete config seq job = result at *
  constructor
  · rw [taken_erase had
      (fun other stage its after => kept.alone other worker _ _ seq its job after had) hands]
    exact sound
  · have alone := kept.alone
    grind
  · intro other stage number its after
    rw [hands] at after
    split at after
    · cases after
    · exact kept.named other stage number its after
  · exact kept.pushed
  · change world.depth - 1 = result.1.incomplete.card
    rw [incomplete, card_erase_of_mem there, kept.depth]
  · rfl

/-- Every step keeps the queue sound. -/
theorem step (act : Act n) : Kept config (world.step config act) := by
  cases step_moved config world act with
  | quiet same => exact kept.quiet same
  | pushed client job same => exact (kept.push client job).quiet same
  | took worker picked state seq job idle chosen taken same =>
    exact (kept.took idle chosen taken).quiet same
  | returned worker seq job hand same | counted worker seq job hand same =>
    refine Kept.quiet ?_ same
    exact kept.setWorker (by rw [hand]; rfl) (fun other => hand_setWorker _ worker other _) rfl rfl
      rfl rfl rfl
  | applied worker seq job hand same => exact (kept.applied hand).quiet same

end

end Kept
end World
end Lighter.Fs.Apply
