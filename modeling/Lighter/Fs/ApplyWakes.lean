import Lighter.Fs.ApplyBarrier

/-!
# No wake-up is lost

A worker sleeps only when it found the queue held or found nothing, under the lock. What
makes a job findable after that is a push or a release, which each have a notification to
make, or a step of a worker, which then looks again itself. So as long as a job can be
found, some worker is up or a notification is on its way.

A caller sleeps in `settled` only when its loop was to go round, under the lock. What ends
its loop after that is a worker at some point between the start of a job and the
notification that follows it, so as long as a caller sleeps that need not, some worker is
there.
-/

namespace Lighter.Fs.Apply.World

open Function
attribute [local simp] setWorker

variable {n : Nat} {config : Config}

/-- A caller that is about to wake workers. -/
def wakes : Client → Bool
  | .notifying => true
  | .releasing => true
  | _ => false

/-- A worker is up, or a caller is about to wake one. -/
def Stirring (world : World n) : Prop :=
  (∃ worker, world.workers worker ≠ .asleep) ∨ ∃ client, wakes (world.clients client) = true

/-- A worker has a job in hand, or is about to wake the callers. -/
def Due (world : World n) : Prop :=
  ∃ worker, world.workers worker = .settling ∨
    ∃ stage seq job, world.workers worker = .busy stage seq job

/-- Asleep in `settled` although the loop it sleeps in is over. What a flag says counts only
where flags are lowered by jobs. -/
def overslept (config : Config) (flagged : Prop) (world : World n) : Client → Prop
  | .pushAsleep _ => world.bytes ≤ config.bytesCap ∧ world.depth ≤ config.window
  | .waiting (.drain _ mark) => mark ≤ world.applied
  | .waiting (.drainTo mark) => mark ≤ world.applied
  | .waiting (.waitWhile called flag) => flagged ∧ world.stays (.waitWhile called flag) = false
  | _ => False

/-- A flag is lowered by a job that is running. -/
def LowersInJob (flagged : Prop) (world : World n) (act : Act n) : Prop :=
  flagged → ∀ flag, act = .set flag false →
    ∃ worker seq job, world.workers worker = .busy .running seq job

/-- The mark of a caller in `drain`. -/
def drainMark : Client → Option Nat
  | .checking (.drain _ mark) => some mark
  | .entering (.drain _ mark) => some mark
  | .waiting (.drain _ mark) => some mark
  | _ => none

/-- No wake-up is lost, and what a `drain` waits for has been pushed. -/
structure Alert (config : Config) (flagged : Prop) (world : World n) : Prop where
  stirring : world.state.held = false → world.state.pick config ≠ none → world.Stirring
  due : ∀ client, world.overslept config flagged (world.clients client) → world.Due
  marks : ∀ client mark, drainMark (world.clients client) = some mark → mark ≤ world.pushed

/-- A job that can be found is looked for, or will be. -/
def Sought (config : Config) (world : World n) : Prop :=
  world.state.held = false → world.state.pick config ≠ none → world.Stirring

/-- Callers that oversleep will be woken. -/
def Attended (config : Config) (flagged : Prop) (world : World n) : Prop :=
  ∀ client, world.overslept config flagged (world.clients client) → world.Due

/-- What a `drain` waits for has been pushed. -/
def Marked (world : World n) : Prop :=
  ∀ client mark, drainMark (world.clients client) = some mark → mark ≤ world.pushed

theorem wakes_rise (client : Client) : wakes (rise client) = wakes client := by
  cases client <;> rfl

variable (world : World n)

/-- Whoever is up stays up when one is woken. -/
theorem notifyOne_awake (chosen : Fin n) {worker : Fin n} (awake : world.workers worker ≠ .asleep) :
    (world.notifyOne chosen).workers worker = world.workers worker := by
  have others : ∀ woken, world.workers woken = .asleep →
      (world.setWorker woken .looking).workers worker = world.workers worker := by
    intro woken asleep
    refine update_of_ne ?_ _ _
    rintro rfl
    exact awake asleep
  unfold notifyOne
  split
  · rename_i asleep
    exact others chosen asleep
  · grind

theorem notifyAll_awake {worker : Fin n} (awake : world.workers worker ≠ .asleep) :
    world.notifyAll.workers worker = world.workers worker := by
  unfold notifyAll
  dsimp only
  rw [if_neg awake]

/-- After one is woken, some worker is up. -/
theorem notifyOne_stirs (chosen : Fin n) :
    ∃ worker, (world.notifyOne chosen).workers worker ≠ .asleep := by
  by_cases asleep : world.workers chosen = .asleep
  · refine ⟨chosen, ?_⟩
    unfold notifyOne
    rw [if_pos asleep]
    simp
  · exact ⟨chosen, by rw [notifyOne_awake world chosen asleep]; exact asleep⟩

/-- With one job put away, its worker is about to wake the callers. -/
theorem complete_settling (worker chosen : Fin n) (seq : Nat) (job : Job) :
    (world.complete config worker chosen seq job).workers worker = .settling := by
  have settling : (world.putAway config worker seq job).workers worker = .settling :=
    update_self _ _ _
  unfold complete
  dsimp only
  split
  · exact settling
  · rw [notifyOne_awake _ chosen (by rw [settling]; simp), settling]
  · rw [notifyAll_awake _ (by rw [settling]; simp), settling]

section Stirs

variable {world : World n}

/-- The workers and what there is to find are the same, and whoever was about to wake them
is still. -/
theorem stirring_of_eq (stirring : world.Sought config) {after : World n}
    (state : after.state = world.state) (workers : after.workers = world.workers)
    (clients : ∀ client, wakes (world.clients client) = true →
      wakes (after.clients client) = true) : after.Sought config := by
  rw [Sought, state]
  intro free found
  rcases stirring free found with ⟨worker, awake⟩ | ⟨client, waking⟩
  · exact Or.inl ⟨worker, by rw [workers]; exact awake⟩
  · exact Or.inr ⟨client, clients client waking⟩

theorem wakes_update {clients : Nat → Client} {client : Nat} {phase : Client}
    (before : wakes (clients client) = false) (other : Nat)
    (waking : wakes (clients other) = true) :
    wakes (update clients client phase other) = true := by
  rw [update_of_ne]
  · exact waking
  · rintro rfl
    rw [before] at waking
    cases waking

theorem stirring_work (stirring : world.Sought config) (worker chosen : Fin n) :
    (world.work config worker chosen).Sought config := by
  have up : ∀ after : World n, after.workers worker ≠ .asleep → after.Stirring :=
    fun after awake => Or.inl ⟨worker, awake⟩
  unfold work
  split
  · unfold look
    split
    · rename_i held
      intro free
      exact absurd (held.symm.trans free) (by simp)
    split
    · rename_i nothing
      exact fun _ found => absurd nothing found
    · split
      · exact stirring
      · exact fun _ _ => up _ (by simp [note])
  · exact stirring
  · exact fun _ _ => up _ (by simp [note])
  · exact fun _ _ => up _ (by simp)
  · exact fun _ _ => up _ (by rw [complete_settling]; simp)
  · exact fun _ _ => up _ (by simp)

theorem stirring_went (stirring : world.Sought config) {client : Nat} {chosen : Fin n}
    {after : World n} (went : Went config world client chosen after) : after.Sought config := by
  -- A caller that wakes nobody goes where it likes.
  have moves : ∀ phase, wakes (world.clients client) = false → ∀ other,
      wakes (world.clients other) = true →
        wakes (update world.clients client phase other) = true :=
    fun _ before => wakes_update before
  cases went with
  | rests => exact stirring
  | fills job phase | marks called phase | counts called flag phase | waits barrier phase =>
    exact stirring_of_eq stirring rfl rfl (moves _ (by rw [phase]; rfl))
  | pushes => exact fun _ _ => Or.inr ⟨client, by simp [push, note, setClient, wakes]⟩
  | notifies =>
    intro _ _
    obtain ⟨worker, awake⟩ := notifyOne_stirs world chosen
    exact Or.inl ⟨worker, awake⟩
  | enters barrier phase =>
    refine stirring_of_eq stirring rfl rfl (moves _ ?_)
    rcases phase with phase | ⟨_, _, _, phase⟩ <;> rw [phase] <;> rfl
  | leaves barrier phase =>
    refine stirring_of_eq stirring rfl rfl (moves .idle ?_)
    rcases phase with phase | phase | ⟨_, _, _, phase⟩ <;> rw [phase] <;> rfl
  | holds => exact fun free => absurd free (by simp [setClient])
  | frees => exact fun _ _ => Or.inr ⟨client, by simp [setClient, wakes]⟩
  | releases =>
    intro _ _
    refine Or.inl ⟨chosen, ?_⟩
    change world.notifyAll.workers chosen ≠ .asleep
    unfold notifyAll
    dsimp only
    split
    · simp
    · rename_i awake
      exact awake

theorem stirring_step (stirring : world.Sought config) (act : Act n) :
    (world.step config act).Sought config := by
  cases act with
  | work worker chosen => exact stirring_work stirring worker chosen
  | wake worker =>
    unfold step
    dsimp only
    split
    · exact fun _ _ => Or.inl ⟨worker, by simp⟩
    · exact stirring
  | call client call =>
    unfold step
    dsimp only
    split
    · rename_i idle
      exact stirring_of_eq stirring rfl rfl (wakes_update (by rw [idle]; rfl))
    · exact stirring
  | go client chosen => exact stirring_went stirring (go_went config world client chosen)
  | rouse client =>
    refine stirring_of_eq stirring rfl rfl fun other waking => ?_
    change wakes (update world.clients client (rise (world.clients client)) other) = true
    by_cases same : other = client
    · subst same
      rw [update_self, wakes_rise]
      exact waking
    · rw [update_of_ne same]
      exact waking
  | set flag value => exact stirring_of_eq stirring rfl rfl fun _ waking => waking

end Stirs

section Dues

variable {flagged : Prop} {world : World n} {after : World n}

/-- Whoever has a job in hand or a notification to make is where they were. -/
theorem Due.of_workers (due : world.Due)
    (workers : ∀ worker, world.workers worker ≠ .looking → world.workers worker ≠ .asleep →
      after.workers worker = world.workers worker) : after.Due := by
  obtain ⟨worker, settling | ⟨stage, seq, job, busy⟩⟩ := due
  · refine ⟨worker, Or.inl ?_⟩
    rw [workers worker (by simp [settling]) (by simp [settling]), settling]
  · exact ⟨worker, Or.inr ⟨stage, seq, job,
      by rw [workers worker (by simp [busy]) (by simp [busy]), busy]⟩⟩

theorem setWorker_others {worker : Fin n} {phase : Phase}
    (resting : world.workers worker = .looking ∨ world.workers worker = .asleep) (other : Fin n)
    (notLooking : world.workers other ≠ .looking) (notAsleep : world.workers other ≠ .asleep) :
    (world.setWorker worker phase).workers other = world.workers other := by
  refine update_of_ne ?_ _ _
  rintro rfl
  exact resting.elim notLooking notAsleep

/-- A caller risen from `settled` does not sleep. -/
theorem not_overslept_rise (world : World n) (client : Client) :
    ¬ world.overslept config flagged (rise client) := by
  cases client with
  | waiting barrier | _ => exact fun never => never

/-- Whether a caller oversleeps is a matter of the counters and the flags. -/
theorem overslept_of_eq (bytes : after.bytes = world.bytes) (depth : after.depth = world.depth)
    (applied : after.applied = world.applied) (flags : after.flags = world.flags)
    (client : Client) :
    after.overslept config flagged client ↔ world.overslept config flagged client := by
  cases client with
  | waiting barrier =>
    cases barrier <;> simp [overslept, stays, applied, flags, depth]
  | pushAsleep job => simp [overslept, bytes, depth]
  | _ => rfl

/-- A push ends no loop. -/
theorem overslept_push {client : Nat} {job : Job} (other : Client)
    (sleeps : (world.push config client job).overslept config flagged other) :
    world.overslept config flagged other := by
  cases other with
  | pushAsleep its =>
    obtain ⟨bytes, depth⟩ := sleeps
    change world.bytes + job.bytes ≤ _ at bytes
    change world.depth + 1 ≤ _ at depth
    exact ⟨by omega, by omega⟩
  | waiting barrier =>
    cases barrier with
    | waitWhile called flag =>
      obtain ⟨heeded, done⟩ := sleeps
      refine ⟨heeded, ?_⟩
      change (world.flags flag && decide (world.depth + 1 ≠ 0)) = false at done
      have down : world.flags flag = false := by simpa using done
      simp [stays, down]
    | drain called mark => exact sleeps
    | drainTo mark => exact sleeps
  | _ => exact sleeps

/-- One caller moves to where it does not oversleep, and the counters are what they were. -/
theorem due_update (due : world.Attended config flagged) (after : World n) (client : Nat)
    (phase : Client) (awake : ¬ world.overslept config flagged phase)
    (clients : after.clients = update world.clients client phase)
    (workers : ∀ worker, world.workers worker ≠ .looking → world.workers worker ≠ .asleep →
      after.workers worker = world.workers worker)
    (counters : ∀ other, after.overslept config flagged other →
      world.overslept config flagged other) : after.Attended config flagged := by
  intro other sleeps
  refine Due.of_workers ?_ workers
  have before := counters _ sleeps
  rw [clients] at before
  by_cases same : other = client
  · grind
  · rw [update_of_ne same] at before
    exact due other before

theorem due_work (due : world.Attended config flagged) (worker chosen : Fin n) :
    (world.work config worker chosen).Attended config flagged := by
  unfold work
  split
  · rename_i looking
    have rests : (world.setWorker worker .asleep).Attended config flagged :=
      fun client sleeps => (due client sleeps).of_workers (setWorker_others (Or.inl looking))
    unfold look
    split
    · exact rests
    split
    · exact rests
    split
    · exact due
    · rename_i picked seq _ _ state job _
      exact fun _ _ => ⟨worker, Or.inr ⟨.running, seq, job, by simp [note]⟩⟩
  · exact due
  · rename_i seq job _
    exact fun _ _ => ⟨worker, Or.inr ⟨.returned, seq, job, by simp [note]⟩⟩
  · rename_i seq job _
    exact fun _ _ => ⟨worker, Or.inr ⟨.counted, seq, job, by simp⟩⟩
  · exact fun _ _ => ⟨worker, Or.inl (complete_settling world worker chosen _ _)⟩
  · exact fun client sleeps => absurd sleeps (not_overslept_rise _ (world.clients client))

theorem due_went (due : world.Attended config flagged) {client : Nat} {chosen : Fin n}
    (went : Went config world client chosen after) : after.Attended config flagged := by
  -- A caller that does not go to sleep goes where it likes.
  have moves : ∀ (after : World n) (phase : Client), ¬ world.overslept config flagged phase →
      after.clients = update world.clients client phase → after.workers = world.workers →
      after.bytes = world.bytes → after.depth = world.depth → after.applied = world.applied →
      after.flags = world.flags → after.Attended config flagged :=
    fun after phase awake clients workers bytes depth applied flags =>
      due_update due after client phase awake clients (fun _ _ _ => by rw [workers])
        (fun _ => (overslept_of_eq bytes depth applied flags _).mp)
  cases went with
  | rests => exact due
  | fills job phase full =>
    refine moves _ _ (fun room => ?_) rfl rfl rfl rfl rfl rfl
    obtain ⟨bytes, depth⟩ := room
    omega
  | pushes job =>
    exact due_update due (world.push config client job) client .notifying id rfl (fun _ _ _ => rfl)
      (fun other => overslept_push other)
  | notifies =>
    rw [notifyOne_eq]
    exact due_update due ({ world with
      workers := (world.notifyOne chosen).workers }.setClient client .idle) client .idle id rfl
      (fun _ _ awake => notifyOne_awake world chosen awake)
      (fun _ => (overslept_of_eq rfl rfl rfl rfl _).mp)
  | marks | counts | enters | holds | frees => exact moves _ _ id rfl rfl rfl rfl rfl rfl
  | leaves => exact moves _ .idle id rfl rfl rfl rfl rfl rfl
  | waits barrier phase stay =>
    refine moves _ _ (fun sleeps => ?_) rfl rfl rfl rfl rfl rfl
    cases barrier with
    | drain called mark | drainTo mark =>
      have before : world.applied < mark := by simpa [stays] using stay
      exact absurd sleeps (Nat.not_le_of_lt before)
    | waitWhile called flag =>
      rw [sleeps.2] at stay
      cases stay
  | releases =>
    exact due_update due (world.notifyAll.setClient client .idle) client .idle id rfl
      (fun _ _ awake => notifyAll_awake world awake)
      (fun _ => (overslept_of_eq rfl rfl rfl rfl _).mp)

/-- A flag that is raised ends no loop, and a flag is lowered in a job. -/
theorem due_set (due : world.Attended config flagged) (flag : Nat) (value : Bool)
    (lowers : world.LowersInJob flagged (.set flag value)) :
    (world.step config (.set flag value)).Attended config flagged := by
  have same : world.Due → (world.step config (.set flag value)).Due := fun there => there
  intro client sleeps
  change (world.step config (.set flag value)).overslept config flagged (world.clients client)
    at sleeps
  cases phase : world.clients client with
  | waiting barrier =>
    rw [phase] at sleeps
    cases barrier with
    | waitWhile called name =>
      obtain ⟨heeded, done⟩ := sleeps
      cases value with
      | false =>
        obtain ⟨worker, seq, job, running⟩ := lowers heeded flag rfl
        exact ⟨worker, Or.inr ⟨.running, seq, job, running⟩⟩
      | true =>
        refine same (due client ?_)
        rw [phase]
        refine ⟨heeded, ?_⟩
        change (update world.flags flag true name && decide (world.depth ≠ 0)) = false at done
        by_cases same : name = flag
        · subst same
          have empty : world.depth = 0 := by simpa using done
          simp [stays, empty]
        · rw [update_of_ne same] at done
          exact done
    | drain called mark | drainTo mark =>
      refine same (due client ?_)
      rw [phase]
      exact sleeps
  | pushAsleep job =>
    rw [phase] at sleeps
    refine same (due client ?_)
    rw [phase]
    exact sleeps
  | _ =>
    rw [phase] at sleeps
    exact sleeps.elim

theorem due_step (due : world.Attended config flagged) (act : Act n)
    (lowers : world.LowersInJob flagged act) : (world.step config act).Attended config flagged := by
  cases act with
  | work worker chosen => exact due_work due worker chosen
  | wake worker =>
    unfold step
    dsimp only
    split
    · rename_i asleep
      exact fun client sleeps => (due client sleeps).of_workers (setWorker_others (Or.inr asleep))
    · exact due
  | call someone call =>
    unfold step
    dsimp only
    split
    · refine due_update due (world.setClient someone (world.begin call)) someone _ ?_ rfl
        (fun _ _ _ => rfl) (fun _ => (overslept_of_eq rfl rfl rfl rfl _).mp)
      cases call <;> exact fun never => never
    · exact due
  | go someone chosen => exact due_went due (go_went config world someone chosen)
  | rouse someone =>
    exact due_update due (world.step config (.rouse someone)) someone _
      (not_overslept_rise world _) rfl (fun _ _ _ => rfl)
      (fun _ => (overslept_of_eq rfl rfl rfl rfl _).mp)
  | set flag value => exact due_set due flag value lowers

end Dues

section Marks

variable {world : World n}

theorem drainMark_rise (client : Client) : drainMark (rise client) = drainMark client := by
  cases client with
  | waiting barrier => cases barrier <;> rfl
  | _ => rfl

variable (marks : world.Marked)
include marks

/-- One caller moves on with the mark it had, or one that has been pushed. -/
theorem marks_update {client : Nat} {phase : Client}
    (known : ∀ mark, drainMark phase = some mark → mark ≤ world.pushed) (other mark : Nat)
    (marked : drainMark (update world.clients client phase other) = some mark) :
    mark ≤ world.pushed := by
  by_cases same : other = client
  · grind
  · rw [update_of_ne same] at marked
    exact marks other mark marked

theorem marks_went
    {client : Nat} {chosen : Fin n} {after : World n} (went : Went config world client chosen after)
    (other mark : Nat) : drainMark (after.clients other) = some mark → mark ≤ after.pushed := by
  have own := marks client
  have unmarked : ∀ {phase : Client}, drainMark phase = none →
      ∀ mark, drainMark phase = some mark → mark ≤ world.pushed := by
    intro phase none mark marked
    rw [none] at marked
    cases marked
  cases went with
  | rests => exact marks other mark
  | pushes =>
    have notifying : drainMark .notifying = none := rfl
    exact fun marked =>
      Nat.le_succ_of_le (marks_update marks (unmarked notifying) other mark marked)
  | notifies =>
    rw [notifyOne_eq]
    exact marks_update marks (unmarked rfl) other mark
  | marks called =>
    refine marks_update marks (fun mark marked => ?_) other mark
    obtain rfl := Option.some.inj marked
    exact Nat.le_refl _
  | enters barrier phase =>
    refine marks_update marks ?_ other mark
    rcases phase with phase | ⟨called, flag, rfl, phase⟩
    · rw [phase] at own
      cases barrier <;> exact own
    · exact unmarked rfl
  | waits barrier phase =>
    rw [phase] at own
    refine marks_update marks (fun mark marked => own mark ?_) other mark
    cases barrier <;> exact marked
  | fills | counts | leaves | holds | frees | releases =>
    exact marks_update marks (unmarked rfl) other mark

omit marks

theorem pushed_mono (world : World n) (act : Act n) :
    world.pushed ≤ (world.step config act).pushed := by
  cases step_moved config world act with
  | quiet same | took worker picked state seq job idle chosen taken same
  | returned worker seq job hand same | counted worker seq job hand same
  | applied worker seq job hand same => exact Nat.le_of_eq same.pushed.symm
  | pushed client job same =>
    rw [same.pushed]
    exact Nat.le_succ world.pushed

/-- A worker's step leaves the callers where they are, or wakes them. -/
theorem work_clients (config : Config) (world : World n) (worker chosen : Fin n) (client : Nat) :
    (world.work config worker chosen).clients client = world.clients client ∨
      (world.work config worker chosen).clients client = rise (world.clients client) := by
  unfold work
  split
  · left
    unfold look
    split
    · rfl
    · split
      · rfl
      · split <;> rfl
  · exact Or.inl rfl
  · exact Or.inl rfl
  · exact Or.inl rfl
  · left
    unfold complete
    dsimp only
    split
    · rfl
    · unfold notifyOne
      split
      · rfl
      · split <;> rfl
    · rfl
  · exact Or.inr rfl

theorem marks_step (marks : world.Marked) (act : Act n) : (world.step config act).Marked := by
  intro client mark
  cases act with
  | work worker chosen =>
    intro marked
    refine Nat.le_trans (marks client mark ?_) (pushed_mono world (.work worker chosen))
    rcases work_clients config world worker chosen client with same | risen
    · rw [← same]
      exact marked
    · rw [← drainMark_rise, ← risen]
      exact marked
  | wake worker =>
    unfold step
    dsimp only
    split
    · exact marks client mark
    · exact marks client mark
  | call someone call =>
    unfold step
    dsimp only
    split
    · refine marks_update marks (fun mark marked => ?_) client mark
      cases call <;> cases marked
    · exact marks client mark
  | go someone chosen => exact marks_went marks (go_went config world someone chosen) client mark
  | rouse someone =>
    refine marks_update marks (fun mark marked => ?_) client mark
    rw [drainMark_rise] at marked
    exact marks someone mark marked
  | set flag value => exact marks client mark

end Marks

namespace Alert

variable {flagged : Prop} {world : World n}

theorem start (config : Config) (flagged : Prop) (n : Nat) :
    Alert config flagged (World.start n) := by
  refine ⟨fun _ found => ?_, fun client overslept => ?_, fun client mark marked => ?_⟩
  · exact absurd (by simp [World.start, State.start, State.pick, Bounded.default]) found
  · exact overslept.elim
  · cases marked

theorem step (alert : Alert config flagged world) (act : Act n)
    (lowers : world.LowersInJob flagged act) : Alert config flagged (world.step config act) :=
  ⟨stirring_step alert.stirring act, due_step alert.due act lowers, marks_step alert.marks act⟩

end Alert

/-- With every worker asleep and no wake-up on its way, a queue that is not held has nothing
to do, and nobody oversleeps. -/
theorem not_stuck {flagged : Prop} {world : World n} (kept : Kept config world)
    (alert : Alert config flagged world) (free : world.state.held = false)
    (asleep : ∀ worker, world.workers worker = .asleep)
    (silent : ∀ client, wakes (world.clients client) = false) :
    world.state.incomplete = ∅ ∧
      ∀ client, ¬ world.overslept config flagged (world.clients client) := by
  constructor
  · by_contra outstanding
    have empty : world.taken = ∅ := by
      ext seq
      simp [mem_taken, asleep, Phase.hand]
    have sound := kept.sound
    rw [empty] at sound
    rcases alert.stirring free (sound.pick_isSome (Finset.nonempty_iff_ne_empty.mpr outstanding))
      with ⟨worker, awake⟩ | ⟨client, waking⟩
    · exact awake (asleep worker)
    · rw [silent client] at waking
      cases waking
  · intro client overslept
    obtain ⟨worker, settling | ⟨stage, seq, job, busy⟩⟩ := alert.due client overslept
    · rw [asleep worker] at settling
      cases settling
    · rw [asleep worker] at busy
      cases busy

end Lighter.Fs.Apply.World
