import Lighter.Fs.ApplyRuns
import Lighter.Lib.History

/-!
# The order jobs run in

The history of a run has each job's start and end at most once, as the tables say, and
before a job's start the end of every earlier job that shares a key with it.
-/

namespace Lighter.Fs.Apply

open History Finset

/-- Two jobs touch one inode. -/
def Shares (jobs : List Job) (first second : Nat) : Prop :=
  ∃ key, Names jobs key first ∧ Names jobs key second

/-- A job starts after the end of each earlier one it shares a key with. -/
def inTurn (jobs : List Job) : Event → List Event → Prop
  | .started seq, past => ∀ prev, Shares jobs prev seq → prev < seq → .finished prev ∈ past
  | _, _ => True

namespace World

variable {n : Nat} {config : Config}

/-- A number that was given to a job. -/
def Known (world : World n) (seq : Nat) : Prop := 0 < seq ∧ seq ≤ world.jobs.length

/-- A job that a worker has taken, or had. -/
def Begun (world : World n) (seq : Nat) : Prop :=
  world.Known seq ∧ (seq ∉ world.state.incomplete ∨ seq ∈ world.taken)

/-- A job that has run. -/
def Ran (world : World n) (seq : Nat) : Prop :=
  world.Known seq ∧ (seq ∉ world.state.incomplete ∨
    ∃ worker stage job, (world.workers worker).hand = some (stage, seq, job) ∧ stage ≠ .running)

/-- The history agrees with the tables. -/
structure Told (world : World n) : Prop where
  pushes : ∀ seq, .pushed seq ∈ world.log ↔ world.Known seq
  begun : ∀ seq, world.Begun seq → world.log.count (.started seq) = 1
  unbegun : ∀ seq, ¬ world.Begun seq → .started seq ∉ world.log
  ran : ∀ seq, world.Ran seq → world.log.count (.finished seq) = 1
  unran : ∀ seq, ¬ world.Ran seq → .finished seq ∉ world.log
  turn : Lawful (inTurn world.jobs) world.log

namespace Told

variable {world : World n}

theorem start (n : Nat) : Told (World.start n) := by
  have unknown : ∀ seq, ¬ (World.start n).Known seq := by
    rintro seq ⟨positive, known⟩
    simp only [World.start, List.length_nil] at known
    omega
  refine ⟨fun seq => ?_, fun seq begun => ?_, fun seq _ => ?_, fun seq ran => ?_, fun seq _ => ?_,
    lawful_nil _⟩
  · exact iff_of_false (by simp [World.start]) (unknown seq)
  · exact absurd begun.1 (unknown seq)
  · simp [World.start]
  · exact absurd ran.1 (unknown seq)
  · simp [World.start]

/-- Events about no job. -/
theorem quiet (told : Told world) {after : World n} (same : Quiet world after) : Told after := by
  obtain ⟨more, log, aside⟩ := same.log
  have incomplete : after.state.incomplete = world.state.incomplete := by rw [same.state]
  have known : ∀ seq, after.Known seq ↔ world.Known seq := by
    intro seq
    rw [Known, Known, same.jobs]
  have begun : ∀ seq, after.Begun seq ↔ world.Begun seq := by
    intro seq
    rw [Begun, Begun, known, incomplete, same.taken]
  have ran : ∀ seq, after.Ran seq ↔ world.Ran seq := by
    intro seq
    simp only [Ran, known, incomplete, same.hands]
  have member : ∀ event : Event, event.aside = false → (event ∈ after.log ↔ event ∈ world.log) := by
    grind
  have count : ∀ event : Event, event.aside = false →
      after.log.count event = world.log.count event := by grind
  constructor
  · intro seq
    rw [member _ rfl, known]
    exact told.pushes seq
  · intro seq there
    rw [count _ rfl]
    exact told.begun seq ((begun seq).mp there)
  · intro seq absent
    rw [member _ rfl]
    exact told.unbegun seq fun there => absent ((begun seq).mpr there)
  · intro seq there
    rw [count _ rfl]
    exact told.ran seq ((ran seq).mp there)
  · intro seq absent
    rw [member _ rfl]
    exact told.unran seq fun there => absent ((ran seq).mpr there)
  · rw [log, same.jobs]
    refine told.turn.append fun event there past => ?_
    have quiet := aside event there
    cases event <;> trivial

/-- One event about a job: it makes the job known, begun or run, and no other, and the job
was not so before. -/
theorem event (told : Told world) {after : World n} (event : Event)
    (log : after.log = world.log ++ [event])
    (known : ∀ seq, after.Known seq ↔ world.Known seq ∨ event = .pushed seq)
    (begun : ∀ seq, after.Begun seq ↔ world.Begun seq ∨ event = .started seq)
    (newlyBegun : ∀ seq, event = .started seq → ¬ world.Begun seq)
    (ran : ∀ seq, after.Ran seq ↔ world.Ran seq ∨ event = .finished seq)
    (newlyRan : ∀ seq, event = .finished seq → ¬ world.Ran seq)
    (turn : Lawful (inTurn after.jobs) after.log) : Told after := by
  have member : ∀ other : Event, other ∈ after.log ↔ other ∈ world.log ∨ event = other := by grind
  have count : ∀ other : Event,
      after.log.count other = world.log.count other + if event = other then 1 else 0 := by grind
  constructor
  · intro seq
    rw [member, known, told.pushes]
  · have unbegun := told.unbegun
    have begun := told.begun
    grind
  · have unbegun := told.unbegun
    grind
  · have unran := told.unran
    have ran := told.ran
    grind
  · have unran := told.unran
    grind
  · exact turn

/-- A job that shares a key with an old one is the same job as before another is pushed. -/
theorem shares_append {jobs : List Job} {job : Job} {prev seq : Nat} (old : seq ≤ jobs.length)
    (prior : prev < seq) (shares : Shares (jobs ++ [job]) prev seq) : Shares jobs prev seq := by
  obtain ⟨key, namesPrev, names⟩ := shares
  exact ⟨key, (names_append.mp namesPrev).resolve_right (by omega),
    (names_append.mp names).resolve_right (by omega)⟩

section

variable (kept : Kept config world)
include kept

theorem push (told : Told world) (client : Nat) (job : Job) :
    Told (world.push config client job) := by
  have incomplete : (world.push config client job).state.incomplete =
      insert (world.pushed + 1) world.state.incomplete :=
    Links.enqueue_incomplete config world.state (world.pushed + 1) job
  have jobs : (world.push config client job).jobs = world.jobs ++ [job] := rfl
  have known : ∀ seq, (world.push config client job).Known seq ↔
      world.Known seq ∨ seq = world.pushed + 1 := by
    intro seq
    rw [Known, Known, jobs, List.length_append, List.length_singleton, kept.pushed]
    omega
  have fresh : ¬ world.Known (world.pushed + 1) := by
    rw [Known, kept.pushed]
    omega
  have untaken : world.pushed + 1 ∉ world.taken := by
    intro there
    exact fresh (kept.sound.links.known (kept.sound.links.takenPresent _ there))
  refine told.event (.pushed (world.pushed + 1)) rfl (fun seq => ?_) (fun seq => ?_)
    (fun seq never => by cases never) (fun seq => ?_)
    (fun seq never => by cases never) ?_
  · rw [known, Event.pushed.injEq, eq_comm]
  · rw [or_iff_left (by simp), Begun, Begun, known, incomplete, mem_insert]
    change _ ∧ (_ ∨ seq ∈ world.taken) ↔ _
    by_cases new : seq = world.pushed + 1
    · subst new
      simp [untaken, fresh]
    · simp [new]
  · rw [or_iff_left (by simp), Ran, Ran, known, incomplete, mem_insert]
    change _ ∧ (_ ∨ ∃ worker stage job,
      (world.workers worker).hand = some (stage, seq, job) ∧ _) ↔ _
    by_cases new : seq = world.pushed + 1
    · subst new
      refine iff_of_false ?_ fun there => fresh there.1
      rintro ⟨_, absent | ⟨worker, stage, its, hand, _⟩⟩
      · exact absent (Or.inl rfl)
      · exact untaken (mem_taken.mpr ⟨worker, stage, its, hand⟩)
    · simp [new]
  · change Lawful (inTurn (world.jobs ++ [job])) (world.log ++ [.pushed (world.pushed + 1)])
    rw [lawful_concat]
    refine ⟨told.turn.imp fun event there past => ?_, trivial⟩
    cases event with
    | started seq =>
      intro law prev shares prior
      have begun : world.Begun seq := by
        by_contra absent
        exact told.unbegun seq absent there
      exact law prev (shares_append begun.1.2 prior shares) prior
    | _ => exact fun _ => trivial

theorem took (told : Told world) {worker : Fin n} {picked state : State} {seq : Nat} {job : Job}
    (idle : (world.workers worker).hand = none)
    (chosen : world.state.pick config = some (picked, seq))
    (taken : picked.take config seq = some (state, job)) :
    Told (world.started worker state seq job) := by
  obtain ⟨after, its, result, named, there, fresh, ordered, incomplete, _, sound⟩ :=
    kept.sound.take chosen
  rw [taken] at result
  obtain ⟨rfl, rfl⟩ := Prod.mk.inj (Option.some.inj result)
  have hands : Hands world (world.started worker state seq job) worker
      (some (.running, seq, job)) :=
    fun other => hand_setWorker _ worker other _
  refine told.event (.started seq) rfl (fun other => ?_) (fun other => ?_) ?_ (fun other => ?_)
    (fun other never => by cases never) ?_
  · rw [or_iff_left (by simp)]
    rfl
  · rw [Begun, Begun, taken_insert idle hands, Event.started.injEq]
    change world.Known other ∧ (other ∉ state.incomplete ∨ _) ↔ _
    rw [incomplete, mem_insert]
    by_cases same : other = seq
    · subst same
      exact iff_of_true ⟨nth_le named, Or.inr (Or.inl rfl)⟩ (Or.inr rfl)
    · simp [same, Ne.symm same]
  · rintro other ⟨⟩ ⟨_, gone | held⟩
    · exact gone there
    · exact fresh held
  · rw [or_iff_left (by simp), Ran, Ran]
    change world.Known other ∧ (other ∉ state.incomplete ∨ _) ↔ _
    rw [incomplete]
    refine and_congr_right fun _ => or_congr_right ?_
    constructor
    · grind
    · grind
  · change Lawful (inTurn world.jobs) (world.log ++ [.started seq])
    rw [lawful_concat]
    refine ⟨told.turn, fun prev shares prior => ?_⟩
    obtain ⟨key, namesPrev, names⟩ := shares
    obtain ⟨before, namedPrev, _⟩ := namesPrev
    have ran : world.Ran prev :=
      ⟨nth_le namedPrev, Or.inl (ordered key prev ⟨before, namedPrev, ‹_›⟩ names prior)⟩
    have once := told.ran prev ran
    exact List.count_pos_iff.mp (by omega)

/-- A worker goes on with its job: nothing begins, and the job has run if it has now. -/
theorem ran_iff {after : World n} {worker : Fin n} {stage stage' : Stage} {seq : Nat} {job : Job}
    (before : (world.workers worker).hand = some (stage, seq, job))
    (hands : Hands world after worker (some (stage', seq, job)))
    (state : after.state = world.state) (jobs : after.jobs = world.jobs)
    (past : stage' ≠ .running) (other : Nat) : after.Ran other ↔ world.Ran other ∨ seq = other := by
  have known := kept.sound.links.known
    (kept.sound.links.takenPresent seq (mem_taken.mpr ⟨worker, _, _, before⟩))
  rw [Ran, Ran, Known, Known, state, jobs]
  constructor
  · grind
  · grind

variable (told : Told world)
include told

variable {worker : Fin n}

theorem returned {seq : Nat} {job : Job} (hand : world.workers worker = .busy .running seq job) :
    Told ((world.setWorker worker (.busy .returned seq job)).note (.finished seq)) := by
  obtain ⟨before, _, there⟩ := kept.busy hand
  have hands : Hands world ((world.setWorker worker (.busy .returned seq job)).note (.finished seq))
      worker (some (.returned, seq, job)) := fun other => hand_setWorker _ worker other _
  refine told.event (.finished seq) rfl (fun other => ?_) (fun other => ?_)
    (fun other never => by cases never) (fun other => ?_) ?_ ?_
  · rw [or_iff_left (by simp)]
    rfl
  · rw [or_iff_left (by simp), Begun, Begun, taken_same before hands]
    rfl
  · rw [ran_iff kept before hands rfl rfl (by simp), Event.finished.injEq]
  · rintro other ⟨⟩ ⟨_, gone | ⟨someone, stage, its, elsewhere, done⟩⟩
    · exact gone there
    · have alone := kept.alone
      grind
  · exact lawful_concat.mpr ⟨told.turn, trivial⟩

/-- A job's number leaves the tables only after it has run. -/
theorem applied {seq : Nat} {job : Job} (hand : world.workers worker = .busy .counted seq job) :
    Told (world.putAway config worker seq job) := by
  obtain ⟨before, held, there⟩ := kept.busy hand
  have known := kept.sound.links.known there
  obtain ⟨incomplete, _, sound⟩ := kept.sound.complete held (kept.named worker _ seq job before)
  have hands : Hands world (world.putAway config worker seq job) worker none :=
    fun other => hand_setWorker _ worker other _
  unfold putAway at *
  generalize world.state.complete config seq job = result at *
  have left := taken_erase before
    (fun other stage its after => kept.alone other worker _ _ seq its job after before) hands
  refine told.event (.applied seq) rfl (fun other => ?_) (fun other => ?_)
    (fun other never => by cases never) (fun other => ?_)
    (fun other never => by cases never) ?_
  · rw [or_iff_left (by simp)]
    rfl
  · rw [or_iff_left (by simp), Begun, Begun, left]
    change world.Known other ∧ (other ∉ result.1.incomplete ∨ _) ↔ _
    rw [incomplete, mem_erase, mem_erase]
    by_cases same : other = seq
    · subst same
      simp [held]
    · simp [same]
  · rw [or_iff_left (by simp), Ran, Ran]
    change world.Known other ∧ (other ∉ result.1.incomplete ∨ _) ↔ _
    rw [incomplete, mem_erase]
    by_cases same : other = seq
    · grind
    refine and_congr_right fun _ => or_congr (by simp [same]) ?_
    constructor
    · grind
    · grind
  · exact lawful_concat.mpr ⟨told.turn, trivial⟩

/-- Bytes given back are no event, and the job that they were of has run. -/
theorem counted {seq : Nat} {job : Job} (hand : world.workers worker = .busy .returned seq job) :
    Told ({ world with bytes := world.bytes - job.bytes }.setWorker worker
      (.busy .counted seq job)) := by
  obtain ⟨before, _, there⟩ := kept.busy hand
  have hands : Hands world ({ world with bytes := world.bytes - job.bytes }.setWorker worker
      (.busy .counted seq job)) worker (some (.counted, seq, job)) :=
    fun other => hand_setWorker _ worker other _
  have already : world.Ran seq :=
    ⟨kept.sound.links.known there, Or.inr ⟨worker, _, _, before, by simp⟩⟩
  have begun : ∀ other, ({ world with bytes := world.bytes - job.bytes }.setWorker worker
      (.busy .counted seq job)).Begun other ↔ world.Begun other := by
    intro other
    rw [Begun, Begun, taken_same before hands]
    rfl
  have ran : ∀ other, ({ world with bytes := world.bytes - job.bytes }.setWorker worker
      (.busy .counted seq job)).Ran other ↔ world.Ran other := by
    intro other
    rw [ran_iff kept before hands rfl rfl (by simp), or_iff_left_iff_imp]
    rintro rfl
    exact already
  exact ⟨told.pushes, fun other there => told.begun other ((begun other).mp there),
    fun other absent => told.unbegun other fun there => absent ((begun other).mpr there),
    fun other there => told.ran other ((ran other).mp there),
    fun other absent => told.unran other fun there => absent ((ran other).mpr there), told.turn⟩

theorem step (act : Act n) : Told (world.step config act) := by
  cases step_moved config world act with
  | quiet same => exact told.quiet same
  | pushed client job same => exact (push kept told client job).quiet same
  | took worker picked state seq job idle chosen taken same =>
    exact (took kept told idle chosen taken).quiet same
  | returned worker seq job hand same => exact (returned kept told hand).quiet same
  | counted worker seq job hand same => exact (counted kept told hand).quiet same
  | applied worker seq job hand same => exact (applied kept told hand).quiet same

end

end Told
end World
end Lighter.Fs.Apply
