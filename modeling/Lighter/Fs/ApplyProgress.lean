import Lighter.Fs.ApplyWakes
import Lighter.Lib.Fair

/-!
# Every job is applied

In a run without end that treats every thread fairly, where jobs return, from some moment on
the queue is not held, and only so many jobs are pushed, every job is applied, and every push
and every `drain` returns. Only so many things can happen to so many jobs, so at some moment
the last of them has; whatever was left then would be done by the next thread to be stepped.

The number of pushes has to be bounded. The serial lane goes before the others, so a stream
of jobs in it that never ends keeps a single worker from a clone for ever.
-/

namespace Lighter.Fs.Apply

open Endless Function Finset World
attribute [local simp] setWorker note setClient

/-- A caller that can be stepped. -/
def Client.able : Client → Bool
  | .idle => false
  | .pushAsleep _ => false
  | .waiting _ => false
  | _ => true

namespace World

variable {n : Nat} {config : Config} {world : World n} {client : Nat}

/-- The states of a run without end. -/
def states (config : Config) (acts : Nat → Act n) : Nat → World n :=
  path (World.step config) (World.start n) acts

/-- Every thread that can be stepped is. A job that runs is a worker's to be stepped, so jobs
return. -/
structure IsFair (config : Config) (acts : Nat → Act n) : Prop where
  workers : ∀ worker, Fair (states config acts) acts
    (fun world => world.workers worker ≠ .asleep) fun act => ∃ chosen, act = .work worker chosen
  clients : ∀ client, Fair (states config acts) acts
    (fun world => (world.clients client).able = true) fun act => ∃ chosen, act = .go client chosen

/-- The choices of a run without end; as a function, its states. -/
structure Play (n : Nat) where
  config : Config
  acts : Nat → Act n

instance : CoeFun (Play n) fun _ => Nat → World n := ⟨fun play => states play.config play.acts⟩

theorem exists_play (config : Config) (acts : Nat → Act n) :
    ∃ play : Play n, play.config = config ∧ play.acts = acts := ⟨⟨config, acts⟩, rfl, rfl⟩

theorem setWorker_stays {worker other : Fin n} {phase : Phase} (differs : other ≠ worker) :
    (world.setWorker worker phase).workers other = world.workers other :=
  update_of_ne differs _ _

variable (config)

/-- Whoever is up is where they were until they are stepped. -/
theorem workers_stay (world : World n) {act : Act n} {worker : Fin n}
    (awake : world.workers worker ≠ .asleep) (other : ∀ chosen, act ≠ .work worker chosen) :
    (world.step config act).workers worker = world.workers worker := by
  cases act with
  | work stepped chosen =>
    have differs : worker ≠ stepped := by grind
    unfold step work look complete notifyOne
    dsimp only
    repeat' split
    all_goals simp_all [settle, notifyAll, update_apply]
    all_goals grind
  | go client chosen =>
    unfold step go check notifyOne
    dsimp only
    repeat' split
    all_goals simp_all [push, leave, notifyAll, update_apply]
    all_goals grind
  | wake woken =>
    unfold step
    grind [setWorker_stays]
  | call client call => simp [step, apply_ite workers]
  | rouse client => rfl
  | set flag value => rfl

theorem rise_able {client : Client} (able : client.able = true) : rise client = client := by
  cases client with
  | pushAsleep job => cases able
  | waiting barrier => cases able
  | _ => rfl

theorem setClient_stays {other : Nat} {phase : Client} (differs : other ≠ client) :
    (world.setClient client phase).clients other = world.clients other :=
  update_of_ne differs _ _

/-- A caller's step moves no other caller. -/
theorem go_others (world : World n) {stepped : Nat} (chosen : Fin n) (differs : client ≠ stepped) :
    (world.go config stepped chosen).clients client = world.clients client := by
  have went := go_went config world stepped chosen
  generalize world.go config stepped chosen = after at went
  cases went with
  | rests => rfl
  | notifies =>
    rw [notifyOne_eq]
    exact setClient_stays differs
  | pushes | leaves => exact setClient_stays differs
  | fills | marks | counts | enters | waits | holds | frees | releases =>
    exact setClient_stays differs

/-- A caller that is not asleep is where it was until it is stepped. -/
theorem clients_stay (world : World n) {act : Act n}
    (able : (world.clients client).able = true) (other : ∀ chosen, act ≠ .go client chosen) :
    (world.step config act).clients client = world.clients client := by
  have risen := rise_able able
  cases act with
  | work worker chosen =>
    have := work_clients config world worker chosen client
    grind [step]
  | go stepped chosen => grind [go_others, step]
  | wake worker => simp [step, apply_ite clients]
  | call someone call =>
    unfold step
    grind [setClient_stays, Client.able]
  | rouse someone => simp only [step, setClient, update_apply]; grind
  | set flag value => rfl

/-- What has happened to jobs. -/
def jobEvents (world : World n) : Finset Event :=
  (world.log.filter fun event => !event.aside).toFinset

theorem mem_jobEvents {event : Event} :
    event ∈ world.jobEvents ↔ event ∈ world.log ∧ event.aside = false := by
  simp [jobEvents]

theorem Quiet.log_prefix {before after : World n} (same : Quiet before after) :
    before.log <+: after.log := by
  obtain ⟨more, log, _⟩ := same.log
  exact ⟨more, log.symm⟩

theorem log_grows (world : World n) (act : Act n) : world.log <+: (world.step config act).log := by
  cases step_moved config world act with
  | quiet same | counted worker seq job hand same => exact same.log_prefix
  | pushed client job same | took worker picked state seq job idle chosen taken same
  | returned worker seq job hand same | applied worker seq job hand same =>
    exact (List.prefix_append _ _).trans same.log_prefix

theorem jobEvents_subset (world : World n) (act : Act n) :
    world.jobEvents ⊆ (world.step config act).jobEvents := by
  intro event there
  rw [mem_jobEvents] at there ⊢
  exact ⟨(log_grows config world act).subset there.1, there.2⟩

/-- Something new has happened to a job. -/
theorem jobEvents_card_lt (world : World n) (act : Act n) {event : Event}
    (about : event.aside = false) (new : event ∉ world.log)
    (there : event ∈ (world.step config act).log) :
    world.jobEvents.card < (world.step config act).jobEvents.card := by
  refine card_lt_card ⟨jobEvents_subset config world act, fun back => ?_⟩
  exact new (mem_jobEvents.mp (back (mem_jobEvents.mpr ⟨there, about⟩))).1

variable {config}

/-- To so many jobs only so many things happen. -/
theorem jobEvents_card_le (reached : Reached config world) :
    world.jobEvents.card ≤ 4 * world.pushed := by
  let known := Finset.Icc 1 world.pushed
  have numbers : ∀ {seq}, world.Known seq → seq ∈ known := by
    intro seq pushed
    rw [mem_Icc, reached.kept.pushed]
    exact pushed
  have inside : world.jobEvents ⊆ (known.image Event.pushed ∪ known.image Event.started) ∪
      (known.image Event.finished ∪ known.image Event.applied) := by
    intro event there
    obtain ⟨logged, about⟩ := mem_jobEvents.mp there
    simp only [mem_union, mem_image]
    cases event with
    | pushed seq => exact Or.inl (Or.inl ⟨seq, numbers ((reached.told.pushes seq).mp logged), rfl⟩)
    | started seq =>
      have begun : world.Begun seq := by
        by_contra absent
        exact reached.told.unbegun seq absent logged
      exact Or.inl (Or.inr ⟨seq, numbers begun.1, rfl⟩)
    | finished seq =>
      have ran : world.Ran seq := by
        by_contra absent
        exact reached.told.unran seq absent logged
      exact Or.inr (Or.inl ⟨seq, numbers ran.1, rfl⟩)
    | applied seq =>
      exact Or.inr (Or.inr ⟨seq, numbers ((reached.counted.applied seq).mp logged).1, rfl⟩)
    | flag name value => cases about
    | ended barrier => cases about
  have size : ∀ kind : Nat → Event, (known.image kind).card ≤ world.pushed :=
    fun kind => card_image_le.trans (by simp [known])
  refine (card_le_card inside).trans ?_
  have first := card_union_le (known.image Event.pushed) (known.image Event.started)
  have second := card_union_le (known.image Event.finished) (known.image Event.applied)
  have both := card_union_le (known.image Event.pushed ∪ known.image Event.started)
    (known.image Event.finished ∪ known.image Event.applied)
  have pushes := size Event.pushed
  have starts := size Event.started
  have ends := size Event.finished
  have puts := size Event.applied
  omega

theorem complete_log (config : Config) (world : World n) (worker chosen : Fin n) (seq : Nat)
    (job : Job) :
    (world.complete config worker chosen seq job).log = world.log ++ [.applied seq] := by
  unfold complete
  dsimp only
  split
  · rfl
  · unfold notifyOne
    split
    · rfl
    · split <;> rfl
  · rfl

section Fresh

variable {world : World n} {worker : Fin n} {seq : Nat} {job : Job}

section

variable (reached : Reached config world)
include reached

theorem pushed_fresh : .pushed (world.pushed + 1) ∉ world.log := by
  intro there
  have known := ((reached.told.pushes _).mp there).2
  rw [reached.kept.pushed] at known
  omega

theorem started_fresh {picked : State}
    (chosen : world.state.pick config = some (picked, seq)) : .started seq ∉ world.log := by
  obtain ⟨_, _, _, _, there, fresh, _⟩ := reached.kept.sound.take chosen
  refine reached.told.unbegun seq ?_
  rintro ⟨_, gone | held⟩
  · exact gone there
  · exact fresh held

theorem finished_fresh
    (hand : world.workers worker = .busy .running seq job) : .finished seq ∉ world.log := by
  obtain ⟨before, _, there⟩ := reached.kept.busy hand
  refine reached.told.unran seq ?_
  rintro ⟨_, gone | ⟨other, stage, its, elsewhere, past⟩⟩
  · exact gone there
  obtain rfl := reached.kept.alone other worker _ _ seq its job elsewhere before
  rw [before] at elsewhere
  cases elsewhere
  exact past rfl

theorem applied_fresh {stage : Stage}
    (hand : world.workers worker = .busy stage seq job) : .applied seq ∉ world.log := by
  intro there
  exact ((reached.counted.applied seq).mp there).2 (reached.kept.busy hand).2.2

end

end Fresh

section Calm

variable {play : Play n} {since moment mark : Nat}

theorem reached_states (play : Play n) (moment : Nat) :
    Reached play.config (play moment) := by
  rw [states, path_eq_run]
  exact reached_run play.config _

theorem alert_states (play : Play n) (moment : Nat) :
    Alert play.config False (play moment) :=
  path_invariant (fun _ _ => True) (Alert play.config False)
    (fun _ act alert _ => alert.step act fun never => never.elim)
    (Alert.start play.config False n) (fun _ => trivial) moment

theorem pushed_le (play : Play n) {moment later : Nat}
    (after : moment ≤ later) :
    (play moment).pushed ≤ (play later).pushed :=
  monotone_nat_of_le_succ (fun moment => pushed_mono (play moment) (play.acts moment)) after

/-- Nothing more happens to any job, and the queue is not held. -/
structure Calm (config : Config) (acts : Nat → Act n) (since : Nat) : Prop where
  still : ∀ moment, since ≤ moment →
    (states config acts moment).jobEvents.card = (states config acts since).jobEvents.card
  free : ∀ moment, since ≤ moment → (states config acts moment).state.held = false

/-- There is such a moment. -/
theorem exists_calm {bound : Nat} (bounded : ∀ moment, (play moment).pushed ≤ bound)
    {released : Nat}
    (free : ∀ moment, released ≤ moment → (play moment).state.held = false) :
    ∃ since, Calm play.config play.acts since := by
  obtain ⟨last, constant⟩ := eventually_constant
    (fun moment => card_le_card (jobEvents_subset play.config (play moment) (play.acts moment)))
    fun moment => (jobEvents_card_le (reached_states play moment)).trans
      (Nat.mul_le_mul_left 4 (bounded moment))
  refine ⟨max last released, fun moment after => ?_, fun moment after => free moment ?_⟩
  · grind
  · omega

/-- A caller asleep in `settled` stays there until it is woken. -/
theorem asleep_stays (config : Config) (world : World n) (act : Act n)
    (asleep : (world.clients client).able = false) (called : world.clients client ≠ .idle) :
    (world.step config act).clients client = world.clients client ∨
      (world.step config act).clients client = rise (world.clients client) := by
  cases act with
  | work worker chosen => exact work_clients config world worker chosen client
  | go stepped chosen =>
    by_cases same : client = stepped
    · subst same
      unfold step go
      cases phase : world.clients client <;> simp_all [Client.able]
    · exact Or.inl (go_others config world chosen same)
  | wake worker => simp [step, apply_ite clients]
  | call someone call =>
    unfold step
    grind [setClient_stays]
  | rouse someone => simp only [step, setClient, update_apply]; grind
  | set flag value => exact Or.inl rfl

/-- What a caller in `push` can come to. -/
theorem push_moves (config : Config) (world : World n) (act : Act n) {job : Job}
    (inside : world.clients client = .pushing job ∨ world.clients client = .pushAsleep job ∨
      world.clients client = .notifying) :
    (world.step config act).clients client = .pushing job ∨
      (world.step config act).clients client = .pushAsleep job ∨
      (world.step config act).clients client = .notifying ∨
      (world.step config act).clients client = .idle := by
  by_cases own : ∃ chosen, act = .go client chosen
  · obtain ⟨chosen, rfl⟩ := own
    unfold step go
    rcases inside with phase | phase | phase <;> simp only [phase]
    · split <;> simp [push]
    · simp
    · simp
  · by_cases able : (world.clients client).able = true
    · grind [clients_stay]
    · have moved := asleep_stays config world act (Bool.not_eq_true _ |>.mp able) (by grind)
      rcases inside with phase | phase | phase <;> grind [rise, Client.able]

/-- What a `drain` or `drain_to` waits for. -/
def markOf : Barrier → Option Nat
  | .drain _ mark => some mark
  | .drainTo mark => some mark
  | .waitWhile _ _ => none

/-- The mark that a caller at a barrier waits for. -/
def waitsTo : Client → Option Nat
  | .checking barrier => markOf barrier
  | .entering barrier => markOf barrier
  | .waiting barrier => markOf barrier
  | _ => none

theorem waitsTo_of_drainMark {client : Client} (marked : drainMark client = some mark) :
    waitsTo client = some mark := by
  cases client with
  | checking barrier | entering barrier | waiting barrier =>
    cases barrier <;> first | exact marked | cases marked
  | _ => cases marked

/-- The loop of a barrier with a mark goes round while the mark is not reached. -/
theorem stays_iff {world : World n} {barrier : Barrier} (marked : markOf barrier = some mark) :
    world.stays barrier = true ↔ world.applied < mark := by
  cases barrier with
  | drain called its | drainTo its =>
    obtain rfl := Option.some.inj marked
    simp [stays]
  | waitWhile called flag => cases marked

/-- A caller at a barrier keeps its mark until it returns. -/
theorem waitsTo_moves (config : Config) (world : World n) (act : Act n)
    (inside : waitsTo (world.clients client) = some mark) :
    waitsTo ((world.step config act).clients client) = some mark ∨
      (world.step config act).clients client = .idle := by
  by_cases own : ∃ chosen, act = .go client chosen
  · obtain ⟨chosen, rfl⟩ := own
    unfold step go check
    repeat' split
    all_goals simp_all [leave, waitsTo, markOf]
  left
  by_cases able : (world.clients client).able = true
  · grind [clients_stay]
  · have called : world.clients client ≠ .idle := by grind [waitsTo]
    have moved := asleep_stays config world act (Bool.not_eq_true _ |>.mp able) called
    cases phase : world.clients client <;> grind [waitsTo, rise]

namespace Calm

variable (fair : IsFair play.config play.acts) (calm : Calm play.config play.acts since)
  (after : since ≤ moment) {worker : Fin n}

section

include calm after

theorem nothing_new {event : Event}
    (about : event.aside = false) (there : event ∈ (play (moment + 1)).log) :
    event ∈ (play moment).log := by
  by_contra new
  have grown := jobEvents_card_lt play.config (play moment) (play.acts moment) about new there
  have now := calm.still moment after
  have next := calm.still (moment + 1) (by omega)
  change (play moment).jobEvents.card < (play (moment + 1)).jobEvents.card at grown
  omega

/-- What is outstanding stays so: nothing is pushed and nothing is put away. -/
theorem incomplete_same :
    (play (moment + 1)).state.incomplete =
      (play moment).state.incomplete := by
  have reached := reached_states play moment
  change ((play moment).step play.config (play.acts moment)).state.incomplete = _
  cases step_moved play.config (play moment) (play.acts moment) with
  | quiet same => rw [same.state]
  | pushed client job same =>
    have logged : .pushed ((play moment).pushed + 1) ∈
        (play (moment + 1)).log :=
      same.log_prefix.subset (by simp [push])
    exact absurd (calm.nothing_new after rfl logged) (pushed_fresh reached)
  | took worker picked state seq job idle chosen taken same =>
    have logged : .started seq ∈ (play (moment + 1)).log := same.log_prefix.subset (by simp)
    exact absurd (calm.nothing_new after rfl logged) (started_fresh reached chosen)
  | returned worker seq job hand same => rw [same.state]; rfl
  | counted worker seq job hand same => rw [same.state]; rfl
  | applied worker seq job hand same =>
    have logged : .applied seq ∈ (play (moment + 1)).log := same.log_prefix.subset (by simp)
    exact absurd (calm.nothing_new after rfl logged) (applied_fresh reached hand)

theorem incomplete_eq :
    (play moment).state.incomplete = (play since).state.incomplete := by
  obtain ⟨wait, rfl⟩ := Nat.exists_eq_add_of_le after
  clear after
  induction wait with
  | zero => rfl
  | succ wait ih =>
    exact (calm.incomplete_same (Nat.le_add_right _ _)).trans ih

end

include fair

/-- A worker in a place where it is not asleep is stepped there. -/
theorem worker_stepped {phase : Phase} (awake : phase ≠ .asleep)
    (here : (play moment).workers worker = phase) :
    ∃ later chosen, moment ≤ later ∧ (play later).workers worker = phase ∧
      play (later + 1) = (play later).work play.config worker chosen := by
  obtain ⟨later, after, there, chosen, act⟩ := (fair.workers worker).stepped
    (fun world => world.workers worker = phase)
    (fun moment there other => (workers_stay play.config (play moment) (by rw [there]; exact awake)
      fun chosen same => other ⟨chosen, same⟩).trans there)
    (fun world there => by rw [there]; exact awake) here
  refine ⟨later, chosen, after, there, ?_⟩
  change (play later).step play.config (play.acts later) = _
  rw [act]
  rfl

theorem client_stepped {phase : Client}
    (able : phase.able = true) (here : (play moment).clients client = phase) :
    ∃ later chosen, moment ≤ later ∧ (play later).clients client = phase ∧
      play (later + 1) = (play later).go play.config client chosen := by
  obtain ⟨later, after, there, chosen, act⟩ := (fair.clients client).stepped
    (fun world => world.clients client = phase)
    (fun moment there other => (clients_stay play.config (play moment) (by rw [there]; exact able)
      fun chosen same => other ⟨chosen, same⟩).trans there)
    (fun world there => by rw [there]; exact able) here
  refine ⟨later, chosen, after, there, ?_⟩
  change (play later).step play.config (play.acts later) = _
  rw [act]
  rfl

/-- A worker about to wake the callers does, and looks again. -/
theorem settles (settling : (play moment).workers worker = .settling) :
    ∃ later, moment ≤ later ∧ (play (later + 1)).workers worker = .looking ∧
      ∀ client, (play (later + 1)).clients client =
        rise ((play later).clients client) := by
  obtain ⟨later, chosen, wait, there, next⟩ := worker_stepped fair (by simp) settling
  refine ⟨later, wait, ?_, fun client => ?_⟩
  · rw [next]
    unfold work
    rw [there]
    simp
  · rw [next]
    unfold work
    rw [there]
    rfl

include calm after

/-- No worker has a job in hand: it would go on with it. -/
theorem not_busy (worker : Fin n) (stage : Stage) (seq : Nat) (job : Job) :
    (play moment).workers worker ≠ .busy stage seq job := by
  have notCounted : ∀ moment, since ≤ moment →
      (play moment).workers worker ≠ .busy .counted seq job := by
    intro moment after here
    obtain ⟨later, chosen, wait, there, next⟩ := worker_stepped fair (by simp) here
    have logged : .applied seq ∈ (play (later + 1)).log := by
      simp [next, work, there, complete_log]
    exact applied_fresh (reached_states play later) there
      (calm.nothing_new (after.trans wait) rfl logged)
  have notReturned : ∀ moment, since ≤ moment →
      (play moment).workers worker ≠ .busy .returned seq job := by
    intro moment after here
    obtain ⟨later, chosen, wait, there, next⟩ := worker_stepped fair (by simp) here
    refine notCounted (later + 1) (by omega) ?_
    simp [next, work, there]
  intro here
  cases stage with
  | running =>
    obtain ⟨later, chosen, wait, there, next⟩ := worker_stepped fair (by simp) here
    have logged : .finished seq ∈ (play (later + 1)).log := by
      simp [next, work, there]
    exact finished_fresh (reached_states play later) there
      (calm.nothing_new (after.trans wait) rfl logged)
  | returned => exact notReturned moment after here
  | counted => exact notCounted moment after here

/-- A worker that looks finds nothing. -/
theorem finds_nothing (looking : (play moment).workers worker = .looking) :
    ∃ later, moment ≤ later ∧ (play later).state.pick play.config = none := by
  obtain ⟨later, chosen, wait, there, next⟩ := worker_stepped fair (by simp) looking
  refine ⟨later, wait, ?_⟩
  by_contra found
  obtain ⟨⟨picked, seq⟩, chose⟩ := Option.ne_none_iff_exists'.mp found
  have reached := reached_states play later
  obtain ⟨state, job, took, _⟩ := reached.kept.sound.take chose
  have logged : .started seq ∈ (play (later + 1)).log := by
    simp [next, work, look, there, calm.free later (after.trans wait), chose, took]
  exact started_fresh reached chose (calm.nothing_new (after.trans wait) rfl logged)

/-- Nothing is outstanding. If something were, it could be found, so no worker that is up
would find nothing; but then some worker is up, or one is about to be woken. -/
theorem empty : (play moment).state.incomplete = ∅ := by
  rw [calm.incomplete_eq after]
  by_contra outstanding
  have found : ∀ moment, since ≤ moment →
      (play moment).state.pick play.config ≠ none := by
    intro moment after
    have sound := (reached_states play moment).kept.sound
    have untaken : (play moment).taken = ∅ := by
      rw [eq_empty_iff_forall_notMem]
      intro seq there
      obtain ⟨worker, stage, job, hand⟩ := mem_taken.mp there
      cases phase : (play moment).workers worker with
      | busy its number given => exact not_busy fair calm after worker its number given phase
      | _ =>
        rw [phase] at hand
        cases hand
    rw [untaken] at sound
    refine sound.pick_isSome (nonempty_iff_ne_empty.mpr ?_)
    rw [calm.incomplete_eq after]
    exact outstanding
  have notLooking : ∀ moment, since ≤ moment → ∀ worker,
      (play moment).workers worker ≠ .looking := by
    intro moment after worker looking
    obtain ⟨later, wait, nothing⟩ := calm.finds_nothing fair after looking
    exact found later (after.trans wait) nothing
  have asleep : ∀ moment, since ≤ moment → ∀ worker,
      (play moment).workers worker = .asleep := by
    intro moment after worker
    cases phase : (play moment).workers worker with
    | looking => exact absurd phase (notLooking moment after worker)
    | asleep => rfl
    | busy stage seq job => exact absurd phase (not_busy fair calm after worker stage seq job)
    | settling =>
      obtain ⟨later, wait, looking, _⟩ := settles fair phase
      exact absurd looking (notLooking (later + 1) (by omega) worker)
  rcases (alert_states play since).stirring (calm.free since (Nat.le_refl _))
    (found since (Nat.le_refl _)) with ⟨worker, awake⟩ | ⟨client, waking⟩
  · exact awake (asleep since (Nat.le_refl _) worker)
  cases phase : (play since).clients client with
  | notifying =>
    obtain ⟨later, chosen, wait, there, next⟩ := client_stepped fair rfl phase
    obtain ⟨worker, awake⟩ := notifyOne_stirs (play later) chosen
    have up : (play (later + 1)).workers worker ≠ .asleep := by
      rw [next]
      unfold go
      rw [there]
      exact awake
    exact up (asleep (later + 1) (by omega) worker)
  | releasing =>
    obtain ⟨later, chosen, wait, there, next⟩ := client_stepped fair rfl phase
    have up : (play (later + 1)).workers chosen ≠ .asleep := by
      rw [next]
      unfold go notifyAll
      rw [there]
      simp only [setClient]
      split
      · simp
      · assumption
    exact up (asleep (later + 1) (by omega) chosen)
  | _ =>
    rw [phase] at waking
    cases waking

/-- The counters say that nothing is outstanding. -/
theorem room :
    (play moment).bytes = 0 ∧ (play moment).depth = 0 ∧
      (play moment).applied = (play moment).pushed := by
  have reached := reached_states play moment
  have empty := empty fair calm after
  refine ⟨?_, ?_, ?_⟩
  · rw [reached.counted.bytes, empty]
    simp
  · rw [reached.kept.depth, empty]
    rfl
  · rw [reached.kept.watermark, State.watermark, empty]
    rfl

/-- Nobody is about to push: there is room, and a job would be pushed. -/
theorem not_pushing (client : Nat) (job : Job) :
    (play moment).clients client ≠ .pushing job := by
  intro here
  obtain ⟨later, chosen, wait, there, next⟩ := client_stepped fair rfl here
  obtain ⟨bytes, depth, _⟩ := room fair calm (after.trans wait)
  have logged : .pushed ((play later).pushed + 1) ∈ (play (later + 1)).log := by
    simp [next, go, there, bytes, depth, push]
  exact pushed_fresh (reached_states play later) (calm.nothing_new (after.trans wait) rfl logged)

/-- A caller asleep for whom a wake-up is due comes out of its sleep. -/
theorem rises {phase : Client} (asleep : phase.able = false)
    (called : phase ≠ .idle) (here : (play moment).clients client = phase)
    (due : (play moment).Due) :
    ∃ later, moment ≤ later ∧ (play (later + 1)).clients client = rise phase := by
  by_contra never
  have always : ∀ wait, (play (moment + wait)).clients client = phase := by
    intro wait
    induction wait with
    | zero => exact here
    | succ wait ih =>
      rcases asleep_stays play.config (play (moment + wait)) (play.acts (moment + wait))
        (by rw [ih]; exact asleep) (by rw [ih]; exact called) with same | risen
      · exact same.trans ih
      · rw [ih] at risen
        exact absurd ⟨moment + wait, by omega, risen⟩ never
  obtain ⟨worker, settling | ⟨stage, seq, its, busy⟩⟩ := due
  · obtain ⟨later, wait, _, risen⟩ := settles fair settling
    obtain ⟨more, rfl⟩ := Nat.exists_eq_add_of_le wait
    have up := risen client
    rw [always more] at up
    exact never ⟨_, wait, up⟩
  · exact not_busy fair calm after worker stage seq its busy

/-- Nobody is asleep in `push`: there is room, so a wake-up is on its way. -/
theorem not_pushAsleep (client : Nat) (job : Job) :
    (play moment).clients client ≠ .pushAsleep job := by
  intro here
  obtain ⟨bytes, depth, _⟩ := room fair calm after
  have due : (play moment).Due := by
    refine (alert_states play moment).due client ?_
    rw [here]
    exact ⟨by omega, by omega⟩
  obtain ⟨later, wait, up⟩ := rises fair calm after rfl (by simp) here due
  exact not_pushing fair calm (by omega) client job up

/-- A caller that looks with its mark reached returns. -/
theorem entering_returns {barrier : Barrier}
    (marked : markOf barrier = some mark) (pushed : mark ≤ (play moment).pushed)
    (here : (play moment).clients client = .entering barrier) :
    ∃ later, moment ≤ later ∧ (play later).clients client = .idle := by
  obtain ⟨later, chosen, wait, there, next⟩ := client_stepped fair rfl here
  refine ⟨later + 1, by omega, ?_⟩
  have more := pushed_le play wait
  have reached : ¬ (play later).stays barrier = true := by
    rw [stays_iff marked, (calm.room fair (after.trans wait)).2.2]
    omega
  simp [next, go, there, reached, leave]

omit after

/-- A push returns. -/
theorem push_returns {job : Job}
    (inside : (play moment).clients client = .pushing job ∨
      (play moment).clients client = .pushAsleep job) :
    ∃ later, moment ≤ later ∧ (play later).clients client = .idle := by
  by_contra never
  have always : ∀ wait, (play (moment + wait)).clients client = .pushing job ∨
      (play (moment + wait)).clients client = .pushAsleep job ∨
      (play (moment + wait)).clients client = .notifying := by
    intro wait
    induction wait with
    | zero => exact inside.imp_right Or.inl
    | succ wait ih =>
      rcases push_moves play.config _ (play.acts (moment + wait)) ih with
        pushing | asleep | notifying | idle
      · exact Or.inl pushing
      · exact Or.inr (Or.inl asleep)
      · exact Or.inr (Or.inr notifying)
      · exact absurd ⟨moment + wait + 1, by omega, idle⟩ never
  rcases always since with pushing | asleep | notifying
  · exact calm.not_pushing fair (by omega) client job pushing
  · exact calm.not_pushAsleep fair (by omega) client job asleep
  · obtain ⟨later, chosen, wait, there, next⟩ := client_stepped fair rfl notifying
    refine never ⟨later + 1, by omega, ?_⟩
    simp [next, go, there]

/-- A `drain` or `drain_to` whose mark is ever pushed returns. -/
theorem barrier_returns {pushing : Nat}
    (inside : waitsTo ((play moment).clients client) = some mark)
    (pushed : mark ≤ (play pushing).pushed) :
    ∃ later, moment ≤ later ∧ (play later).clients client = .idle := by
  by_contra never
  have always : ∀ later, moment ≤ later →
      waitsTo ((play later).clients client) = some mark := by
    intro later after
    obtain ⟨wait, rfl⟩ := Nat.exists_eq_add_of_le after
    clear after
    induction wait with
    | zero => exact inside
    | succ wait ih =>
      rcases waitsTo_moves play.config _ (play.acts (moment + wait)) ih with still | idle
      · exact still
      · exact absurd ⟨moment + wait + 1, by omega, idle⟩ never
  -- Once the jobs are applied it finds so wherever it is.
  have notEntering : ∀ later, moment ≤ later → since ≤ later → pushing ≤ later → ∀ barrier,
      (play later).clients client ≠ .entering barrier := by
    intro later after calmed known barrier here
    have marked := always later after
    rw [here] at marked
    obtain ⟨ended, wait, idle⟩ := entering_returns fair calm calmed marked
      (pushed.trans (pushed_le play known)) here
    exact never ⟨ended, after.trans wait, idle⟩
  have late : moment ≤ moment + since + pushing ∧ since ≤ moment + since + pushing ∧
      pushing ≤ moment + since + pushing := by omega
  generalize moment + since + pushing = now at late
  obtain ⟨after, calmed, known⟩ := late
  have reaches : ∀ later, now ≤ later → mark ≤ (play later).applied := by
    intro later wait
    rw [(calm.room fair (calmed.trans wait)).2.2]
    exact pushed.trans (pushed_le play (known.trans wait))
  have marked := always now after
  cases phase : (play now).clients client with
  | entering barrier => exact notEntering now after calmed known barrier phase
  | checking barrier =>
    rw [phase] at marked
    obtain ⟨later, chosen, wait, there, next⟩ := client_stepped fair rfl phase
    refine never ⟨later + 1, by omega, ?_⟩
    have reached := reaches later wait
    rw [next]
    unfold go
    rw [there]
    cases barrier with
    | drain called its | drainTo its =>
      obtain rfl := Option.some.inj marked
      simp [check, reached, leave]
    | waitWhile called flag => cases marked
  | waiting barrier =>
    rw [phase] at marked
    have due : (play now).Due := by
      refine (alert_states play now).due client ?_
      rw [phase]
      have reached := reaches now (Nat.le_refl _)
      cases barrier with
      | drain called its | drainTo its =>
        obtain rfl := Option.some.inj marked
        exact reached
      | waitWhile called flag => cases marked
    obtain ⟨later, wait, up⟩ := rises fair calm calmed rfl (by simp) phase due
    exact notEntering (later + 1) (by omega) (by omega) (by omega) barrier up
  | _ =>
    rw [phase] at marked
    cases marked

/-- A `drain` reads its mark and then waits for it. -/
theorem drain_returns {called : Nat}
    (here : (play moment).clients client = .marking called) :
    ∃ later, moment ≤ later ∧ (play later).clients client = .idle := by
  obtain ⟨marked, chosen, wait, there, next⟩ := client_stepped fair rfl here
  have checking : (play (marked + 1)).clients client =
      .checking (.drain called (play marked).pushed) := by
    simp [next, go, there]
  obtain ⟨later, after, idle⟩ := barrier_returns fair calm
    (by rw [checking]; rfl : waitsTo _ = some (play marked).pushed)
    (Nat.le_refl _)
  exact ⟨later, by omega, idle⟩

end Calm

end Calm

/-- The lane of the job a worker has in hand. -/
def inLane (config : Config) (lane : Lane) : Phase → Bool
  | .busy _ _ job => job.kind.lane config = lane
  | _ => false

theorem inLane_iff {lane : Lane} {phase : Phase} :
    inLane config lane phase = true ↔
      ∃ stage seq job, phase = .busy stage seq job ∧ job.kind.lane config = lane := by
  cases phase with
  | busy stage seq job =>
    constructor
    · exact fun same => ⟨stage, seq, job, rfl, of_decide_eq_true same⟩
    · rintro ⟨_, _, _, ⟨⟩, same⟩
      exact decide_eq_true same
  | _ =>
    constructor
    · exact fun never => by cases never
    · rintro ⟨_, _, _, never, _⟩
      cases never

section Lanes

variable {world : World n}

section

variable (kept : Kept config world)
include kept

variable {stage : Stage} {seq : Nat} {job : Job} {first second : Fin n}

theorem lane_of_busy {worker : Fin n} (busy : world.workers worker = .busy stage seq job) :
    seq ∈ world.taken ∧ laneOf config world.jobs seq = job.kind.lane config ∧
      laneKeyOf config world.jobs seq = Bounded.keyOf config job.keys seq := by
  have hand : (world.workers worker).hand = some (stage, seq, job) := by rw [busy]; rfl
  have named := kept.named worker stage seq job hand
  exact ⟨mem_taken.mpr ⟨worker, stage, job, hand⟩, by simp [laneOf, named],
    by simp [laneKeyOf, named]⟩

theorem same_worker {stage' : Stage} {job' : Job}
    (busyFirst : world.workers first = .busy stage seq job)
    (busySecond : world.workers second = .busy stage' seq job') : first = second :=
  kept.alone first second stage stage' seq job job' (by rw [busyFirst]; rfl)
    (by rw [busySecond]; rfl)

/-- One job of the serial lane is in hand at a time. -/
theorem serial_alone (serialFirst : inLane config .serial (world.workers first) = true)
    (serialSecond : inLane config .serial (world.workers second) = true) : first = second := by
  obtain ⟨stage, seq, job, busy, lane⟩ := inLane_iff.mp serialFirst
  obtain ⟨stage', seq', job', busy', lane'⟩ := inLane_iff.mp serialSecond
  obtain ⟨held, laneSeq, _⟩ := lane_of_busy kept busy
  obtain ⟨held', laneSeq', _⟩ := lane_of_busy kept busy'
  obtain rfl := kept.sound.lanes.serialAlone seq held seq' held' (laneSeq.trans lane)
    (laneSeq'.trans lane')
  exact same_worker kept busy busy'

/-- The jobs of the bounded lane in hand are within its width. -/
theorem bounded_within :
    (Finset.univ.filter fun worker => inLane config .bounded (world.workers worker) = true).card ≤
      config.createWidth := by
  refine Nat.le_trans ?_ kept.sound.lanes.bounded.within
  rw [kept.sound.lanes.bounded.count]
  -- Each of those workers by the number of its job.
  refine card_le_card_of_injOn
    (fun worker => ((world.workers worker).hand.map fun hand => hand.2.1).getD 0) ?_ ?_
  · intro worker there
    obtain ⟨stage, seq, job, busy, lane⟩ := inLane_iff.mp (mem_filter.mp there).2
    obtain ⟨held, laneSeq, _⟩ := lane_of_busy kept busy
    simp only [busy, Phase.hand, Option.map_some, Option.getD_some, coe_filter, Set.mem_ofPred_eq]
    exact ⟨held, laneSeq.trans lane⟩
  · intro first inFirst second inSecond same
    obtain ⟨stage, seq, job, busy, _⟩ := inLane_iff.mp (mem_filter.mp inFirst).2
    obtain ⟨stage', seq', job', busy', _⟩ := inLane_iff.mp (mem_filter.mp inSecond).2
    simp only [busy, busy', Phase.hand, Option.map_some, Option.getD_some] at same
    subst same
    exact same_worker kept busy busy'

/-- No two of them have one lane key. -/
theorem bounded_apart {stage' : Stage} {seq' : Nat} {job' : Job}
    (busy : world.workers first = .busy stage seq job)
    (busy' : world.workers second = .busy stage' seq' job') (lane : job.kind.lane config = .bounded)
    (lane' : job'.kind.lane config = .bounded)
    (same : Bounded.keyOf config job.keys seq = Bounded.keyOf config job'.keys seq') :
    first = second := by
  obtain ⟨held, laneSeq, keySeq⟩ := lane_of_busy kept busy
  obtain ⟨held', laneSeq', keySeq'⟩ := lane_of_busy kept busy'
  obtain rfl := kept.sound.lanes.bounded.alone seq (mem_filter.mpr ⟨held, laneSeq.trans lane⟩) seq'
    (mem_filter.mpr ⟨held', laneSeq'.trans lane'⟩)
    (keySeq.trans (same.trans keySeq'.symm))
  exact same_worker kept busy busy'

end

theorem started_once (told : Told world) (seq : Nat) : world.log.count (.started seq) ≤ 1 := by
  by_cases begun : world.Begun seq
  · exact Nat.le_of_eq (told.begun seq begun)
  · rw [List.count_eq_zero_of_not_mem (told.unbegun seq begun)]
    exact Nat.zero_le 1

theorem finished_once (told : Told world) (seq : Nat) : world.log.count (.finished seq) ≤ 1 := by
  by_cases ran : world.Ran seq
  · exact Nat.le_of_eq (told.ran seq ran)
  · rw [List.count_eq_zero_of_not_mem (told.unran seq ran)]
    exact Nat.zero_le 1

end Lanes

/-- Every job pushed is put away in the end. -/
theorem applied_eventually {play : Play n} (fair : IsFair play.config play.acts) {bound : Nat}
    (bounded : ∀ moment, (play moment).pushed ≤ bound) {released : Nat}
    (free : ∀ moment, released ≤ moment → (play moment).state.held = false) :
    ∃ since, ∀ moment, since ≤ moment → ∀ seq, .pushed seq ∈ (play moment).log →
      (play moment).Known seq ∧
        seq ∉ (play moment).state.incomplete := by
  obtain ⟨since, calm⟩ := exists_calm bounded free
  refine ⟨since, fun moment after seq pushed => ?_⟩
  refine ⟨((reached_states play moment).told.pushes seq).mp pushed, ?_⟩
  rw [calm.empty fair after]
  exact notMem_empty seq

theorem log_le (play : Play n) {moment later : Nat} (after : moment ≤ later) :
    (play moment).log <+: (play later).log := by
  obtain ⟨wait, rfl⟩ := Nat.exists_eq_add_of_le after
  clear after
  induction wait with
  | zero => exact List.prefix_rfl
  | succ wait ih =>
    exact ih.trans (log_grows play.config (play (moment + wait)) _)

end World

/-- The queue respects its order. At every moment of every interleaving no job has started or
finished twice; a job that shares a key with an earlier one has started after that one had
finished; one job of the serial lane is in hand, and of the bounded lane no more than its
width, with no two of one lane key, which with affinity is the directory. And in every run
that is fair to its threads and pushes only so many jobs, each of them runs exactly once. -/
theorem jobs_run_once_in_order (config : Config) (n : Nat) :
    (∀ acts : List (Act n),
      let world := Transition.run (World.step config) (World.start n) acts
      (∀ seq, world.log.count (.started seq) ≤ 1 ∧ world.log.count (.finished seq) ≤ 1) ∧
      (∀ past seq rest, world.log = past ++ .started seq :: rest →
        ∀ prev, Shares world.jobs prev seq → prev < seq → .finished prev ∈ past) ∧
      (∀ first second, World.inLane config .serial (world.workers first) = true →
        World.inLane config .serial (world.workers second) = true → first = second) ∧
      (Finset.univ.filter fun worker =>
        World.inLane config .bounded (world.workers worker) = true).card ≤ config.createWidth ∧
      (config.dirAffinity = true → ∀ first second stage stage' seq seq' job job',
        world.workers first = .busy stage seq job → world.workers second = .busy stage' seq' job' →
        job.kind.lane config = .bounded → job'.kind.lane config = .bounded →
        job.keys.first = job'.keys.first → first = second)) ∧
    (∀ acts : Nat → Act n, World.IsFair config acts →
      (∀ moment, (World.states config acts moment).state.held = false) →
      ∀ bound, (∀ moment, (World.states config acts moment).pushed ≤ bound) →
      ∀ moment seq, .pushed seq ∈ (World.states config acts moment).log →
      ∃ since, ∀ later, since ≤ later →
        (World.states config acts later).log.count (.started seq) = 1 ∧
          (World.states config acts later).log.count (.finished seq) = 1) := by
  constructor
  · intro acts world
    have reached : Reached config world := reached_run config acts
    refine ⟨fun seq => ⟨started_once reached.told seq, finished_once reached.told seq⟩,
      fun past seq rest split => reached.told.turn past _ rest split,
      fun first second => serial_alone reached.kept, bounded_within reached.kept, ?_⟩
    intro affinity first second stage stage' seq seq' job job' busy busy' lane lane' same
    refine bounded_apart reached.kept busy busy' lane lane' ?_
    rw [Bounded.keyOf, Bounded.keyOf, if_pos affinity, if_pos affinity, same]
  · intro acts fair free bound bounded moment seq pushed
    obtain ⟨play, rfl, rfl⟩ := exists_play config acts
    have unheld : ∀ moment, 0 ≤ moment → (play moment).state.held = false :=
      fun moment _ => free moment
    obtain ⟨since, applied⟩ := applied_eventually fair bounded unheld
    refine ⟨moment + since, fun later after => ?_⟩
    have told := (reached_states play later).told
    obtain ⟨known, gone⟩ := applied later (by omega) seq
      ((log_le play (by omega)).subset pushed)
    exact ⟨told.begun seq ⟨known, Or.inl gone⟩, told.ran seq ⟨known, Or.inl gone⟩⟩

/-- The queue never gets stuck. In a state that a run can reach, with the queue not held, every
worker asleep and no wake-up on its way, every job pushed has been applied and nobody sleeps in
`settled` whose loop is over, a loop on a flag being among these where flags are lowered by
jobs. And in every run that is
fair to its threads, with the queue not held from some moment on, that pushes only so many
jobs, every job pushed is applied, every push and every `drain` returns, and so does every
`drain_to` with the number of a job that is ever pushed. -/
theorem queue_never_stuck (config : Config) (n : Nat) :
    (∀ acts : List (Act n),
      let world := Transition.run (World.step config) (World.start n) acts
      world.state.held = false → (∀ worker, world.workers worker = .asleep) →
      (∀ client, World.wakes (world.clients client) = false) →
      (∀ seq, .pushed seq ∈ world.log → .applied seq ∈ world.log) ∧
        ∀ flagged : Prop,
          Transition.Legal (World.LowersInJob flagged) (World.step config) (World.start n) acts →
          ∀ client, ¬ world.overslept config flagged (world.clients client)) ∧
    (∀ acts : Nat → Act n, World.IsFair config acts →
      ∀ released, (∀ moment, released ≤ moment →
        (World.states config acts moment).state.held = false) →
      ∀ bound, (∀ moment, (World.states config acts moment).pushed ≤ bound) →
      ∀ moment,
        (∀ seq, .pushed seq ∈ (World.states config acts moment).log →
          ∃ later, .applied seq ∈ (World.states config acts later).log) ∧
        ∀ client,
          ((∃ job, (World.states config acts moment).clients client = .pushing job ∨
              (World.states config acts moment).clients client = .pushAsleep job) ∨
            (∃ called, (World.states config acts moment).clients client = .marking called) ∨
            (∃ mark, World.drainMark ((World.states config acts moment).clients client) =
              some mark) ∨
            (∃ mark pushing, World.waitsTo ((World.states config acts moment).clients client) =
              some mark ∧ mark ≤ (World.states config acts pushing).pushed)) →
          ∃ later, moment ≤ later ∧ (World.states config acts later).clients client = .idle) := by
  constructor
  · intro acts world free asleep silent
    have reached : Reached config world := reached_run config acts
    constructor
    · intro seq pushed
      have alert : Alert config False world :=
        Transition.run_preserves _ _ (fun _ act alert => alert.step act fun never => never.elim)
          _ _ (Alert.start config False n)
      have empty := (not_stuck reached.kept alert free asleep silent).1
      rw [reached.counted.applied, empty]
      exact ⟨(reached.told.pushes seq).mp pushed, notMem_empty seq⟩
    · intro flagged legal
      have alert : Alert config flagged world :=
        Transition.run_invariant _ _ _ (fun _ act alert lowers => alert.step act lowers) _ _
          (Alert.start config flagged n) legal
      exact (not_stuck reached.kept alert free asleep silent).2
  intro acts fair released free bound bounded moment
  obtain ⟨play, rfl, rfl⟩ := exists_play config acts
  obtain ⟨since, calm⟩ := exists_calm bounded free
  constructor
  · intro seq pushed
    obtain ⟨done, applied⟩ := applied_eventually fair bounded free
    refine ⟨moment + done, ?_⟩
    rw [(reached_states play (moment + done)).counted.applied]
    exact applied (moment + done) (by omega) seq
      ((log_le play (by omega)).subset pushed)
  · rintro client
      (⟨job, inside⟩ | ⟨called, marking⟩ | ⟨mark, marked⟩ | ⟨mark, pushing, inside, pushed⟩)
    · exact calm.push_returns fair inside
    · exact calm.drain_returns fair marking
    · exact calm.barrier_returns fair (waitsTo_of_drainMark marked)
        ((alert_states play moment).marks client mark marked)
    · exact calm.barrier_returns fair inside pushed

end Lighter.Fs.Apply
