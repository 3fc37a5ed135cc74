import Lighter.Fs.ApplyOrder
import Mathlib.Algebra.Order.BigOperators.Group.Finset
import Mathlib.Order.Interval.Finset.Nat

/-!
# What a barrier has waited for

A barrier returns on what it reads: the watermark, the depth or a flag. Each of them says
something of the jobs at the moment it is read, and for the first two that is true ever
after, so the moment of the return is as good as any.
-/

namespace Lighter.Fs.Apply

open History List

variable {log : List Event}

/-- The value a flag was last given. -/
def flagIn (log : List Event) (name : Nat) : Bool :=
  log.foldl (fun value event =>
    match event with
    | .flag other given => if other = name then given else value
    | _ => value) false

theorem flagIn_concat (log : List Event) (event : Event) (name : Nat) :
    flagIn (log ++ [event]) name =
      match event with
      | .flag other given => if other = name then given else flagIn log name
      | _ => flagIn log name := by
  rw [flagIn, foldl_append]
  rfl

theorem flagIn_append {more : List Event} (about : ∀ event ∈ more, event.aside = false)
    (name : Nat) : flagIn (log ++ more) name = flagIn log name := by
  induction more using reverseRecOn with
  | nil => rw [append_nil]
  | append_singleton more event ih =>
    rw [← append_assoc, flagIn_concat]
    have before := ih fun other there =>
      about other (mem_append_left _ there)
    have job := about event (mem_append_right _ (mem_singleton_self event))
    cases event with
    | flag other given => cases job
    | _ => exact before

/-- What has happened when a barrier returns. -/
def keptWord : Event → List Event → Prop
  | .ended (.drain called _), past => ∀ seq, .pushed seq ∈ past.take called → .finished seq ∈ past
  | .ended (.drainTo mark), past => ∀ seq, 0 < seq → seq ≤ mark → .finished seq ∈ past
  | .ended (.waitWhile called flag), past => called ≤ past.length ∧
      (flagIn past flag = false ∨ ∀ seq, .pushed seq ∈ past → .finished seq ∈ past)
  | _, _ => True

/-- What a barrier knows on its way: the mark of a `drain` covers all that was pushed before
the call. -/
def Barrier.Informed (log : List Event) : Barrier → Prop
  | .drain called mark =>
      called ≤ log.length ∧ ∀ seq, .pushed seq ∈ log.take called → seq ≤ mark
  | .drainTo _ => True
  | .waitWhile called _ => called ≤ log.length

def Client.Informed (log : List Event) : Client → Prop
  | .marking called => called ≤ log.length
  | .checking barrier => barrier.Informed log
  | .counting called _ => called ≤ log.length
  | .entering barrier => barrier.Informed log
  | .waiting barrier => barrier.Informed log
  | _ => True

theorem Barrier.Informed.append {barrier : Barrier} (informed : barrier.Informed log)
    (more : List Event) : barrier.Informed (log ++ more) := by
  cases barrier with
  | drain called mark =>
    obtain ⟨made, covers⟩ := informed
    refine ⟨by rw [length_append]; omega, ?_⟩
    rw [take_append_of_le_length made]
    exact covers
  | drainTo mark => trivial
  | waitWhile called flag =>
    have made : called ≤ log.length := informed
    change called ≤ (log ++ more).length
    rw [length_append]
    omega

theorem Client.Informed.append {client : Client} (informed : client.Informed log)
    (more : List Event) : client.Informed (log ++ more) := by
  have longer : log.length ≤ (log ++ more).length := by rw [length_append]; omega
  cases client with
  | marking called | counting called flag => exact Nat.le_trans informed longer
  | checking barrier | entering barrier | waiting barrier =>
    exact Barrier.Informed.append informed more
  | _ => trivial

theorem Client.Informed.rise {client : Client} (informed : client.Informed log) :
    (World.rise client).Informed log := by
  cases client with
  | pushAsleep job => trivial
  | waiting barrier => exact informed
  | _ => exact informed

namespace World

variable {n : Nat} {config : Config} {world : World n} {seq : Nat}

/-- The watermark is below everything outstanding, and no higher than the last number. -/
theorem Kept.applied_done (kept : Kept config world) (positive : 0 < seq)
    (below : seq ≤ world.applied) : world.Known seq ∧ seq ∉ world.state.incomplete := by
  rw [kept.watermark, State.watermark] at below
  cases least : world.state.incomplete.min with
  | top =>
    rw [least] at below
    rw [kept.pushed] at below
    refine ⟨⟨positive, below⟩, ?_⟩
    rw [Finset.min_eq_top.mp least]
    exact Finset.notMem_empty seq
  | coe oldest =>
    rw [least] at below
    change seq ≤ oldest - 1 at below
    have known := kept.sound.links.known (Finset.mem_of_min least)
    refine ⟨⟨positive, by omega⟩, fun there => ?_⟩
    have smallest := Finset.min_le_of_eq there least
    omega

theorem finished_of_ran (told : Told world) (ran : world.Ran seq) : .finished seq ∈ world.log := by
  have once := told.ran seq ran
  exact count_pos_iff.mp (by omega)

/-- Every job up to the watermark has run. -/
theorem finished_of_applied (kept : Kept config world) (told : Told world) (positive : 0 < seq)
    (below : seq ≤ world.applied) : .finished seq ∈ world.log := by
  obtain ⟨known, gone⟩ := kept.applied_done positive below
  exact finished_of_ran told ⟨known, Or.inl gone⟩

/-- At depth zero every job pushed has run. -/
theorem finished_of_depth (kept : Kept config world) (told : Told world) (empty : world.depth = 0)
    (pushed : .pushed seq ∈ world.log) : .finished seq ∈ world.log := by
  rw [kept.depth, Finset.card_eq_zero] at empty
  refine finished_of_ran told ⟨(told.pushes seq).mp pushed, Or.inl ?_⟩
  rw [empty]
  exact Finset.notMem_empty seq

/-- The callers, the flags and the returns agree with the history. -/
structure Watched (world : World n) : Prop where
  clients : ∀ client, (world.clients client).Informed world.log
  flags : ∀ name, world.flags name = flagIn world.log name
  law : Lawful keptWord world.log

namespace Watched

variable {world : World n} {client : Nat} {barrier : Barrier}

theorem start (n : Nat) : Watched (World.start n) :=
  ⟨fun _ => trivial, fun _ => rfl, lawful_nil _⟩

variable (watched : Watched world)
include watched

/-- An event about a job, or none, with the callers where they were or risen. -/
theorem frame {after : World n} (more : List Event)
    (log : after.log = world.log ++ more) (about : ∀ event ∈ more, event.aside = false)
    (clients : ∀ client, (after.clients client).Informed world.log)
    (flags : after.flags = world.flags) : Watched after := by
  constructor
  · intro client
    rw [log]
    exact (clients client).append more
  · intro name
    rw [flags, watched.flags, log]
    rw [flagIn_append about]
  rw [log]
  refine watched.law.append fun event there past => ?_
  have quiet := about event there
  cases event with
  | ended barrier => cases quiet
  | _ => trivial

/-- The log and the flags are the same and each caller knows what it should. -/
theorem of_eq {after : World n} (log : after.log = world.log)
    (clients : ∀ client, (after.clients client).Informed world.log)
    (flags : after.flags = world.flags) : Watched after :=
  watched.frame [] (by rw [log, append_nil]) (by simp) clients flags

/-- One caller moves on. -/
theorem informed_update {phase : Client} (informed : phase.Informed world.log) (other : Nat) :
    (Function.update world.clients client phase other).Informed world.log := by
  by_cases same : other = client
  · subst same
    rw [Function.update_self]
    exact informed
  · rw [Function.update_of_ne same]
    exact watched.clients other

theorem setClient {phase : Client} (informed : phase.Informed world.log) :
    Watched (world.setClient client phase) :=
  watched.of_eq rfl (watched.informed_update informed) rfl

/-- A barrier returns with its word kept. -/
theorem leave (client : Nat) (word : keptWord (.ended barrier) world.log) :
    Watched (world.leave client barrier) := by
  have idle : Client.idle.Informed world.log := trivial
  refine ⟨fun other => ?_, fun name => ?_, lawful_concat.mpr ⟨watched.law, word⟩⟩
  · exact (watched.informed_update idle other).append _
  · change world.flags name = flagIn (world.log ++ [.ended barrier]) name
    rw [flagIn_concat, watched.flags]

omit watched

/-- When the loop of a barrier ends, the barrier's word is kept. -/
theorem word_of_not_stays (kept : Kept config world) (told : Told world) (watched : Watched world)
    (informed : barrier.Informed world.log) (done : world.stays barrier = false) :
    keptWord (.ended barrier) world.log := by
  cases barrier with
  | drain called mark =>
    have reached : mark ≤ world.applied := by simpa [stays] using done
    intro seq pushed
    have known := (told.pushes seq).mp (mem_of_mem_take pushed)
    exact finished_of_applied kept told known.1 (Nat.le_trans (informed.2 seq pushed) reached)
  | drainTo mark =>
    have reached : mark ≤ world.applied := by simpa [stays] using done
    intro seq positive below
    exact finished_of_applied kept told positive (Nat.le_trans below reached)
  | waitWhile called flag =>
    refine ⟨informed, ?_⟩
    rw [← watched.flags]
    cases up : world.flags flag with
    | false => exact Or.inl rfl
    | true =>
      have empty : world.depth = 0 := by simpa [stays, up] using done
      exact Or.inr fun seq pushed => finished_of_depth kept told empty pushed

theorem work (watched : Watched world) (worker chosen : Fin n) :
    Watched (world.work config worker chosen) := by
  have notified : ∀ after : World n, Watched after → Watched (after.notifyOne chosen) := by
    intro after same
    rw [notifyOne_eq]
    exact same.of_eq rfl same.clients rfl
  unfold World.work
  split
  · unfold look
    split
    · exact watched.of_eq rfl watched.clients rfl
    split
    · exact watched.of_eq rfl watched.clients rfl
    · split
      · exact watched
      · exact watched.frame [.started _] rfl (by simp [Event.aside]) watched.clients rfl
  · exact watched
  · exact watched.frame [.finished _] rfl (by simp [Event.aside]) watched.clients rfl
  · exact watched.of_eq rfl watched.clients rfl
  · rename_i seq job _
    have away : Watched (world.putAway config worker seq job) :=
      watched.frame [.applied seq] rfl (by simp [Event.aside]) watched.clients rfl
    unfold World.complete
    dsimp only
    split
    · exact away
    · exact notified _ away
    · exact away.of_eq rfl away.clients rfl
  · exact watched.of_eq rfl (fun client => (watched.clients client).rise) rfl

/-- What a caller knows at a barrier, wherever in it. -/
theorem informed_of_went (watched : Watched world)
    (phase : world.clients client = .checking barrier ∨
      world.clients client = .entering barrier ∨
      ∃ called flag, barrier = .waitWhile called flag ∧
      world.clients client = .counting called flag) : barrier.Informed world.log := by
  have informed := watched.clients client
  rcases phase with phase | phase | ⟨called, flag, rfl, phase⟩
  · rwa [phase] at informed
  · rwa [phase] at informed
  · rwa [phase] at informed

theorem go (kept : Kept config world) (told : Told world) (watched : Watched world) {client : Nat}
    {chosen : Fin n} {after : World n} (went : Went config world client chosen after) :
    Watched after := by
  have informed := watched.clients client
  cases went with
  | rests => exact watched
  | fills => exact watched.setClient trivial
  | pushes =>
    exact watched.frame [.pushed _] rfl (by simp [Event.aside])
      (watched.informed_update trivial) rfl
  | notifies =>
    rw [notifyOne_eq]
    exact watched.of_eq rfl (watched.informed_update trivial) rfl
  | marks called phase =>
    rw [phase] at informed
    refine watched.setClient ⟨informed, fun seq pushed => ?_⟩
    rw [kept.pushed]
    exact ((told.pushes seq).mp (mem_of_mem_take pushed)).2
  | counts called flag phase =>
    rw [phase] at informed
    exact watched.setClient informed
  | enters barrier phase =>
    exact watched.setClient (watched.informed_of_went (phase.imp_right Or.inr))
  | waits barrier phase =>
    exact watched.setClient (watched.informed_of_went (Or.inr (Or.inl phase)))
  | leaves barrier phase done =>
    exact watched.leave client
      (word_of_not_stays kept told watched (watched.informed_of_went phase) done)
  | holds | frees | releases => exact watched.of_eq rfl (watched.informed_update trivial) rfl

theorem step (kept : Kept config world) (told : Told world) (watched : Watched world)
    (act : Act n) : Watched (world.step config act) := by
  cases act with
  | work worker chosen => exact watched.work worker chosen
  | wake worker =>
    unfold World.step
    dsimp only
    split
    · exact watched.of_eq rfl watched.clients rfl
    · exact watched
  | call client call =>
    unfold World.step
    dsimp only
    split
    · refine watched.setClient ?_
      cases call with
      | drain => exact Nat.le_refl _
      | waitWhile flag => exact Nat.le_refl _
      | _ => trivial
    · exact watched
  | go client chosen => exact go kept told watched (go_went config world client chosen)
  | rouse client => exact watched.setClient (watched.clients client).rise
  | set flag value =>
    refine ⟨fun client => (watched.clients client).append _, fun name => ?_,
      lawful_concat.mpr ⟨watched.law, trivial⟩⟩
    change Function.update world.flags flag value name =
      flagIn (world.log ++ [.flag flag value]) name
    rw [flagIn_concat]
    by_cases same : name = flag
    · subst same
      simp
    · simp [same, Ne.symm same, watched.flags]

end Watched
/-- The payload of a job, by number. -/
def bytesOf (jobs : List Job) (seq : Nat) : Nat := ((nth jobs seq).map Job.bytes).getD 0

/-- The jobs in hand whose bytes are given back. -/
def paid (world : World n) : Finset Nat :=
  Finset.univ.biUnion fun worker =>
    ((world.workers worker).hand.bind fun hand =>
      if hand.1 = .counted then some hand.2.1 else none).toFinset

theorem mem_paid {world : World n} {seq : Nat} :
    seq ∈ world.paid ↔ ∃ worker job, (world.workers worker).hand = some (.counted, seq, job) := by
  simp [paid, Option.bind_eq_some_iff]

/-- The counters and the history agree with the tables. -/
structure Counted (world : World n) : Prop where
  applied : ∀ seq, .applied seq ∈ world.log ↔ world.Known seq ∧ seq ∉ world.state.incomplete
  bytes : world.bytes = ∑ seq ∈ world.state.incomplete \ world.paid, bytesOf world.jobs seq

namespace Counted

variable {world : World n} {after : World n}

theorem start (n : Nat) : Counted (World.start n) := by
  refine ⟨fun seq => iff_of_false (by simp [World.start]) ?_, by simp [World.start, State.start]⟩
  rintro ⟨⟨positive, known⟩, _⟩
  simp only [World.start, length_nil] at known
  omega

theorem quiet (counted : Counted world) (same : Quiet world after) : Counted after := by
  obtain ⟨more, log, aside⟩ := same.log
  have incomplete : after.state.incomplete = world.state.incomplete := by rw [same.state]
  have paidSame : after.paid = world.paid := by
    ext seq
    simp only [mem_paid, same.hands]
  constructor
  · intro seq
    have silent : .applied seq ∉ more := fun there => by
      have quiet := aside _ there
      cases quiet
    rw [log, mem_append, or_iff_left silent, counted.applied, Known, Known, same.jobs, incomplete]
  · rw [same.bytes, counted.bytes, incomplete, paidSame, same.jobs]

/-- An event that puts no job away, with the same numbers outstanding and paid for. -/
theorem frame (counted : Counted world) (event : Event) (other : ∀ seq, event ≠ .applied seq)
    (log : after.log = world.log ++ [event]) (jobs : after.jobs = world.jobs)
    (incomplete : after.state.incomplete = world.state.incomplete) (paid : after.paid = world.paid)
    (bytes : after.bytes = world.bytes) : Counted after := by
  constructor
  · intro seq
    rw [log, mem_append, mem_singleton, or_iff_left (Ne.symm (other seq)),
      counted.applied, Known, Known, jobs, incomplete]
  · rw [bytes, counted.bytes, incomplete, paid, jobs]

theorem push (kept : Kept config world) (counted : Counted world) (client : Nat) (job : Job) :
    Counted (world.push config client job) := by
  have incomplete : (world.push config client job).state.incomplete =
      insert (world.pushed + 1) world.state.incomplete :=
    Links.enqueue_incomplete config world.state (world.pushed + 1) job
  have fresh : world.pushed + 1 ∉ world.state.incomplete := by
    intro there
    have known := (kept.sound.links.known there).2
    rw [kept.pushed] at known
    omega
  have unpaid : world.pushed + 1 ∉ world.paid := by
    intro there
    obtain ⟨worker, its, hand⟩ := mem_paid.mp there
    exact fresh (kept.sound.links.takenPresent _ (mem_taken.mpr ⟨worker, _, _, hand⟩))
  constructor
  · intro seq
    rw [incomplete, Finset.mem_insert, Known]
    change .applied seq ∈ world.log ++ [.pushed (world.pushed + 1)] ↔
      (0 < seq ∧ seq ≤ (world.jobs ++ [job]).length) ∧ _
    rw [mem_append, mem_singleton, or_iff_left (by simp), counted.applied, Known,
      length_append, length_singleton, kept.pushed]
    constructor
    · grind
    · grind
  · change world.bytes + job.bytes =
      ∑ seq ∈ (world.push config client job).state.incomplete \ world.paid,
        bytesOf (world.jobs ++ [job]) seq
    rw [incomplete, Finset.insert_sdiff_of_notMem _ unpaid,
      Finset.sum_insert (fun there => fresh (Finset.mem_sdiff.mp there).1), counted.bytes,
      Nat.add_comm]
    congr 1
    · rw [bytesOf, kept.pushed, nth_last]
      rfl
    · refine Finset.sum_congr rfl fun seq there => ?_
      have known := (kept.sound.links.known (Finset.mem_sdiff.mp there).1).2
      rw [bytesOf, bytesOf, nth_append known]

/-- A worker that goes on with its job without giving bytes back. -/
theorem paid_same {worker : Fin n} {phase : Phase}
    (before : ∀ seq job, (world.workers worker).hand ≠ some (.counted, seq, job))
    (hands : Hands world after worker phase.hand)
    (unpaid : ∀ seq job, phase.hand ≠ some (.counted, seq, job)) : after.paid = world.paid := by
  ext seq
  rw [mem_paid, mem_paid]
  constructor
  · grind
  · grind

theorem paid_insert {worker : Fin n} {seq : Nat} {job : Job}
    (before : ∀ seq job, (world.workers worker).hand ≠ some (.counted, seq, job))
    (hands : Hands world after worker (some (.counted, seq, job))) :
    after.paid = insert seq world.paid := by
  ext number
  rw [mem_paid, Finset.mem_insert, mem_paid]
  constructor
  · grind
  · grind

section

variable (kept : Kept config world) (counted : Counted world)
include kept counted

/-- The bytes of a job that has returned are given back. -/
theorem pay {worker : Fin n} {seq : Nat}
    {job : Job} (hand : world.workers worker = .busy .returned seq job) :
    Counted ({ world with bytes := world.bytes - job.bytes }.setWorker worker
      (.busy .counted seq job)) := by
  obtain ⟨before, _, outstanding⟩ := kept.busy hand
  have paid : ({ world with bytes := world.bytes - job.bytes }.setWorker worker
      (.busy .counted seq job)).paid = insert seq world.paid :=
    paid_insert (by simp [before]) (fun other => hand_setWorker _ worker other _)
  have there : seq ∈ world.state.incomplete \ world.paid := by
    refine Finset.mem_sdiff.mpr ⟨outstanding, fun already => ?_⟩
    obtain ⟨other, its, elsewhere⟩ := mem_paid.mp already
    obtain rfl := kept.alone other worker _ _ seq its job elsewhere before
    rw [before] at elsewhere
    cases elsewhere
  refine ⟨counted.applied, ?_⟩
  change world.bytes - job.bytes = ∑ number ∈ world.state.incomplete \ _, bytesOf world.jobs number
  have its : bytesOf world.jobs seq = job.bytes := by
    rw [bytesOf, kept.named worker _ seq job before]
    rfl
  rw [paid, Finset.sdiff_insert, counted.bytes,
    ← Finset.add_sum_erase _ (bytesOf world.jobs) there, its, Nat.add_sub_cancel_left]

/-- A job that is put away was paid for. -/
theorem putAway {worker : Fin n} {seq : Nat}
    {job : Job} (hand : world.workers worker = .busy .counted seq job) :
    Counted (world.putAway config worker seq job) := by
  obtain ⟨before, held, outstanding⟩ := kept.busy hand
  have known := kept.sound.links.known outstanding
  obtain ⟨incomplete, _, _⟩ := kept.sound.complete held (kept.named worker _ seq job before)
  have hands : Hands world (world.putAway config worker seq job) worker none :=
    fun other => hand_setWorker _ worker other _
  unfold World.putAway at *
  generalize world.state.complete config seq job = result at *
  constructor
  · intro number
    change .applied number ∈ world.log ++ [.applied seq] ↔
      world.Known number ∧ number ∉ result.1.incomplete
    rw [mem_append, mem_singleton, counted.applied, incomplete, Finset.mem_erase,
      Event.applied.injEq]
    by_cases same : number = seq
    · subst same
      exact iff_of_true (Or.inr rfl) ⟨known, fun there => there.1 rfl⟩
    · simp [same]
  · change world.bytes = ∑ number ∈ result.1.incomplete \ _, bytesOf world.jobs number
    refine counted.bytes.trans (Finset.sum_congr ?_ fun _ _ => rfl)
    rw [incomplete]
    ext number
    rw [Finset.mem_sdiff, Finset.mem_sdiff, Finset.mem_erase, mem_paid, mem_paid]
    constructor
    · grind
    · grind

theorem step (act : Act n) : Counted (world.step config act) := by
  cases step_moved config world act with
  | quiet same => exact counted.quiet same
  | pushed client job same => exact (push kept counted client job).quiet same
  | took worker picked state seq job idle chosen taken same =>
    refine quiet ?_ same
    obtain ⟨after, its, result, _, _, _, _, incomplete, _, _⟩ := kept.sound.take chosen
    rw [taken] at result
    obtain ⟨rfl, rfl⟩ := Prod.mk.inj (Option.some.inj result)
    exact counted.frame (.started seq) (fun _ => by simp) rfl rfl incomplete
      (paid_same (by simp [idle]) (fun other => hand_setWorker _ worker other _)
        (by simp [Phase.hand])) rfl
  | returned worker seq job hand same =>
    refine quiet ?_ same
    exact counted.frame (.finished seq) (fun _ => by simp) rfl rfl rfl
      (paid_same (by simp [hand, Phase.hand]) (fun other => hand_setWorker _ worker other _)
        (by simp [Phase.hand])) rfl
  | counted worker seq job hand same => exact (pay kept counted hand).quiet same
  | applied worker seq job hand same => exact (putAway kept counted hand).quiet same

end

end Counted

variable {world : World n}
/-- What every state of a run has. -/
structure Reached (config : Config) (world : World n) : Prop where
  kept : Kept config world
  told : Told world
  watched : Watched world
  counted : Counted world

theorem Reached.step (reached : Reached config world) (act : Act n) :
    Reached config (world.step config act) :=
  ⟨reached.kept.step act, Told.step reached.kept reached.told act,
    Watched.step reached.kept reached.told reached.watched act,
    Counted.step reached.kept reached.counted act⟩

theorem Reached.start (config : Config) (n : Nat) : Reached config (World.start n) :=
  ⟨Kept.start config n, Told.start n, Watched.start n, Counted.start n⟩

theorem reached_run (config : Config) (acts : List (Act n)) :
    Reached config (Transition.run (World.step config) (World.start n) acts) :=
  Transition.run_preserves _ _ (fun _ act reached => reached.step act) _ _ (Reached.start config n)

/-- A job put away raises the watermark or leaves it. -/
theorem watermark_erase {state after : State} {seq pushed : Nat}
    (known : ∀ number ∈ state.incomplete, number ≤ pushed)
    (incomplete : after.incomplete = state.incomplete.erase seq) :
    state.watermark pushed ≤ after.watermark pushed := by
  unfold State.watermark
  rw [incomplete]
  cases least : state.incomplete.min with
  | top =>
    rw [Finset.min_eq_top.mp least]
    exact Nat.le_refl _
  | coe oldest =>
    cases second : (state.incomplete.erase seq).min with
    | top => exact Nat.le_trans (Nat.sub_le _ _) (known oldest (Finset.mem_of_min least))
    | coe next =>
      have there := Finset.mem_of_mem_erase (Finset.mem_of_min second)
      exact Nat.sub_le_sub_right (Finset.min_le_of_eq there least) 1

theorem Kept.applied_mono (kept : Kept config world) (act : Act n) :
    world.applied ≤ (world.step config act).applied := by
  cases step_moved config world act with
  | quiet same | pushed client job same
  | took worker picked state seq job idle chosen taken same | returned worker seq job hand same
  | counted worker seq job hand same => exact Nat.le_of_eq same.applied.symm
  | applied worker seq job hand same =>
    obtain ⟨before, held, _⟩ := kept.busy hand
    obtain ⟨incomplete, _, _⟩ := kept.sound.complete held (kept.named worker _ seq job before)
    rw [same.applied, kept.watermark]
    refine watermark_erase (fun number there => ?_) incomplete
    rw [kept.pushed]
    exact (kept.sound.links.known there).2

variable (reached : Reached config world)
include reached

/-- The depth is the number of jobs pushed and not put away. -/
theorem depth_eq :
    world.depth =
      ((Finset.Icc 1 world.pushed).filter fun seq => .applied seq ∉ world.log).card := by
  rw [reached.kept.depth]
  congr 1
  ext seq
  rw [Finset.mem_filter, Finset.mem_Icc, reached.counted.applied, reached.kept.pushed]
  constructor
  · intro there
    have known := reached.kept.sound.links.known there
    exact ⟨known, fun gone => gone.2 there⟩
  · rintro ⟨known, outstanding⟩
    by_contra gone
    exact outstanding ⟨known, gone⟩

/-- A job that has run and still counts is in the hands of a worker that puts it away. -/
theorem putting_away {seq : Nat} (ran : .finished seq ∈ world.log)
    (outstanding : .applied seq ∉ world.log) :
    ∃ worker stage job, world.workers worker = .busy stage seq job ∧ stage ≠ .running := by
  have done : world.Ran seq := by
    by_contra absent
    exact reached.told.unran seq absent ran
  obtain ⟨known, gone | ⟨worker, stage, job, hand, past⟩⟩ := done
  · exact absurd ((reached.counted.applied seq).mpr ⟨known, gone⟩) outstanding
  refine ⟨worker, stage, job, ?_, past⟩
  cases phase : world.workers worker with
  | busy its number given =>
    rw [phase] at hand
    cases hand
    rfl
  | _ =>
    rw [phase] at hand
    cases hand

/-- The bytes of the jobs that have not run are all counted. -/
theorem bytes_le :
    ∑ seq ∈ (Finset.Icc 1 world.pushed).filter (fun seq => .finished seq ∉ world.log),
      bytesOf world.jobs seq ≤ world.bytes := by
  rw [reached.counted.bytes]
  refine Finset.sum_le_sum_of_subset fun seq there => ?_
  obtain ⟨range, unfinished⟩ := Finset.mem_filter.mp there
  have known : world.Known seq := by
    rw [Finset.mem_Icc, reached.kept.pushed] at range
    exact range
  rw [Finset.mem_sdiff]
  constructor
  · by_contra gone
    exact unfinished (finished_of_ran reached.told ⟨known, Or.inl gone⟩)
  intro paid
  obtain ⟨worker, job, hand⟩ := mem_paid.mp paid
  exact unfinished (finished_of_ran reached.told ⟨known, Or.inr ⟨worker, _, _, hand, by simp⟩⟩)

end World

/-- The barriers of the queue mean what they say, at every moment of every run: the watermark
never falls and everything up to it has run; a `drain` that returns has seen every job pushed
before the call run, a `drain_to` every job up to its mark, and a `wait_while` its flag down
or nothing queued or running, at some moment of the call; the depth is the number of jobs
pushed and not put away, a job that has run and still counts being in the hands of the worker
that puts it away; and the bytes of the jobs that have not run are counted. -/
theorem barriers_keep_their_word (config : Config) (n : Nat) (acts : List (Act n)) :
    let world := Transition.run (World.step config) (World.start n) acts
    (∀ act, world.applied ≤ (world.step config act).applied) ∧
    (∀ seq, 0 < seq → seq ≤ world.applied → .finished seq ∈ world.log) ∧
    (∀ past called mark rest, world.log = past ++ .ended (.drain called mark) :: rest →
      ∀ seq, .pushed seq ∈ past.take called → .finished seq ∈ past) ∧
    (∀ past mark rest, world.log = past ++ .ended (.drainTo mark) :: rest →
      ∀ seq, 0 < seq → seq ≤ mark → .finished seq ∈ past) ∧
    (∀ past called flag rest, world.log = past ++ .ended (.waitWhile called flag) :: rest →
      ∃ moment, called ≤ moment ∧ moment ≤ past.length ∧
        (flagIn (past.take moment) flag = false ∨
          ∀ seq, .pushed seq ∈ past.take moment → .finished seq ∈ past.take moment)) ∧
    (world.depth =
      ((Finset.Icc 1 world.pushed).filter fun seq => .applied seq ∉ world.log).card ∧
      ∀ seq, .finished seq ∈ world.log → .applied seq ∉ world.log →
        ∃ worker stage job, world.workers worker = .busy stage seq job ∧ stage ≠ .running) ∧
    ∑ seq ∈ (Finset.Icc 1 world.pushed).filter (fun seq => .finished seq ∉ world.log),
      World.bytesOf world.jobs seq ≤ world.bytes := by
  intro world
  have reached : World.Reached config world := World.reached_run config acts
  refine ⟨reached.kept.applied_mono, fun seq positive below =>
    World.finished_of_applied reached.kept reached.told positive below, ?_, ?_, ?_,
    ⟨World.depth_eq reached, fun seq ran outstanding => World.putting_away reached ran outstanding⟩,
    World.bytes_le reached⟩
  · intro past called mark rest split
    exact reached.watched.law past _ rest split
  · intro past mark rest split
    exact reached.watched.law past _ rest split
  intro past called flag rest split
  obtain ⟨made, seen⟩ := reached.watched.law past _ rest split
  refine ⟨past.length, made, Nat.le_refl _, ?_⟩
  rw [take_length]
  exact seen

end Lighter.Fs.Apply
