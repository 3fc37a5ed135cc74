import Lighter.Fs.ApplyLinks

/-!
# The queue is sound

The tables and the lanes together, for the jobs pushed so far and the jobs the workers
have taken, and what each of the three locked sections does to them: a push, a look that
takes a job, and a completion.
-/

namespace Lighter.Fs.Apply

open Finset Function State

/-- The lanes hold the jobs that the tables say are ready. -/
structure Sound (config : Config) (jobs : List Job) (taken : Finset Nat) (state : State) :
    Prop where
  links : Links config jobs taken state
  lanes : Lanes config (laneOf config jobs) (laneKeyOf config jobs) (Ready state.slots) taken state

/-- What the loop over a finished job's successors needs of a successor: it waits, nobody
has taken it, and its lane and key are those of its job. -/
def Waits (config : Config) (lane : Nat → Lane) (key : Nat → Nat) (slots : Nat → Option Slot)
    (seq : Nat) : Prop :=
  ∃ slot job, slots seq = some slot ∧ 0 < slot.waiting ∧ slot.job = some job ∧
    lane seq = job.kind.lane config ∧ key seq = slot.laneKey

section Settle

variable {config : Config} {lane : Nat → Lane} {key : Nat → Nat} {taken : Finset Nat}

theorem settle_tables (config : Config) {settled : State × Nat} {next : Nat} {slot : Slot}
    (found : settled.1.slots next = some slot) :
    (settle config settled next).1.slots =
        update settled.1.slots next (some slot.lower) ∧
      (settle config settled next).1.tails = settled.1.tails ∧
      (settle config settled next).1.incomplete = settled.1.incomplete ∧
      (settle config settled next).1.held = settled.1.held := by
  unfold settle
  rw [found]
  dsimp only
  split
  · simp [offer_slots, offer_tails, offer_held, Slot.lower]
  · exact ⟨rfl, rfl, rfl, rfl⟩

/-- One successor: it waits for one less, and at none it is in its lane. -/
theorem settle_lanes {settled : State × Nat} {next : Nat}
    (waits : Waits config lane key settled.1.slots next)
    (lanes : Lanes config lane key (Ready settled.1.slots) taken settled.1) :
    Lanes config lane key (Ready (settle config settled next).1.slots) taken
      (settle config settled next).1 := by
  obtain ⟨slot, job, found, positive, held, itsLane, itsKey⟩ := waits
  have waiting : ¬ Ready settled.1.slots next := by
    rintro ⟨other, again, free, _⟩
    rw [found] at again
    obtain rfl := Option.some.inj again
    omega
  unfold settle
  rw [found]
  dsimp only
  have chosen : (slot.job.map fun job => job.kind.lane config).getD .serial = lane next := by
    rw [held, itsLane]
    rfl
  rw [chosen]
  -- Nobody else's readiness changes.
  have others : ∀ other, other ≠ next →
      (Ready (update settled.1.slots next (some slot.lower)) other ↔
        Ready settled.1.slots other) := by
    intro other differs
    simp [Ready, update_of_ne differs]
  have here : Ready (update settled.1.slots next (some slot.lower)) next ↔
      slot.waiting - 1 = 0 := by
    simp [Ready, Slot.lower, held]
  have frame : Lanes config lane key (Ready settled.1.slots) taken
      { settled.1 with slots := update settled.1.slots next (some slot.lower) } :=
    lanes.of_eq rfl rfl rfl rfl
  split
  · rename_i free
    have offered := frame.offer waiting
    rw [itsKey] at offered
    refine offered.of_iff (fun other => ?_) (fun _ _ => ⟨rfl, rfl⟩)
    rw [offer_slots]
    by_cases same : other = next
    · subst same
      exact iff_of_true (here.mpr free) (Or.inr rfl)
    · rw [or_iff_left same]
      exact others other same
  · rename_i still
    refine frame.of_iff (fun other => ?_) (fun _ _ => ⟨rfl, rfl⟩)
    by_cases same : other = next
    · subst same
      exact iff_of_false (fun ready => still (here.mp ready)) waiting
    · exact others other same

/-- The loop over a finished job's successors. -/
theorem settle_spec (successors : List Nat) (settled : State × Nat) (once : successors.Nodup)
    (waits : ∀ next ∈ successors, Waits config lane key settled.1.slots next)
    (lanes : Lanes config lane key (Ready settled.1.slots) taken settled.1)
    {after : State × Nat} (result : successors.foldl (settle config) settled = after) :
    (∀ other, after.1.slots other = if other ∈ successors
        then (settled.1.slots other).map Slot.lower else settled.1.slots other) ∧
      after.1.tails = settled.1.tails ∧ after.1.incomplete = settled.1.incomplete ∧
      after.1.held = settled.1.held ∧
      Lanes config lane key (Ready after.1.slots) taken after.1 := by
  induction successors generalizing settled with
  | nil => grind
  | cons next successors ih =>
    obtain ⟨absent, once⟩ := List.nodup_cons.mp once
    have first := waits next List.mem_cons_self
    obtain ⟨slot, _, found, _⟩ := first
    obtain ⟨slots, tails, incomplete, held⟩ := settle_tables config found
    have unchanged : ∀ other, other ≠ next →
        (settle config settled next).1.slots other = settled.1.slots other := by
      intro other differs
      rw [slots, update_of_ne differs]
    have stillWaits : ∀ other ∈ successors,
        Waits config lane key (settle config settled next).1.slots other := by
      intro other there
      unfold Waits
      rw [unchanged other fun same => absent (same ▸ there)]
      exact waits other (List.mem_cons_of_mem _ there)
    obtain ⟨slotsAfter, tailsAfter, incompleteAfter, heldAfter, lanesAfter⟩ :=
      ih _ once stillWaits (settle_lanes (waits next List.mem_cons_self) lanes) result
    refine ⟨fun other => ?_, tailsAfter.trans tails, incompleteAfter.trans incomplete,
      heldAfter.trans held, lanesAfter⟩
    rw [slotsAfter]
    by_cases same : other = next
    · subst same
      rw [if_neg absent, slots, update_self, if_pos List.mem_cons_self, found]
      rfl
    · rw [unchanged other same]
      simp [same]

end Settle
namespace Sound

variable {config : Config} {jobs : List Job} {taken : Finset Nat} {state : State}

theorem start (config : Config) : Sound config [] ∅ State.start := by
  refine ⟨Links.start config, ?_⟩
  refine (Lanes.start config (laneOf config []) (laneKeyOf config [])).of_iff (fun seq => ?_)
    fun _ _ => ⟨rfl, rfl⟩
  simp [Ready, State.start]

/-- A job outside the tables' order, or one taken, is not ready. -/
theorem ready_iff (links : Links config jobs taken state) {seq : Nat} :
    Ready state.slots seq ↔
      seq ∈ state.incomplete ∧ seq ∉ taken ∧ waitedOn state seq = ∅ := by
  constructor
  · rintro ⟨slot, found, free, untaken⟩
    obtain ⟨job, _, slotJob, _⟩ := links.slot seq slot found
    refine ⟨(links.present seq).mpr ⟨slot, found⟩, fun there => ?_, ?_⟩
    · rw [if_pos there] at slotJob
      exact untaken slotJob
    · rw [← card_eq_zero, ← links.waiting seq slot found, free]
  · rintro ⟨there, fresh, free⟩
    obtain ⟨slot, found⟩ := (links.present seq).mp there
    obtain ⟨job, _, slotJob, _⟩ := links.slot seq slot found
    refine ⟨slot, found, ?_, ?_⟩
    · rw [links.waiting seq slot found, free]
      rfl
    · rw [slotJob, if_neg fresh]
      exact Option.some_ne_none job

/-- What is known of a job stays when another is pushed. -/
theorem lane_append (config : Config) {jobs : List Job} (job : Job) {seq : Nat}
    (known : seq ≤ jobs.length) :
    laneOf config (jobs ++ [job]) seq = laneOf config jobs seq ∧
      laneKeyOf config (jobs ++ [job]) seq = laneKeyOf config jobs seq := by
  simp [laneOf, laneKeyOf, nth_append known]

theorem enqueue (sound : Sound config jobs taken state) (job : Job) :
    Sound config (jobs ++ [job]) taken (state.enqueue config (jobs.length + 1) job) := by
  refine ⟨sound.links.enqueue job, ?_⟩
  obtain ⟨behind, slots, _, _, last, others, result⟩ :=
    Links.enqueue_spec config state (jobs.length + 1) job
  have fresh : ¬ Ready state.slots (jobs.length + 1) := by
    intro ready
    have known := (sound.links.known ((ready_iff sound.links).mp ready).1).2
    omega
  have readyOthers : ∀ seq, seq ≠ jobs.length + 1 → (Ready slots seq ↔ Ready state.slots seq) := by
    intro seq differs
    unfold Ready
    rw [others seq differs]
    split
    · simp [Slot.precede]
    · rfl
  have readyLast : Ready slots (jobs.length + 1) ↔ behind.length = 0 := by
    simp [Ready, last]
  have agree : ∀ seq, Ready state.slots seq ∨ seq ∈ taken →
      laneOf config (jobs ++ [job]) seq = laneOf config jobs seq ∧
        laneKeyOf config (jobs ++ [job]) seq = laneKeyOf config jobs seq := by
    rintro seq (ready | there)
    · exact lane_append config job (sound.links.known ((ready_iff sound.links).mp ready).1).2
    · exact lane_append config job (sound.links.known (sound.links.takenPresent seq there)).2
  have itsLane : laneOf config (jobs ++ [job]) (jobs.length + 1) = job.kind.lane config := by
    simp [laneOf, nth_last]
  have itsKey : laneKeyOf config (jobs ++ [job]) (jobs.length + 1) =
      Bounded.keyOf config job.keys (jobs.length + 1) := by
    simp [laneKeyOf, nth_last]
  have before : Lanes config (laneOf config (jobs ++ [job])) (laneKeyOf config (jobs ++ [job]))
      (Ready state.slots) taken { state with
        slots := slots
        tails := job.keys.list.foldl
          (fun tails key => update tails key (some (jobs.length + 1))) state.tails
        incomplete := insert (jobs.length + 1) state.incomplete } :=
    (sound.lanes.of_iff (fun _ => Iff.rfl) agree).of_eq rfl rfl rfl rfl
  rw [result]
  split
  · rename_i free
    have offered := before.offer fresh
    rw [itsLane, itsKey] at offered
    refine offered.of_iff (fun seq => ?_) fun _ _ => ⟨rfl, rfl⟩
    rw [offer_slots]
    by_cases same : seq = jobs.length + 1
    · grind
    · rw [or_iff_left same]
      exact readyOthers seq same
  · rename_i waiting
    refine before.of_iff (fun seq => ?_) fun _ _ => ⟨rfl, rfl⟩
    by_cases same : seq = jobs.length + 1
    · grind
    · exact readyOthers seq same

/-- A look that finds a job takes one that is known and free, and whose predecessors on
each of its keys are all gone. -/
theorem take (sound : Sound config jobs taken state) {picked : State} {seq : Nat}
    (chosen : state.pick config = some (picked, seq)) :
    ∃ after job, picked.take config seq = some (after, job) ∧ nth jobs seq = some job ∧
      seq ∈ state.incomplete ∧ seq ∉ taken ∧
      (∀ key prev, Names jobs key prev → Names jobs key seq → prev < seq →
        prev ∉ state.incomplete) ∧
      after.incomplete = state.incomplete ∧ after.held = state.held ∧
      Sound config jobs (insert seq taken) after := by
  have apart : ∀ seq, Ready state.slots seq → seq ∉ taken := fun seq ready =>
    ((ready_iff sound.links).mp ready).2.1
  obtain ⟨ready, lanes, same⟩ := sound.lanes.pick chosen apart
  obtain ⟨there, fresh, free⟩ := (ready_iff sound.links).mp ready
  have links : Links config jobs taken picked := by
    rw [same]
    exact sound.links.of_eq rfl rfl rfl
  have readyPicked : Ready picked.slots seq := by
    rw [same]
    exact ready
  obtain ⟨after, job, took, named, result, readyAfter, _, linksAfter⟩ := links.take readyPicked
  have itsLane : laneOf config jobs seq = job.kind.lane config := by
    simp [laneOf, named]
  refine ⟨after, job, took, named, there, fresh, fun key prev namesPrev names prior =>
    sound.links.free_ordered free namesPrev names prior, ?_, ?_, linksAfter, ?_⟩
  · rw [result, same]
  · rw [result, same]
  have framed : Lanes config (laneOf config jobs) (laneKeyOf config jobs)
      (fun other => Ready state.slots other ∧ other ≠ seq) (insert seq taken) after := by
    refine lanes.of_eq ?_ ?_ ?_ ?_
    · rw [result]
    · rw [result]
    · rw [result]
    · rw [result, itsLane, same]
  refine framed.of_iff (fun other => ?_) fun _ _ => ⟨rfl, rfl⟩
  rw [readyAfter, same]

/-- While nothing is taken and a job is outstanding, a look finds one. -/
theorem pick_isSome (sound : Sound config jobs ∅ state) (some : state.incomplete.Nonempty) :
    state.pick config ≠ none := by
  -- The oldest one waits for nothing.
  obtain ⟨oldest, there, least⟩ := state.incomplete.exists_min_image id some
  have free : waitedOn state oldest = ∅ := by
    rw [eq_empty_iff_forall_notMem]
    intro prev waits
    obtain ⟨held, follows⟩ := mem_filter.mp waits
    have later := (sound.links.behind prev oldest follows).1
    have smallest := least prev held
    simp only [id_eq] at smallest
    omega
  exact sound.lanes.pick_isSome ((ready_iff sound.links).mpr ⟨there, notMem_empty oldest, free⟩)

theorem complete (sound : Sound config jobs taken state) {seq : Nat} {job : Job}
    (held : seq ∈ taken) (named : nth jobs seq = some job) :
    (state.complete config seq job).1.incomplete = state.incomplete.erase seq ∧
      (state.complete config seq job).1.held = state.held ∧
      Sound config jobs (taken.erase seq) (state.complete config seq job).1 := by
  obtain ⟨slot, found⟩ := (sound.links.present seq).mp (sound.links.takenPresent seq held)
  obtain ⟨its, namedAgain, slotJob, slotKey⟩ := sound.links.slot seq slot found
  rw [named] at namedAgain
  obtain rfl := Option.some.inj namedAgain
  rw [if_pos held] at slotJob
  have itsLane : laneOf config jobs seq = job.kind.lane config := by
    simp [laneOf, named]
  have itsKey : laneKeyOf config jobs seq = slot.laneKey := by
    simp [laneKeyOf, named, slotKey]
  have itsSuccessors : successorsOf state.slots seq = slot.successors := by
    simp [successorsOf, found]
  -- The slot is gone and the lane told; nobody's readiness has changed.
  let slots := update state.slots seq none
  have removed : ∀ other, Ready slots other ↔ Ready state.slots other := by
    intro other
    by_cases same : other = seq
    · subst same
      refine iff_of_false (by simp [slots, Ready]) ?_
      rintro ⟨_, again, _, untaken⟩
      rw [found] at again
      obtain rfl := Option.some.inj again
      exact untaken slotJob
    · simp [slots, Ready, same]
  have left : Lanes config (laneOf config jobs) (laneKeyOf config jobs)
      (Ready slots) (taken.erase seq)
      (State.leave { state with slots } (job.kind.lane config) slot.laneKey) := by
    rw [← itsLane, ← itsKey]
    refine Lanes.leave ?_ held
    exact (sound.lanes.of_iff removed fun _ _ => ⟨rfl, rfl⟩).of_eq rfl rfl rfl rfl
  have waits : ∀ next ∈ slot.successors,
      Waits config (laneOf config jobs) (laneKeyOf config jobs) slots next := by
    intro next there
    rw [← itsSuccessors] at there
    obtain ⟨later, present⟩ := sound.links.behind seq next there
    obtain ⟨nextSlot, nextFound⟩ := (sound.links.present next).mp present
    obtain ⟨nextJob, nextNamed, nextSlotJob, nextKey⟩ := sound.links.slot next nextSlot nextFound
    have behind := sound.links.successor_held there
    have untaken : next ∉ taken := by
      intro inside
      rw [sound.links.takenFree next inside] at behind
      exact absurd behind (notMem_empty seq)
    refine ⟨nextSlot, nextJob, ?_, ?_, ?_, ?_, ?_⟩
    · grind
    · rw [sound.links.waiting next nextSlot nextFound]
      exact card_pos.mpr ⟨seq, behind⟩
    · rw [nextSlotJob, if_neg untaken]
    · simp [laneOf, nextNamed]
    · simp [laneKeyOf, nextNamed, nextKey]
  have once : slot.successors.Nodup := by
    rw [← itsSuccessors]
    exact sound.links.once seq
  generalize settledEq : slot.successors.foldl (State.settle config)
    (State.leave { state with slots } (job.kind.lane config) slot.laneKey, 0) = settled
  have result : (state.complete config seq job).1 = { settled.1 with
      tails := job.keys.list.foldl (State.untail seq) settled.1.tails
      incomplete := settled.1.incomplete.erase seq } := by
    unfold State.complete
    rw [found]
    dsimp only
    rw [settledEq]
  obtain ⟨others, tails, incomplete, heldSame, lanes⟩ := settle_spec slot.successors _ once
    (by rw [State.leave_slots]; exact waits) (by rw [State.leave_slots]; exact left) settledEq
  rw [State.leave_slots] at others
  rw [State.leave_tails] at tails
  rw [State.leave_incomplete] at incomplete
  rw [State.leave_held] at heldSame
  rw [result]
  refine ⟨by rw [incomplete], heldSame, ?_, lanes.of_eq rfl rfl rfl rfl⟩
  refine sound.links.complete held named ?_ (fun other differs => ?_) (fun key => ?_) ?_
  · grind
  · grind
  · dsimp only
    rw [untail_spec, tails]
  · dsimp only
    rw [incomplete]

end Sound
end Lighter.Fs.Apply
