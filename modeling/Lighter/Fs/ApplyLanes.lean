import Lighter.Fs.ApplyQueue

/-!
# The lanes

Which jobs are ready and which are taken is one thing; how the lanes keep them is
another. Each lane holds the ready jobs that are its own, once, and its count, its
running keys and its flag are those of the jobs taken. What the jobs wait for is not
looked at here.
-/

namespace Lighter.Fs.Apply

open List

/-- A queue holds just these, each once. -/
structure Holds (queue : List Nat) (inside : Nat → Prop) : Prop where
  exactly : ∀ seq, seq ∈ queue ↔ inside seq
  once : queue.Nodup

namespace Holds

variable {queue : List Nat} {inside : Nat → Prop} {seq : Nat}

theorem of_iff (holds : Holds queue inside) {others : Nat → Prop}
    (same : ∀ seq, others seq ↔ inside seq) : Holds queue others :=
  ⟨fun seq => (holds.exactly seq).trans (same seq).symm, holds.once⟩

theorem append (holds : Holds queue inside) (fresh : ¬ inside seq) :
    Holds (queue ++ [seq]) (fun other => inside other ∨ other = seq) := by
  constructor
  · intro other
    rw [mem_append, mem_singleton, holds.exactly]
  · have once := holds.once
    have exactly := holds.exactly
    grind

theorem first (holds : Holds (seq :: queue) inside) : inside seq :=
  (holds.exactly seq).mp mem_cons_self

theorem rest (holds : Holds (seq :: queue) inside) :
    Holds queue (fun other => inside other ∧ other ≠ seq) := by
  obtain ⟨absent, once⟩ := nodup_cons.mp holds.once
  refine ⟨fun other => ?_, once⟩
  rw [← holds.exactly, mem_cons]
  constructor
  · grind
  · grind

end Holds

namespace Bounded

/-- The bounded lane holds its ready jobs by key and accounts for its taken ones: no two of
them share a key, and a key waits to be picked when it has a ready job and no taken one. -/
structure Keeps (bounded : Bounded) (width : Nat) (key : Nat → Nat) (inside : Nat → Prop)
    (taken : Finset Nat) : Prop where
  queued : ∀ dir, Holds (bounded.byKey dir) (fun seq => inside seq ∧ key seq = dir)
  listed : Holds bounded.readyKeys
    (fun dir => bounded.byKey dir ≠ [] ∧ bounded.running dir = false)
  running : ∀ dir, bounded.running dir = true ↔ ∃ seq ∈ taken, key seq = dir
  alone : ∀ first ∈ taken, ∀ second ∈ taken, key first = key second → first = second
  count : bounded.count = taken.card
  within : bounded.count ≤ width

namespace Keeps

variable {bounded : Bounded} {width : Nat} {key : Nat → Nat} {inside : Nat → Prop}
  {taken : Finset Nat}

theorem default (width : Nat) (key : Nat → Nat) :
    Bounded.default.Keeps width key (fun _ => False) ∅ := by
  refine ⟨fun dir => ⟨?_, nodup_nil⟩, ⟨?_, nodup_nil⟩, ?_, ?_, rfl, Nat.zero_le _⟩
  · simp [Bounded.default]
  · simp [Bounded.default]
  · simp [Bounded.default]
  · simp

section

variable (keeps : bounded.Keeps width key inside taken)
include keeps

variable {seq : Nat}

theorem of_iff {key' : Nat → Nat} {others : Nat → Prop} (same : ∀ seq, others seq ↔ inside seq)
    (keyReady : ∀ seq, inside seq → key' seq = key seq)
    (keyTaken : ∀ seq ∈ taken, key' seq = key seq) : bounded.Keeps width key' others taken := by
  refine ⟨fun dir => (keeps.queued dir).of_iff fun seq => ?_, keeps.listed, fun dir => ?_, ?_,
    keeps.count, keeps.within⟩
  · grind
  · have running := keeps.running
    grind
  · have alone := keeps.alone
    grind

theorem offer (fresh : ¬ inside seq) :
    (bounded.offer (key seq) seq).Keeps width key (fun other => inside other ∨ other = seq)
      taken := by
  have first : (bounded.byKey (key seq) ++ [seq]).length = 1 ↔ bounded.byKey (key seq) = [] := by
    rw [length_append, length_singleton, Nat.add_eq_right, length_eq_zero_iff]
  refine { keeps with queued := fun dir => ?_, listed := ?_ }
  · by_cases same : dir = key seq
    · subst same
      have absent : ¬ (inside seq ∧ key seq = key seq) := fun there => fresh there.1
      have more := (keeps.queued (key seq)).append absent
      simp only [Bounded.offer, Function.update_self]
      refine more.of_iff fun other => ?_
      constructor
      · grind
      · grind
    · simp only [Bounded.offer, Function.update_of_ne same]
      refine (keeps.queued dir).of_iff fun other => ?_
      constructor
      · grind
      · exact fun ⟨there, keyed⟩ => ⟨Or.inl there, keyed⟩
  · -- The key is listed now if this is its first ready job and none of its is running.
    have others : ∀ dir, dir ≠ key seq → (bounded.offer (key seq) seq).byKey dir =
        bounded.byKey dir := fun dir differs => Function.update_of_ne differs _ _
    have here : (bounded.offer (key seq) seq).byKey (key seq) ≠ [] := by
      simp [Bounded.offer]
    have listed : ∀ dir, ((bounded.offer (key seq) seq).byKey dir ≠ [] ∧
        bounded.running dir = false) ↔ ((bounded.byKey dir ≠ [] ∧ bounded.running dir = false) ∨
          dir = key seq ∧ bounded.running dir = false) := by grind
    unfold Bounded.offer at listed ⊢
    dsimp only at listed ⊢
    by_cases new : bounded.byKey (key seq) = [] ∧ bounded.running (key seq) = false
    · rw [if_pos (by simp [new.1, new.2])]
      refine (keeps.listed.append fun there => there.1 new.1).of_iff fun dir => ?_
      rw [listed]
      refine or_congr_right ⟨And.left, ?_⟩
      rintro rfl
      exact ⟨rfl, new.2⟩
    · have listed := keeps.listed
      grind

/-- What is picked was ready, and no job of its key was taken. -/
theorem pick (room : bounded.count < width) {after : Bounded}
    (picked : bounded.pick = some (after, seq)) (apart : ∀ seq, inside seq → seq ∉ taken) :
    inside seq ∧
      after.Keeps width key (fun other => inside other ∧ other ≠ seq) (insert seq taken) := by
  unfold Bounded.pick at picked
  split at picked
  · cases picked
  rename_i dir keys keysEq
  split at picked
  · cases picked
  rename_i oldest queue queueEq
  obtain ⟨rfl, rfl⟩ := Prod.mk.inj (Option.some.inj picked)
  have listed := keeps.listed
  rw [keysEq] at listed
  have queued := keeps.queued dir
  rw [queueEq] at queued
  obtain ⟨ready, keyed⟩ := queued.first
  have idle : ∀ other ∈ taken, key other ≠ dir := fun other there same => by
    have running := (keeps.running dir).mpr ⟨other, there, same⟩
    rw [listed.first.2] at running
    cases running
  refine ⟨ready, fun other => ?_, ?_, fun other => ?_, ?_, ?_, room⟩
  · have rest := queued.rest
    have queued := keeps.queued
    grind
  · have rest := listed.rest
    grind
  · have running := keeps.running
    grind
  · have alone := keeps.alone
    grind
  · rw [Finset.card_insert_of_notMem (apart oldest ready), keeps.count]

/-- A lane with a key to pick from gives a job. -/
theorem pick_isSome (nonempty : bounded.readyKeys ≠ []) : bounded.pick ≠ none := by
  unfold Bounded.pick
  split
  · rename_i empty
    exact absurd empty nonempty
  rename_i dir keys found
  have listed := keeps.listed
  rw [found] at listed
  split
  · rename_i empty
    exact absurd empty listed.first.1
  · exact Option.some_ne_none _

theorem finished (there : seq ∈ taken) :
    (bounded.finished (key seq)).Keeps width key inside (taken.erase seq) := by
  have busy : bounded.running (key seq) = true := (keeps.running _).mpr ⟨seq, there, rfl⟩
  have gone : ∀ other ∈ taken.erase seq, key other ≠ key seq := fun other inside same =>
    (Finset.mem_erase.mp inside).1 (keeps.alone other (Finset.mem_erase.mp inside).2 seq there same)
  refine ⟨keeps.queued, ?_, fun dir => ?_, fun first inFirst second inSecond => ?_, ?_, ?_⟩
  · have listed : ∀ dir, (bounded.byKey dir ≠ [] ∧
        Function.update bounded.running (key seq) false dir = false) ↔
          ((bounded.byKey dir ≠ [] ∧ bounded.running dir = false) ∨
            dir = key seq ∧ bounded.byKey dir ≠ []) := by
      intro dir
      by_cases same : dir = key seq
      · simp [same, busy]
      · simp [same]
    unfold Bounded.finished
    split
    · rename_i more
      have absent : ¬ (bounded.byKey (key seq) ≠ [] ∧ bounded.running (key seq) = false) := by
        rw [busy]
        exact fun listed => Bool.noConfusion listed.2
      refine (keeps.listed.append absent).of_iff fun dir => ?_
      rw [listed]
      refine or_congr_right ⟨And.left, ?_⟩
      rintro rfl
      exact ⟨rfl, more⟩
    · have listed := keeps.listed
      grind
  · unfold Bounded.finished
    by_cases same : dir = key seq
    · grind
    · have running := keeps.running
      grind
  · have alone := keeps.alone
    grind
  · rw [Finset.card_erase_of_mem there, ← keeps.count]
    rfl
  · exact Nat.le_trans (Nat.sub_le _ _) keeps.within

end

end Keeps
end Bounded

/-- The lanes hold the ready jobs and account for the taken ones. -/
structure Lanes (config : Config) (lane : Nat → Lane) (key : Nat → Nat) (isReady : Nat → Prop)
    (taken : Finset Nat) (state : State) : Prop where
  serial : Holds state.ready (fun seq => isReady seq ∧ lane seq = .serial)
  wide : Holds state.readyClones (fun seq => isReady seq ∧ lane seq = .wide)
  bounded : state.bounded.Keeps config.createWidth key
    (fun seq => isReady seq ∧ lane seq = .bounded) (taken.filter fun seq => lane seq = .bounded)
  serialRunning : state.serialRunning = true ↔ ∃ seq ∈ taken, lane seq = .serial
  serialAlone : ∀ first ∈ taken, ∀ second ∈ taken, lane first = .serial →
    lane second = .serial → first = second

namespace Lanes

variable {config : Config} {lane : Nat → Lane} {key : Nat → Nat} {isReady : Nat → Prop} {seq : Nat}
  {taken : Finset Nat} {state : State}

theorem start (config : Config) (lane : Nat → Lane) (key : Nat → Nat) :
    Lanes config lane key (fun _ => False) ∅ State.start := by
  refine ⟨⟨by simp [State.start], nodup_nil⟩, ⟨by simp [State.start], nodup_nil⟩, ?_,
    by simp [State.start], by simp⟩
  exact (Bounded.Keeps.default config.createWidth key).of_iff (by simp) (by simp) (by simp)

variable (lanes : Lanes config lane key isReady taken state)
include lanes

/-- Only the ready jobs matter, and the lanes and keys of the jobs ready or taken. -/
theorem of_iff {lane' : Nat → Lane}
    {key' : Nat → Nat} {others : Nat → Prop} (same : ∀ seq, others seq ↔ isReady seq)
    (agree : ∀ seq, isReady seq ∨ seq ∈ taken → lane' seq = lane seq ∧ key' seq = key seq) :
    Lanes config lane' key' others taken state := by
  have ready : ∀ wanted seq,
      (others seq ∧ lane' seq = wanted) ↔ (isReady seq ∧ lane seq = wanted) := by grind
  have held : ∀ seq ∈ taken, lane' seq = lane seq := fun seq there =>
    (agree seq (Or.inr there)).1
  refine ⟨lanes.serial.of_iff (ready _), lanes.wide.of_iff (ready _), ?_, ?_, ?_⟩
  · have filtered : (taken.filter fun seq => lane' seq = .bounded) =
        taken.filter fun seq => lane seq = .bounded :=
      Finset.filter_congr fun seq there => by rw [held seq there]
    rw [filtered]
    exact lanes.bounded.of_iff (ready _) (fun seq there => (agree seq (Or.inl there.1)).2)
      fun seq there => (agree seq (Or.inr (Finset.mem_filter.mp there).1)).2
  · have serialRunning := lanes.serialRunning
    grind
  · have serialAlone := lanes.serialAlone
    grind

/-- The tables are nothing to the lanes. -/
theorem of_eq {after : State}
    (ready : after.ready = state.ready) (clones : after.readyClones = state.readyClones)
    (bounded : after.bounded = state.bounded)
    (running : after.serialRunning = state.serialRunning) :
    Lanes config lane key isReady taken after := by
  constructor
  · rw [ready]
    exact lanes.serial
  · rw [clones]
    exact lanes.wide
  · rw [bounded]
    exact lanes.bounded
  · rw [running]
    exact lanes.serialRunning
  · exact lanes.serialAlone

/-- A job that has become ready goes to its lane. -/
theorem offer (fresh : ¬ isReady seq) :
    Lanes config lane key (fun other => isReady other ∨ other = seq) taken
      (state.offer (lane seq) (key seq) seq) := by
  have joined : ∀ wanted, lane seq = wanted → ∀ other,
      ((isReady other ∨ other = seq) ∧ lane other = wanted) ↔
        ((isReady other ∧ lane other = wanted) ∨ other = seq) := by grind
  have unmoved : ∀ wanted, lane seq ≠ wanted → ∀ other,
      ((isReady other ∨ other = seq) ∧ lane other = wanted) ↔
        (isReady other ∧ lane other = wanted) := by grind
  have absent : ∀ wanted, ¬ (isReady seq ∧ lane seq = wanted) := fun wanted there =>
    fresh there.1
  cases its : lane seq with
  | serial =>
    refine ⟨(lanes.serial.append (absent _)).of_iff (joined _ its),
      lanes.wide.of_iff (unmoved _ (by simp [its])), ?_, lanes.serialRunning, lanes.serialAlone⟩
    exact lanes.bounded.of_iff (unmoved _ (by simp [its])) (fun _ _ => rfl) fun _ _ => rfl
  | wide =>
    refine ⟨lanes.serial.of_iff (unmoved _ (by simp [its])),
      (lanes.wide.append (absent _)).of_iff (joined _ its), ?_, lanes.serialRunning,
      lanes.serialAlone⟩
    exact lanes.bounded.of_iff (unmoved _ (by simp [its])) (fun _ _ => rfl) fun _ _ => rfl
  | bounded =>
    refine ⟨lanes.serial.of_iff (unmoved _ (by simp [its])),
      lanes.wide.of_iff (unmoved _ (by simp [its])), ?_, lanes.serialRunning, lanes.serialAlone⟩
    exact (lanes.bounded.offer (absent _)).of_iff (joined _ its) (fun _ _ => rfl) fun _ _ => rfl

omit lanes

/-- A job taken from its lane: the other lanes hold what they held. -/
theorem remove_iff {wanted : Lane} (differs : lane seq ≠ wanted) (other : Nat) :
    ((isReady other ∧ other ≠ seq) ∧ lane other = wanted) ↔
      (isReady other ∧ lane other = wanted) := by
  rw [and_right_comm, and_iff_left_iff_imp]
  rintro ⟨_, same⟩ rfl
  exact differs same

variable (lanes : Lanes config lane key isReady taken state)
include lanes

/-- A job of another lane is nothing to the bounded lane. -/
theorem bounded_aside (differs : lane seq ≠ .bounded) : state.bounded.Keeps config.createWidth key
      (fun other => (isReady other ∧ other ≠ seq) ∧ lane other = .bounded)
      ((insert seq taken).filter fun other => lane other = .bounded) := by
  rw [Finset.filter_insert, if_neg differs]
  exact lanes.bounded.of_iff (remove_iff differs) (fun _ _ => rfl) fun _ _ => rfl

/-- A job of another lane is nothing to the flag of the serial lane. -/
theorem serial_aside (differs : lane seq ≠ .serial) :
    ((if lane seq = .serial then true else state.serialRunning) = true ↔
        ∃ other ∈ insert seq taken, lane other = .serial) ∧
      ∀ first ∈ insert seq taken, ∀ second ∈ insert seq taken, lane first = .serial →
        lane second = .serial → first = second := by
  have held : ∀ other ∈ insert seq taken, lane other = .serial → other ∈ taken := by grind
  constructor
  · have serialRunning := lanes.serialRunning
    grind
  · have serialAlone := lanes.serialAlone
    grind

/-- What is picked was ready; with the flag of the serial lane up it is accounted for. -/
theorem pick {after : State}
    (picked : state.pick config = some (after, seq)) (apart : ∀ seq, isReady seq → seq ∉ taken) :
    isReady seq ∧
      Lanes config lane key (fun other => isReady other ∧ other ≠ seq) (insert seq taken)
        { after with serialRunning := if lane seq = .serial then true else state.serialRunning } ∧
      after = { state with
        ready := after.ready, readyClones := after.readyClones, bounded := after.bounded } := by
  unfold State.pick at picked
  split at picked
  · -- The serial lane, with nothing of it taken.
    rename_i chosen
    obtain ⟨idle, _⟩ := Bool.and_eq_true_iff.mp chosen
    have free : ∀ other ∈ taken, lane other ≠ .serial := fun other there same => by
      rw [lanes.serialRunning.mpr ⟨other, there, same⟩] at idle
      cases idle
    split at picked
    · cases picked
    rename_i oldest rest found
    obtain ⟨rfl, rfl⟩ := Prod.mk.inj (Option.some.inj picked)
    have serial := lanes.serial
    rw [found] at serial
    obtain ⟨ready, its⟩ := serial.first
    refine ⟨ready, ⟨serial.rest.of_iff fun other => and_right_comm,
      lanes.wide.of_iff (remove_iff (by simp [its])), lanes.bounded_aside (by simp [its]), ?_, ?_⟩,
      rfl⟩
    · simp [its]
    · grind
  · split at picked
    · -- The bounded lane, within its width.
      rename_i chosen
      obtain ⟨room, _⟩ := Bool.and_eq_true_iff.mp chosen
      obtain ⟨⟨bounded, oldest⟩, found, result⟩ := Option.map_eq_some_iff.mp picked
      obtain ⟨rfl, rfl⟩ := Prod.mk.inj result
      obtain ⟨⟨ready, its⟩, keeps⟩ := lanes.bounded.pick (of_decide_eq_true room) found
        fun seq there inside => apart seq there.1 (Finset.mem_filter.mp inside).1
      obtain ⟨flag, alone⟩ := lanes.serial_aside (show lane oldest ≠ .serial by simp [its])
      refine ⟨ready, ⟨lanes.serial.of_iff (remove_iff (by simp [its])),
        lanes.wide.of_iff (remove_iff (by simp [its])), ?_, flag, alone⟩, rfl⟩
      rw [Finset.filter_insert, if_pos its]
      exact keeps.of_iff (fun other => and_right_comm) (fun _ _ => rfl) fun _ _ => rfl
    · -- The oldest clone.
      split at picked
      · cases picked
      rename_i oldest rest found
      obtain ⟨rfl, rfl⟩ := Prod.mk.inj (Option.some.inj picked)
      have wide := lanes.wide
      rw [found] at wide
      obtain ⟨ready, its⟩ := wide.first
      obtain ⟨flag, alone⟩ := lanes.serial_aside (show lane oldest ≠ .serial by simp [its])
      exact ⟨ready, ⟨lanes.serial.of_iff (remove_iff (by simp [its])),
        wide.rest.of_iff fun other => and_right_comm, lanes.bounded_aside (by simp [its]), flag,
        alone⟩, rfl⟩

omit lanes

/-- With nothing taken, a ready job is picked. -/
theorem pick_isSome (lanes : Lanes config lane key isReady ∅ state) (there : isReady seq) :
    state.pick config ≠ none := by
  have idle : state.serialRunning = false := by
    rw [← Bool.not_eq_true, lanes.serialRunning]
    simp
  have free : state.bounded.count = 0 := by
    rw [lanes.bounded.count]
    simp
  have still : ∀ dir, state.bounded.running dir = false := by
    intro dir
    rw [← Bool.not_eq_true, lanes.bounded.running]
    simp
  intro nothing
  unfold State.pick at nothing
  simp only [idle, Bool.not_false, Bool.true_and, free, config.positive, decide_true] at nothing
  split at nothing
  · grind
  rename_i noSerial
  split at nothing
  · rename_i keyed
    rw [Option.map_eq_none_iff] at nothing
    refine lanes.bounded.pick_isSome ?_ nothing
    rintro empty
    rw [empty] at keyed
    cases keyed
  rename_i noKey
  split at nothing
  · rename_i noClone
    cases its : lane seq with
    | serial =>
      have held := (lanes.serial.exactly seq).mpr ⟨there, its⟩
      cases ready : state.ready with
      | nil =>
        rw [ready] at held
        cases held
      | cons first rest =>
        rw [ready] at noSerial
        exact noSerial rfl
    | wide =>
      have held := (lanes.wide.exactly seq).mpr ⟨there, its⟩
      rw [noClone] at held
      cases held
    | bounded =>
      have held := ((lanes.bounded.queued (key seq)).exactly seq).mpr ⟨⟨there, its⟩, rfl⟩
      have listed := (lanes.bounded.listed.exactly (key seq)).mpr ⟨ne_nil_of_mem held, still _⟩
      cases keys : state.bounded.readyKeys with
      | nil =>
        rw [keys] at listed
        cases listed
      | cons first rest =>
        rw [keys] at noKey
        exact noKey rfl
  · cases nothing

/-- A taken job leaves its lane. -/
theorem leave (lanes : Lanes config lane key isReady taken state) (there : seq ∈ taken) :
    Lanes config lane key isReady (taken.erase seq) (state.leave (lane seq) (key seq)) := by
  have serialAlone : ∀ first ∈ taken.erase seq, ∀ second ∈ taken.erase seq,
      lane first = .serial → lane second = .serial → first = second :=
    fun first inFirst second inSecond =>
      lanes.serialAlone first (Finset.mem_of_mem_erase inFirst) second
        (Finset.mem_of_mem_erase inSecond)
  have flag : lane seq ≠ .serial → (state.serialRunning = true ↔
      ∃ other ∈ taken.erase seq, lane other = .serial) := by
    have serialRunning := lanes.serialRunning
    grind
  have filtered : lane seq ≠ .bounded → (taken.erase seq).filter (fun seq => lane seq = .bounded) =
      taken.filter fun seq => lane seq = .bounded := by grind
  cases its : lane seq with
  | serial =>
    refine ⟨lanes.serial, lanes.wide, ?_, ?_, serialAlone⟩
    · rw [filtered (by simp [its])]
      exact lanes.bounded
    simp only [State.leave, Bool.false_eq_true, false_iff]
    rintro ⟨other, inside, same⟩
    exact (Finset.mem_erase.mp inside).1
      (lanes.serialAlone other (Finset.mem_of_mem_erase inside) seq there same its)
  | wide =>
    refine ⟨lanes.serial, lanes.wide, ?_, flag (by simp [its]), serialAlone⟩
    rw [filtered (by simp [its])]
    exact lanes.bounded
  | bounded =>
    refine ⟨lanes.serial, lanes.wide, ?_, flag (by simp [its]), serialAlone⟩
    rw [Finset.filter_erase]
    exact lanes.bounded.finished (Finset.mem_filter.mpr ⟨there, its⟩)

end Lanes
end Lighter.Fs.Apply
