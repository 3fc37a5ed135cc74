import Lighter.Fs.ApplyLanes

/-!
# Who waits for whom

The jobs ever pushed are numbered from one. A job waits for the last job before it on each
of its keys, if that one is still held, and for no other: the count in its slot is the
number of jobs it is listed behind. That is enough for the order. If the last job before
it on a key is gone, then every earlier one on the key is gone too, since that one could
not start before them.
-/

namespace Lighter.Fs.Apply

open List Finset Function State

/-- The job of a number. -/
def nth (jobs : List Job) : Nat → Option Job
  | 0 => none
  | seq + 1 => jobs[seq]?

theorem nth_append {jobs : List Job} {job : Job} {seq : Nat} (old : seq ≤ jobs.length) :
    nth (jobs ++ [job]) seq = nth jobs seq := by
  cases seq with
  | zero => rfl
  | succ seq => exact List.getElem?_append_left old

theorem nth_last (jobs : List Job) (job : Job) : nth (jobs ++ [job]) (jobs.length + 1) = some job :=
  List.getElem?_concat_length

variable {jobs : List Job}

theorem nth_le {job : Job} {seq : Nat} (found : nth jobs seq = some job) :
    0 < seq ∧ seq ≤ jobs.length := by
  cases seq with
  | zero => cases found
  | succ seq =>
    obtain ⟨inside, _⟩ := List.getElem?_eq_some_iff.mp found
    exact ⟨Nat.succ_pos seq, inside⟩

def laneOf (config : Config) (jobs : List Job) (seq : Nat) : Lane :=
  ((nth jobs seq).map fun job => job.kind.lane config).getD .serial

def laneKeyOf (config : Config) (jobs : List Job) (seq : Nat) : Nat :=
  ((nth jobs seq).map fun job => Bounded.keyOf config job.keys seq).getD 0

/-- A job touches an inode. -/
def Names (jobs : List Job) (key seq : Nat) : Prop :=
  ∃ job, nth jobs seq = some job ∧ key ∈ job.keys.list

theorem Names.le {key seq : Nat} (names : Names jobs key seq) : seq ≤ jobs.length := by
  obtain ⟨job, found, _⟩ := names
  exact (nth_le found).2

theorem names_append {job : Job} {key seq : Nat} :
    Names (jobs ++ [job]) key seq ↔
      Names jobs key seq ∨ seq = jobs.length + 1 ∧ key ∈ job.keys.list := by
  constructor
  · rintro ⟨other, found, touched⟩
    have known := (nth_le found).2
    rw [length_append, length_singleton] at known
    rcases Nat.lt_or_eq_of_le known with old | rfl
    · rw [nth_append (Nat.le_of_lt_succ old)] at found
      exact Or.inl ⟨other, found, touched⟩
    · grind [nth_last]
  · rintro (⟨other, found, touched⟩ | ⟨rfl, touched⟩)
    · exact ⟨other, (nth_append (nth_le found).2).trans found, touched⟩
    · exact ⟨job, nth_last jobs job, touched⟩

/-- The jobs listed behind a job. -/
def successorsOf (slots : Nat → Option Slot) (seq : Nat) : List Nat :=
  ((slots seq).map Slot.successors).getD []

/-- The jobs a job waits for. -/
def waitedOn (state : State) (seq : Nat) : Finset Nat :=
  state.incomplete.filter fun prev => seq ∈ successorsOf state.slots prev

/-- Waiting for nothing, and not taken yet. -/
def Ready (slots : Nat → Option Slot) (seq : Nat) : Prop :=
  ∃ slot, slots seq = some slot ∧ slot.waiting = 0 ∧ slot.job ≠ none

/-- The tables agree with the jobs pushed, those taken and those still outstanding. -/
structure Links (config : Config) (jobs : List Job) (taken : Finset Nat) (state : State) :
    Prop where
  present : ∀ seq, seq ∈ state.incomplete ↔ ∃ slot, state.slots seq = some slot
  slot : ∀ seq slot, state.slots seq = some slot → ∃ job, nth jobs seq = some job ∧
    slot.job = (if seq ∈ taken then none else some job) ∧
    slot.laneKey = Bounded.keyOf config job.keys seq
  takenPresent : ∀ seq ∈ taken, seq ∈ state.incomplete
  takenFree : ∀ seq ∈ taken, waitedOn state seq = ∅
  once : ∀ prev, (successorsOf state.slots prev).Nodup
  behind : ∀ prev, ∀ seq ∈ successorsOf state.slots prev, prev < seq ∧ seq ∈ state.incomplete
  waiting : ∀ seq slot, state.slots seq = some slot → slot.waiting = (waitedOn state seq).card
  tails : ∀ key prev, state.tails key = some prev ↔
    prev ∈ state.incomplete ∧ Names jobs key prev ∧ ∀ later, Names jobs key later → later ≤ prev
  /-- A job is listed behind the last one before it on each of its keys. -/
  linked : ∀ key prev seq, prev ∈ state.incomplete → prev < seq → Names jobs key prev →
    Names jobs key seq → (∀ between, Names jobs key between → between < seq → between ≤ prev) →
    seq ∈ successorsOf state.slots prev
  /-- What is taken or gone has nothing outstanding before it on any of its keys. -/
  ordered : ∀ key prev seq, Names jobs key prev → Names jobs key seq → prev < seq →
    seq ∈ taken ∨ seq ∉ state.incomplete → prev ∉ state.incomplete

/-- One wait less. -/
def Slot.lower (slot : Slot) : Slot := { slot with waiting := slot.waiting - 1 }

/-- A job listed behind one more. -/
def Slot.precede (slot : Slot) (seq : Nat) : Slot :=
  { slot with successors := slot.successors ++ [seq] }

/-- The loop over a new job's keys puts it behind the job each of them ends in, once. -/
theorem link_spec (tails : Nat → Option Nat) (seq : Nat) (slots : Nat → Option Slot)
    (keys : List Nat) {linked : (Nat → Option Slot) × List Nat}
    (result : keys.foldl (link tails seq) (slots, []) = linked) :
    linked.2.Nodup ∧ (∀ prev, prev ∈ linked.2 ↔ ∃ key ∈ keys, tails key = some prev) ∧
      ∀ prev, linked.1 prev =
        if prev ∈ linked.2 then (slots prev).map (Slot.precede · seq) else slots prev := by
  induction keys using List.reverseRecOn generalizing linked with
  | nil =>
    obtain rfl := result
    simp
  | append_singleton keys key ih =>
    rw [foldl_append, foldl_cons, foldl_nil] at result
    obtain ⟨once, exactly, slotsOf⟩ := ih rfl
    generalize keys.foldl (link tails seq) (slots, []) = before at *
    unfold link at result
    cases found : tails key with
    | none => grind
    | some last =>
      rw [found] at result
      dsimp only at result
      split at result
      · grind
      rename_i new
      obtain rfl := result
      refine ⟨?_, fun prev => ?_, fun prev => ?_⟩
      · grind
      · simp [exactly, or_and_right, exists_or, found, eq_comm]
      by_cases same : prev = last
      · subst same
        simp [follow, slotsOf, new, Slot.precede]
      · simp [follow, slotsOf, same]

theorem tails_spec (seq : Nat) (keys : List Nat) (tails : Nat → Option Nat) (key : Nat) :
    keys.foldl (fun tails key => update tails key (some seq)) tails key =
      if key ∈ keys then some seq else tails key := by
  induction keys using List.reverseRecOn with
  | nil => simp
  | append_singleton keys last ih =>
    rw [foldl_append, foldl_cons, foldl_nil]
    by_cases same : key = last
    · simp [same]
    · grind

theorem untail_apply (seq : Nat) (tails : Nat → Option Nat) (last key : Nat) :
    untail seq tails last key =
      if key = last ∧ tails key = some seq then none else tails key := by
  unfold untail
  by_cases same : key = last
  · grind
  · by_cases points : tails last = some seq <;> simp [points, same]

theorem untail_spec (seq : Nat) (keys : List Nat) (tails : Nat → Option Nat) (key : Nat) :
    keys.foldl (untail seq) tails key =
      if key ∈ keys ∧ tails key = some seq then none else tails key := by
  induction keys generalizing tails with
  | nil => simp
  | cons last keys ih =>
    rw [foldl_cons, ih, untail_apply]
    by_cases points : tails key = some seq
    · by_cases same : key = last <;> simp [points, same]
    · simp [points]

namespace Links

variable {config : Config} {jobs : List Job} {taken : Finset Nat} {state : State}

theorem start (config : Config) : Links config [] ∅ State.start := by
  have unnamed : ∀ key seq, ¬ Names [] key seq := by
    rintro key seq ⟨job, found, _⟩
    have bounds := nth_le found
    simp only [length_nil] at bounds
    omega
  constructor
  · simp [State.start]
  · simp [State.start]
  · simp
  · simp
  · simp [State.start, successorsOf]
  · simp [State.start, successorsOf]
  · simp [State.start]
  · simp [State.start]
  · simp [State.start]
  · exact fun key prev seq names => absurd names (unnamed key prev)

variable (links : Links config jobs taken state)
include links

theorem known {seq : Nat} (there : seq ∈ state.incomplete) : 0 < seq ∧ seq ≤ jobs.length := by
  obtain ⟨slot, found⟩ := (links.present seq).mp there
  obtain ⟨job, named, _⟩ := links.slot seq slot found
  exact nth_le named

/-- A job that waits for nothing has nothing outstanding before it on any of its keys. -/
theorem free_ordered {key prev seq : Nat}
    (free : waitedOn state seq = ∅) (namesPrev : Names jobs key prev) (names : Names jobs key seq)
    (prior : prev < seq) : prev ∉ state.incomplete := by
  intro there
  -- The last job before it on the key: it is gone, and so are those before that one.
  classical
  let before := (Finset.range seq).filter fun other => Names jobs key other
  have nonempty : before.Nonempty :=
    ⟨prev, Finset.mem_filter.mpr ⟨Finset.mem_range.mpr prior, namesPrev⟩⟩
  obtain ⟨last, inside, most⟩ := before.exists_max_image id nonempty
  obtain ⟨below, namesLast⟩ := Finset.mem_filter.mp inside
  have direct : ∀ between, Names jobs key between → between < seq → between ≤ last :=
    fun between named smaller =>
      most between (Finset.mem_filter.mpr ⟨Finset.mem_range.mpr smaller, named⟩)
  have gone : last ∉ state.incomplete := by
    intro held
    have follows :=
      links.linked key last seq held (Finset.mem_range.mp below) namesLast names direct
    have waits : last ∈ waitedOn state seq := Finset.mem_filter.mpr ⟨held, follows⟩
    rw [free] at waits
    exact absurd waits (Finset.notMem_empty last)
  rcases Nat.lt_or_eq_of_le (direct prev namesPrev prior) with less | rfl
  · exact links.ordered key prev last namesPrev namesLast less (Or.inr gone) there
  · exact gone there

/-- Only the slots, what is listed behind each, the tails and the outstanding numbers
matter. -/
theorem of_eq {after : State}
    (slots : after.slots = state.slots) (tails : after.tails = state.tails)
    (incomplete : after.incomplete = state.incomplete) : Links config jobs taken after := by
  have waited : ∀ seq, waitedOn after seq = waitedOn state seq := by
    intro seq
    rw [waitedOn, incomplete, slots]
    rfl
  obtain ⟨found, slot, takenPresent, takenFree, once, behind, waiting, ends, linked, ordered⟩ :=
    links
  constructor <;> simp only [waited, incomplete, slots, tails] <;> assumption

/-- A new job in the tables, listed behind the last job on each of its keys. -/
theorem queued (job : Job) {behind : List Nat} (once : behind.Nodup)
    (exactly : ∀ prev, prev ∈ behind ↔ ∃ key ∈ job.keys.list, state.tails key = some prev)
    {after : State}
    (last : after.slots (jobs.length + 1) =
      some ⟨some job, behind.length, [], Bounded.keyOf config job.keys (jobs.length + 1)⟩)
    (others : ∀ other, other ≠ jobs.length + 1 → after.slots other = if other ∈ behind
      then (state.slots other).map (Slot.precede · (jobs.length + 1)) else state.slots other)
    (tails : ∀ key, after.tails key =
      if key ∈ job.keys.list then some (jobs.length + 1) else state.tails key)
    (incomplete : after.incomplete = insert (jobs.length + 1) state.incomplete) :
    Links config (jobs ++ [job]) taken after := by
  have new : ∀ {seq}, seq ∈ state.incomplete → seq ≠ jobs.length + 1 := by
    intro seq there same
    have := (links.known there).2
    omega
  have absent : state.slots (jobs.length + 1) = none := by
    by_contra held
    obtain ⟨slot, found⟩ := Option.ne_none_iff_exists'.mp held
    exact new ((links.present _).mpr ⟨slot, found⟩) rfl
  have linkedHeld : ∀ prev ∈ behind, prev ∈ state.incomplete := by
    have tails := links.tails
    grind
  have unlinked : jobs.length + 1 ∉ behind := fun there => new (linkedHeld _ there) rfl
  have successors : ∀ prev, successorsOf after.slots prev = if prev ∈ behind then
      successorsOf state.slots prev ++ [jobs.length + 1] else successorsOf state.slots prev := by
    intro prev
    have found := (links.present prev).mp
    by_cases differs : prev = jobs.length + 1 <;> grind [successorsOf, Slot.precede]
  have follows : ∀ prev seq, seq ∈ successorsOf after.slots prev ↔
      seq ∈ successorsOf state.slots prev ∨ prev ∈ behind ∧ seq = jobs.length + 1 := by
    grind
  have oldWaited : ∀ seq, seq ≠ jobs.length + 1 → waitedOn after seq = waitedOn state seq := by
    intro seq differs
    ext prev
    grind [waitedOn, successorsOf]
  have newWaited : waitedOn after (jobs.length + 1) = behind.toFinset := by
    ext prev
    have before := links.behind prev
    simp only [waitedOn, incomplete, follows, mem_toFinset]
    grind
  have known := @links.known
  have last_named := nth_last jobs job
  have named : ∀ {key seq}, Names (jobs ++ [job]) key seq ↔
      Names jobs key seq ∨ seq = jobs.length + 1 ∧ key ∈ job.keys.list := names_append
  obtain ⟨present, slotOf, takenPresent, takenFree, once', before, waiting, ends, linked,
    ordered⟩ := links
  constructor
  case waiting =>
    intro seq slot found
    by_cases differs : seq = jobs.length + 1
    · subst differs
      rw [newWaited, toFinset_card_of_nodup once]
      grind
    · rw [oldWaited seq differs]
      grind [Slot.precede]
  case present => grind
  case slot => grind [Slot.precede, nth_append, nth_le]
  case takenPresent => grind
  case takenFree => grind
  case once => grind
  case behind => grind
  case tails => grind [Names.le]
  case linked => grind [Names.le]
  case ordered => grind [Names.le]

omit links

/-- A new job is put behind the job each of its keys ends in, once; behind none it goes to
its lane. -/
theorem enqueue_spec (config : Config) (state : State) (seq : Nat) (job : Job) :
    ∃ (behind : List Nat) (slots : Nat → Option Slot), behind.Nodup ∧
      (∀ prev, prev ∈ behind ↔ ∃ key ∈ job.keys.list, state.tails key = some prev) ∧
      slots seq = some ⟨some job, behind.length, [], Bounded.keyOf config job.keys seq⟩ ∧
      (∀ other, other ≠ seq → slots other = if other ∈ behind
        then (state.slots other).map (Slot.precede · seq) else state.slots other) ∧
      state.enqueue config seq job =
        if behind.length = 0
        then offer { state with
            slots := slots
            tails := job.keys.list.foldl (fun tails key => update tails key (some seq)) state.tails
            incomplete := insert seq state.incomplete }
          (job.kind.lane config) (Bounded.keyOf config job.keys seq) seq
        else { state with
            slots := slots
            tails := job.keys.list.foldl (fun tails key => update tails key (some seq)) state.tails
            incomplete := insert seq state.incomplete } := by
  obtain ⟨once, exactly, slotsOf⟩ := link_spec state.tails seq state.slots job.keys.list rfl
  refine ⟨_, _, once, exactly, update_self _ _ _, fun other differs => ?_, rfl⟩
  rw [update_of_ne differs, slotsOf]

theorem enqueue_incomplete (config : Config) (state : State) (seq : Nat) (job : Job) :
    (state.enqueue config seq job).incomplete = insert seq state.incomplete := by
  obtain ⟨behind, slots, _, _, _, _, result⟩ := enqueue_spec config state seq job
  rw [result]
  split
  · rw [offer_incomplete]
  · rfl

theorem enqueue_held (config : Config) (state : State) (seq : Nat) (job : Job) :
    (state.enqueue config seq job).held = state.held := by
  obtain ⟨behind, slots, _, _, _, _, result⟩ := enqueue_spec config state seq job
  rw [result]
  split
  · rw [offer_held]
  · rfl

variable (links : Links config jobs taken state)
include links

/-- A job that was just pushed is listed behind the last one on each of its keys. -/
theorem enqueue (job : Job) :
    Links config (jobs ++ [job]) taken (state.enqueue config (jobs.length + 1) job) := by
  obtain ⟨behind, slots, once, exactly, last, others, result⟩ :=
    enqueue_spec config state (jobs.length + 1) job
  have queued : Links config (jobs ++ [job]) taken { state with
      slots := slots
      tails := job.keys.list.foldl
        (fun tails key => update tails key (some (jobs.length + 1))) state.tails
      incomplete := insert (jobs.length + 1) state.incomplete } :=
    links.queued job once exactly last others (fun key => tails_spec _ _ _ key) rfl
  rw [result]
  split
  · exact queued.of_eq (offer_slots _ _ _ _) (offer_tails _ _ _ _) (offer_incomplete _ _ _ _)
  · exact queued

/-- A ready job's slot is found whole, and without its job afterwards. -/
theorem take {seq : Nat} (ready : Ready state.slots seq) :
    ∃ after job, state.take config seq = some (after, job) ∧ nth jobs seq = some job ∧
      after = { state with
        slots := after.slots,
        serialRunning := if job.kind.lane config = .serial then true else state.serialRunning } ∧
      (∀ other, Ready after.slots other ↔ Ready state.slots other ∧ other ≠ seq) ∧
      waitedOn state seq = ∅ ∧ Links config jobs (insert seq taken) after := by
  obtain ⟨slot, found, free, untaken⟩ := ready
  obtain ⟨job, held⟩ := Option.ne_none_iff_exists'.mp untaken
  obtain ⟨its, named, slotJob, slotKey⟩ := links.slot seq slot found
  have fresh : seq ∉ taken := by grind
  rw [if_neg fresh, held] at slotJob
  obtain rfl := Option.some.inj slotJob
  have took : state.take config seq = some ({ state with
      slots := Function.update state.slots seq (some { slot with job := none })
      serialRunning := if job.kind.lane config = .serial then true else state.serialRunning },
      job) := by
    unfold State.take
    rw [found]
    dsimp only
    rw [held]
  have unwaiting : waitedOn state seq = ∅ := by
    rw [← Finset.card_eq_zero, ← links.waiting seq slot found, free]
  refine ⟨_, job, took, named, rfl, fun other => ?_, unwaiting, ?_⟩
  · by_cases same : other = seq
    · simp [Ready, same]
    · simp [Ready, same]
  have successors :
      successorsOf (Function.update state.slots seq (some { slot with job := none })) =
        successorsOf state.slots := by
    funext other
    by_cases same : other = seq
    · subst same
      simp [successorsOf, found]
    · simp [successorsOf, same]
  have waited : ∀ other, waitedOn { state with
      slots := Function.update state.slots seq (some { slot with job := none })
      serialRunning := if job.kind.lane config = .serial then true else state.serialRunning }
        other = waitedOn state other := by
    simp [waitedOn, successors]
  have free_ordered := fun key prev => @links.free_ordered _ _ _ _ key prev seq unwaiting
  obtain ⟨present, slotOf, takenPresent, takenFree, once, behind, waiting, ends, linked, ordered⟩ :=
    links
  constructor <;> simp only [waited, successors, Function.update_apply] <;> grind

theorem successor_held {prev seq : Nat}
    (follows : seq ∈ successorsOf state.slots prev) : prev ∈ waitedOn state seq := by
  refine mem_filter.mpr ⟨(links.present prev).mpr ?_, follows⟩
  cases found : state.slots prev with
  | none => simp [successorsOf, found] at follows
  | some slot => exact ⟨slot, rfl⟩

/-- A job that is done leaves the tables, and those behind it wait for one less. -/
theorem complete {seq : Nat} {job : Job}
    (held : seq ∈ taken) (named : nth jobs seq = some job) {after : State}
    (gone : after.slots seq = none)
    (slots : ∀ other, other ≠ seq → after.slots other =
      if other ∈ successorsOf state.slots seq then (state.slots other).map Slot.lower
      else state.slots other)
    (tails : ∀ key, after.tails key = if key ∈ job.keys.list ∧ state.tails key = some seq
      then none else state.tails key) (incomplete : after.incomplete = state.incomplete.erase seq) :
    Links config jobs (taken.erase seq) after := by
  have older : ∀ other slot, after.slots other = some slot → other ≠ seq ∧
      ∃ old, state.slots other = some old ∧ slot.job = old.job ∧
        slot.successors = old.successors ∧ slot.laneKey = old.laneKey ∧
        slot.waiting = if other ∈ successorsOf state.slots seq then old.waiting - 1
          else old.waiting := by
    intro other slot found
    have differs : other ≠ seq := by
      rintro rfl
      rw [gone] at found
      cases found
    refine ⟨differs, ?_⟩
    rw [slots other differs] at found
    split at found
    · rename_i follows
      obtain ⟨old, there, rfl⟩ := Option.map_eq_some_iff.mp found
      exact ⟨old, there, rfl, rfl, rfl, by rw [if_pos follows]; rfl⟩
    · grind
  have successors : ∀ prev, successorsOf after.slots prev =
      if prev = seq then [] else successorsOf state.slots prev := by
    intro prev
    split
    · rename_i same
      rw [same]
      simp [successorsOf, gone]
    rename_i differs
    unfold successorsOf
    rw [slots prev differs]
    split
    · cases state.slots prev <;> rfl
    · rfl
  have waited : ∀ other, waitedOn after other = (waitedOn state other).erase seq := by
    intro other
    ext prev
    simp only [waitedOn, incomplete, mem_erase, successors]
    by_cases same : prev = seq
    · simp [same]
    · simp [same]
  have unfollowed : ∀ prev, seq ∉ successorsOf state.slots prev := by
    intro prev follows
    have waits := links.successor_held follows
    rw [links.takenFree seq held] at waits
    exact absurd waits (notMem_empty prev)
  have fewer : ∀ other slot, after.slots other = some slot →
      slot.waiting = (waitedOn after other).card := by
    intro other slot found
    obtain ⟨differs, old, there, _, _, _, lowered⟩ := older other slot found
    rw [lowered, waited, links.waiting other old there]
    split
    · rename_i follows
      rw [card_erase_of_mem (links.successor_held follows)]
    · rename_i apart
      rw [erase_eq_of_notMem]
      exact fun waits => apart (mem_filter.mp waits).2
  obtain ⟨present, slot, takenPresent, takenFree, once, behind, waiting, ends, linked, ordered⟩ :=
    links
  constructor
  case waiting => exact fewer
  case tails => grind [Names]
  all_goals grind

end Links
end Lighter.Fs.Apply
