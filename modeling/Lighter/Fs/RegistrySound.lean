import Lighter.Fs.Registry
import Lighter.Lib.Transition
import Mathlib.Tactic.Common

/-!
# What the registry keeps

An inode in the table has counted at least the lookups that replies have named it by and the
guest has not given back, and one more while another inode's clone keeps it. Every step of
every thread keeps this: a nodeid is made once, its inode is put in the table once, a `forget`
that takes it out has the lock on the table, and what it then gives back on another's behalf
was counted for that.
-/

namespace Lighter.Fs.Registry

open Function State

/-- The inode a thread has, which it will count a lookup for. -/
def Phase.counts : Phase → Option Nat
  | .checking _ id | .counting id | .comparing _ id | .recounting _ id => some id
  | _ => none

/-- The nodeid a thread has made, whose inode it will put in the table. -/
def Phase.files : Phase → Option Nat
  | .filing _ id => some id
  | _ => none

/-- The inode that a thread will give back a lookup of on another's behalf. -/
def Phase.owes : Phase → Option Nat
  | .releasing id => some id
  | .unmapping _ _ forwarded => forwarded
  | _ => none

def Phase.removes : Phase → Option Nat
  | .removing id => some id
  | _ => none

namespace State

variable {sharding : Sharding} {state : State}

/-- How many lookups an inode is kept by on another's behalf: one, or none. -/
def kept (state : State) (id : Nat) : Nat :=
  match state.owed id with
  | none => 0
  | some _ => 1

structure Sound (sharding : Sharding) (state : State) : Prop where
  unused : ∀ id, state.next ≤ id → state.inodes id = none
  blank : ∀ id, state.inodes id = none → state.named id = 0 ∧ state.owed id = none
  counts : ∀ thread id, (state.threads thread).counts = some id → state.inodes id ≠ none
  files : ∀ thread id, (state.threads thread).files = some id →
    id < state.next ∧ state.inodes id = none
  once : ∀ thread other id, (state.threads thread).files = some id →
    (state.threads other).files = some id → thread = other
  removes : ∀ thread id, (state.threads thread).removes = some id →
    state.tableLock (sharding.shard id) = some thread ∧ state.listed id = true ∧
      ∀ inode, state.inodes id = some inode → inode.lookups = state.since id
  forwards : ∀ id inode next, state.inodes id = some inode → inode.listed = true →
    inode.forwarded = some next → state.owed next = some (.inode id)
  owes : ∀ thread id, (state.threads thread).owes = some id →
    state.owed id = some (.thread thread)
  /-- The lookups an inode has counted are those that are not given back, at least. -/
  enough : ∀ id inode, state.inodes id = some inode → inode.listed = true →
    state.named id + state.kept id ≤ inode.lookups + state.forgotten id

variable (sound : Sound sharding state)
include sound

/-- A thread goes to a place that asks for no more than there is. -/
theorem Sound.setThread {thread : Nat} {phase : Phase}
    (counts : ∀ id, phase.counts = some id → state.inodes id ≠ none)
    (files : ∀ id, phase.files = some id → id < state.next ∧ state.inodes id = none ∧
      ∀ other, other ≠ thread → (state.threads other).files ≠ some id)
    (removes : ∀ id, phase.removes = some id →
      state.tableLock (sharding.shard id) = some thread ∧ state.listed id = true ∧
        ∀ inode, state.inodes id = some inode → inode.lookups = state.since id)
    (owes : ∀ id, phase.owes = some id → state.owed id = some (.thread thread)) :
    Sound sharding (state.setThread thread phase) := by
  obtain ⟨unused, blank, counted, filed, once, removed, forwards, owed, enough⟩ := sound
  constructor <;> simp only [State.setThread, update_apply] <;> grind [State.listed, State.kept]

/-- A thread goes to a place that asks for an inode at most. -/
theorem Sound.toward {thread : Nat} {phase : Phase}
    (counts : ∀ id, phase.counts = some id → state.inodes id ≠ none)
    (files : phase.files = none) (removes : phase.removes = none) (owes : phase.owes = none) :
    Sound sharding (state.setThread thread phase) :=
  sound.setThread counts (by grind) (by grind) (by grind)

theorem Sound.idle (thread : Nat) :
    Sound sharding (state.setThread thread .idle) :=
  sound.toward nofun rfl rfl rfl

/-- What the numbers name, and who has the lock on them, is not asked for. -/
theorem Sound.identity (byIdentity : Key → Option Nat) (identityLock : Nat → Option Nat) :
    Sound sharding { state with byIdentity := byIdentity, identityLock := identityLock } :=
  { sound with }

theorem Sound.unmap (key : Key) (id : Nat) : Sound sharding (state.unmap key id) := by
  unfold State.unmap
  split
  · exact sound.identity _ state.identityLock
  · exact sound

omit sound

theorem listed_of_some {id : Nat} {inode : Inode} (there : state.inodes id = some inode) :
    state.listed id = inode.listed := by
  simp [listed, there]

theorem there_of_listed {id : Nat} (inside : state.listed id = true) : state.inodes id ≠ none := by
  grind [listed]

section

variable (sound : Sound sharding state)
include sound

variable {id : Nat}

theorem Sound.below {inode : Inode} (there : state.inodes id = some inode) : id < state.next := by
  grind [sound.unused id]

/-- One inode changes, with its counts, or a new one is put in the table. -/
theorem Sound.change {changed : Inode} {next : Nat} {named forgotten since : Nat → Nat}
    {owed : Nat → Option Debtor} (later : state.next ≤ next) (below : id < next)
    (unfiled : ∀ thread, (state.threads thread).files ≠ some id)
    (stays : ∀ thread, (state.threads thread).removes = some id →
      changed.listed = true ∧ changed.lookups = since id)
    (others : ∀ other, other ≠ id → named other = state.named other ∧
      since other = state.since other ∧ owed other = state.owed other)
    (more : ∀ other, state.forgotten other ≤ forgotten other)
    (debts : ∀ debtor, state.owed id = some debtor → owed id = some debtor)
    (forwards : ∀ target, changed.listed = true → changed.forwarded = some target →
      owed target = some (.inode id))
    (enough : changed.listed = true → named id + { state with owed := owed }.kept id ≤
      changed.lookups + forgotten id) :
    Sound sharding { state.setInode id changed with
      next := next, named := named, forgotten := forgotten, since := since, owed := owed } := by
  obtain ⟨unused, blank, counted, filed, once, removed, forwarded, owes, sufficient⟩ := sound
  constructor <;> simp only [setInode, listed, kept, update_apply] <;> grind [listed, kept]

/-- An inode that is there already changes, and stays where it is. -/
theorem Sound.tally {inode changed : Inode} {named forgotten since : Nat → Nat}
    (there : state.inodes id = some inode)
    (looked : ∀ thread, (state.threads thread).removes = some id → changed.lookups = since id)
    (others : ∀ other, other ≠ id → named other = state.named other ∧
      since other = state.since other)
    (more : ∀ other, state.forgotten other ≤ forgotten other)
    (listed : changed.listed = inode.listed) (forwarded : changed.forwarded = inode.forwarded)
    (enough : inode.listed = true → named id + state.kept id ≤ changed.lookups + forgotten id) :
    Sound sharding { state.setInode id changed with
      named := named, forgotten := forgotten, since := since } := by
  have owed := sound.forwards id inode
  have files := sound.files
  have removes := sound.removes
  have inside := listed_of_some there
  refine sound.change (Nat.le_refl _) (sound.below there) ?_ ?_
    (fun other apart => ⟨(others other apart).1, (others other apart).2, rfl⟩) more
    (fun _ has => has) ?_ ?_
  · grind
  · grind
  · grind [setInode]
  · intro inside
    exact enough (listed.symm.trans inside)

/-- A new inode is put in the table, with one lookup. -/
theorem Sound.add {key : Key} {pending : Bool} {next : Nat} {named : Nat → Nat}
    {owed : Nat → Option Debtor} (absent : state.inodes id = none)
    (unfiled : ∀ thread, (state.threads thread).files ≠ some id) (later : state.next ≤ next)
    (below : id < next)
    (others : ∀ other, other ≠ id → named other = state.named other ∧ owed other = state.owed other)
    (one : named id + { state with owed := owed }.kept id = 1) :
    Sound sharding { state.setInode id (fresh key pending) with
      next := next, named := named, owed := owed } := by
  have free := (sound.blank id absent).2
  refine sound.change later below unfiled (fun thread removes => ?_)
    (fun other apart => ⟨(others other apart).1, rfl, (others other apart).2⟩)
    (fun _ => Nat.le_refl _) (by grind) nofun fun _ => ?_
  · exact absurd absent (there_of_listed (sound.removes thread id removes).2.1)
  exact Nat.le_trans (Nat.le_of_eq one) (Nat.le_add_right 1 _)

/-- Whose it is to give back a lookup changes, if it was an inode's that is out of the table
or a thread's that is at it. -/
theorem Sound.settle (debtor : Option Debtor) (kept : state.owed id ≠ none)
    (unforwarded : ∀ other inode, state.inodes other = some inode → inode.listed = true →
      inode.forwarded ≠ some id) (unowed : ∀ thread, (state.threads thread).owes ≠ some id) :
    Sound sharding { state with owed := update state.owed id debtor } := by
  obtain ⟨unused, blank, counted, filed, once, removed, forwards, owed, enough⟩ := sound
  constructor <;> simp only [listed, update_apply] <;> grind [listed, kept]

/-- The lock of a shard is taken or let go of, while no thread that removes an inode has it. -/
theorem Sound.setTableLock {shard : Nat} {holder : Option Nat}
    (unused : ∀ thread id, (state.threads thread).removes = some id → sharding.shard id ≠ shard) :
    Sound sharding (state.setTableLock shard holder) :=
  { sound with
    removes := fun thread id has =>
      ⟨(update_of_ne (unused thread id has) _ _).trans (sound.removes thread id has).1,
        (sound.removes thread id has).2⟩ }

/-! ## Every step -/

/-- A lookup is counted. -/
theorem Sound.count (there : state.inodes id ≠ none) : Sound sharding (state.count id) := by
  obtain ⟨inode, has⟩ := Option.ne_none_iff_exists'.mp there
  have before := sound.enough id inode has
  unfold State.count
  rw [has]
  refine sound.tally has (fun thread removes => ?_)
    (fun other apart => ⟨update_of_ne apart _ _, update_of_ne apart _ _⟩)
    (fun _ => Nat.le_refl _) rfl rfl ?_
  · rw [update_self]
    exact congrArg (· + 1) ((sound.removes thread id removes).2.2 inode has)
  · grind

/-- A `forget` gives lookups back. -/
theorem Sound.giveBack {thread count : Nat} (free : state.tableLock (sharding.shard id) = none)
    (spare : ∀ inode, state.inodes id = some inode → inode.listed = true →
      state.named id + state.kept id ≤ inode.lookups - count + state.forgotten id) :
    Sound sharding (state.giveBack sharding thread id count) := by
  unfold State.giveBack
  split
  · exact sound
  split
  · exact sound
  case h_2 inode there =>
    split
    · exact sound
    case isFalse inside =>
      have alone : ∀ other another, (state.threads other).removes = some another →
          sharding.shard another ≠ sharding.shard id := by
        intro other another has same
        have holds := (sound.removes other another has).1
        rw [same, free] at holds
        cases holds
      have counted : Sound sharding
          { state.setInode id { inode with lookups := inode.lookups - count } with
            since := update state.since id 0 } :=
        sound.tally there (fun other has => absurd rfl (alone other id has))
          (fun other apart => ⟨rfl, update_of_ne apart _ _⟩) (fun _ => Nat.le_refl _) rfl rfl
          (spare inode there)
      split
      · exact counted
      refine (counted.setTableLock alone).setThread nofun nofun ?_ nofun
      rintro other same
      cases same
      simp only [State.setTableLock, State.setInode, State.listed, update_self]
      grind

/-- A `forget` that has found the count at zero takes the inode out, or leaves it. -/
theorem Sound.remove {thread : Nat} (inside : state.listed id = true)
    (alone : ∀ other another, (state.threads other).removes = some another →
      sharding.shard another ≠ sharding.shard id) :
    Sound sharding (state.remove sharding thread id) := by
  have unlocked : Sound sharding (state.setTableLock (sharding.shard id) none) :=
    sound.setTableLock alone
  unfold State.remove
  split
  · exact unlocked
  case h_2 inode there =>
    split
    · exact unlocked
    split
    · exact unlocked.tally there (fun other removes => absurd rfl (alone other id removes))
        (fun _ _ => ⟨rfl, rfl⟩) (fun _ => Nat.le_refl _) rfl rfl (sound.enough id inode there)
    rw [listed_of_some there] at inside
    have files := sound.files
    have gone : Sound sharding ((state.setTableLock (sharding.shard id) none).setInode id
        { inode with deferred := false, listed := false }) := by
      refine unlocked.change (Nat.le_refl _) (sound.below there) ?_ ?_
        (fun _ _ => ⟨rfl, rfl, rfl⟩) (fun _ => Nat.le_refl _) (fun _ has => has) nofun nofun
      · simp only [State.setTableLock]
        grind
      · simp only [State.setTableLock]
        grind
    cases forwarded : inode.forwarded with
    | none =>
      rw [forwarded] at gone
      exact gone.toward nofun rfl rfl rfl
    | some next =>
      have owed := sound.forwards id inode next there inside forwarded
      rw [forwarded] at gone
      have settled := gone.settle (some (.thread thread))
        (fun free => absurd (owed.symm.trans free) nofun)
        (by
          intro other value has listed goes
          cases owed.symm.trans (gone.forwards other value next has listed goes)
          simp only [State.setInode, update_self] at has
          grind)
        fun other owes => absurd (owed.symm.trans (gone.owes other next owes)) nofun
      refine settled.setThread nofun nofun nofun ?_
      rintro other same
      cases same
      exact update_self ..

theorem Sound.go (thread : Nat) (same : Bool) : Sound sharding (state.go sharding thread same) := by
  have free := sound.idle thread
  unfold State.go
  cases phase : state.threads thread with
  | idle => exact sound
  | seeking key =>
    dsimp only
    split
    · exact sound
    · split
      · exact free
      · exact free.toward nofun rfl rfl rfl
  | fetching key id =>
    dsimp only
    split
    · exact sound
    split
    case isTrue inside =>
      exact free.toward (by grind [Phase.counts, there_of_listed inside, State.setThread]) rfl rfl
        rfl
    case isFalse => exact free
  | checking key id | comparing key id =>
    have there := sound.counts thread id (by rw [phase]; rfl)
    dsimp only
    split
    · exact free.toward (by grind [Phase.counts, State.setThread]) rfl rfl rfl
    · exact free.toward nofun rfl rfl rfl
  | retiring key id =>
    dsimp only
    split
    · exact sound
    · exact free.unmap key id
  | counting id => exact free.count (sound.counts thread id (by rw [phase]; rfl))
  | entering key =>
    dsimp only
    have locked := free.identity state.byIdentity (update state.identityLock
      (sharding.identityShard key.2) (some thread))
    split
    · exact sound
    · split <;> exact locked.toward nofun rfl rfl rfl
  | finding key id =>
    dsimp only
    split
    · exact sound
    split
    case isTrue inside =>
      exact free.toward (by grind [Phase.counts, there_of_listed inside, State.setThread]) rfl rfl
        rfl
    case isFalse => exact free.toward nofun rfl rfl rfl
  | recounting key id =>
    exact (free.count (sound.counts thread id (by rw [phase]; rfl))).identity _ _
  | minting key =>
    have fresh := sound.unused state.next (Nat.le_refl _)
    have files := free.files
    have minted : Sound sharding { state.setThread thread .idle with next := state.next + 1 } :=
      { free with
        unused := fun id beyond => sound.unused id (Nat.le_of_succ_le beyond)
        files := fun other id has =>
          ⟨Nat.lt_succ_of_lt (files other id has).1, (files other id has).2⟩ }
    have mapped := minted.identity (update state.byIdentity key (some state.next))
      (update state.identityLock (sharding.identityShard key.2) none)
    refine mapped.setThread nofun ?_ nofun nofun
    rintro id has
    cases has
    refine ⟨Nat.lt_succ_self _, fresh, fun other _ filed => ?_⟩
    exact absurd (files other _ filed).1 (Nat.lt_irrefl _)
  | filing key id =>
    obtain ⟨below, absent⟩ := sound.files thread id (by rw [phase]; rfl)
    obtain ⟨unnamed, unowed⟩ := sound.blank id absent
    have once := sound.once
    dsimp only
    split
    · exact sound
    refine free.add absent ?_ (Nat.le_refl _) below ?_ ?_
    · simp only [State.setThread, update_apply]
      grind [Phase.files]
    · intro other apart
      exact ⟨update_of_ne apart _ _, rfl⟩
    · simp [State.kept, State.setThread, State.setInode, unowed, unnamed]
  | naming id =>
    dsimp only
    split
    · exact sound
    · split
      case isTrue inside => exact free.count (there_of_listed inside)
      case isFalse => exact free
  | forgetting id count =>
    let forgotten := update state.forgotten id (state.forgotten id + count)
    have more : ∀ other, state.forgotten other ≤ forgotten other := by
      grind [update_apply]
    dsimp only
    split
    · exact sound
    case isFalse unlocked =>
      have given : Sound sharding { state.setThread thread .idle with forgotten := forgotten } :=
        { free with
          enough := fun other inode there inside => Nat.le_trans
            (free.enough other inode there inside) (Nat.add_le_add_left (more other) _) }
      refine given.giveBack (of_not_not unlocked) fun inode there inside => ?_
      have before : state.named id + state.kept id ≤ inode.lookups + state.forgotten id :=
        sound.enough id inode there inside
      change state.named id + state.kept id ≤ _ + update state.forgotten id _ id
      rw [update_self]
      omega
  | releasing id =>
    have owed := sound.owes thread id (by rw [phase]; rfl)
    have owes := sound.owes
    have forwards := sound.forwards
    dsimp only
    split
    · exact sound
    case isFalse unlocked =>
      have settled : Sound sharding { state.setThread thread .idle with
          owed := update state.owed id none } := free.settle none (by grind [State.setThread])
        (by simp only [State.setThread]; grind)
        (by simp only [State.setThread, update_apply]; grind [Phase.owes])
      refine settled.giveBack (of_not_not unlocked) fun inode there inside => ?_
      have before := sound.enough id inode there inside
      simp only [State.kept, State.setThread, update_self, owed] at before ⊢
      omega
  | removing id =>
    obtain ⟨locked, inside, -⟩ := sound.removes thread id (by rw [phase]; rfl)
    have removes := sound.removes
    refine free.remove inside ?_
    simp only [State.setThread, update_apply]
    grind [Phase.removes]
  | unmapping id key forwarded =>
    dsimp only
    split
    · exact sound
    have unmapped := free.unmap key id
    cases forwarded with
    | none => exact unmapped
    | some next =>
      have owed := sound.owes thread next (by rw [phase]; rfl)
      refine unmapped.setThread nofun nofun nofun ?_
      rintro other has
      cases has
      unfold State.unmap
      split <;> exact owed

theorem Sound.step (act : Act) : Sound sharding (state.step sharding act) := by
  have absent := sound.unused state.next (Nat.le_refl _)
  obtain ⟨unnamed, unowed⟩ := sound.blank state.next absent
  have files := sound.files
  have unfiled : ∀ thread, (state.threads thread).files ≠ some state.next := by grind
  cases act with
  | call thread call =>
    unfold State.step
    dsimp only
    split
    · cases call <;> exact sound.toward nofun rfl rfl rfl
    · exact sound
  | go thread same => exact sound.go thread same
  | mark id pending promises promised =>
    unfold State.step
    dsimp only
    split
    · exact sound
    case h_2 inode there =>
      exact sound.tally there
        (fun thread removes => (sound.removes thread id removes).2.2 inode there)
        (fun _ _ => ⟨rfl, rfl⟩) (fun _ => Nat.le_refl _) rfl rfl (sound.enough id inode there)
  | create key =>
    refine sound.add absent unfiled (Nat.le_succ _) (Nat.lt_succ_self _) ?_ ?_
    · intro other apart
      exact ⟨update_of_ne apart _ _, rfl⟩
    · simp [kept, setInode, unowed, unnamed]
  | forward old key =>
    unfold State.step
    dsimp only
    split
    · exact sound
    case h_2 inode there =>
      have below := sound.below there
      have apart : old ≠ state.next := Nat.ne_of_lt below
      have removes := sound.removes
      let opened : State := { state.setInode state.next (fresh key true) with
        next := state.next + 1
        owed := update state.owed state.next (some (.inode old)) }
      have added : Sound sharding opened := by
        refine sound.add absent unfiled (Nat.le_succ _) (Nat.lt_succ_self _) ?_ ?_
        · intro other apart
          exact ⟨rfl, update_of_ne apart _ _⟩
        · simp [kept, setInode, unnamed]
      have entry : opened.inodes old = some inode := (update_of_ne apart _ _).trans there
      refine added.change (Nat.le_refl _) (Nat.lt_succ_of_lt below) ?_ ?_
        (fun _ _ => ⟨rfl, rfl, rfl⟩) (fun _ => Nat.le_refl _) (fun _ has => has) ?_
        (added.enough old inode entry)
      · simp only [opened, setInode]
        grind
      · simp only [opened, setInode]
        grind [listed]
      · grind

end

theorem Sound.start (root : Key) : Sound sharding (State.start root) := by
  have inodes : ∀ id, (State.start root).inodes id =
      if id = rootId then some (fresh root false) else none := fun id =>
    update_apply (fun _ : Nat => (none : Option Inode)) rootId (some (fresh root false)) id
  constructor
  · intro id beyond
    rw [inodes, if_neg (Nat.ne_of_gt beyond)]
  · intro id _
    exact ⟨rfl, rfl⟩
  · intro thread id has
    cases has
  · intro thread id has
    cases has
  · intro thread other id has
    cases has
  · intro thread id has
    cases has
  · intro id inode next there _ goes
    rw [inodes] at there
    split at there
    · cases there
      cases goes
    · cases there
  · intro thread id has
    cases has
  · intro id inode _ _
    exact Nat.zero_le _

/-- Whatever the threads do, and whenever, an inode in the table has counted enough. -/
theorem registry_sound (root : Key) (acts : List Act) :
    Sound sharding (Transition.run (State.step sharding) (State.start root) acts) :=
  Transition.run_preserves (State.step sharding) (Sound sharding)
    (fun _ act sound => sound.step act) _ acts (Sound.start root)

end State
end Lighter.Fs.Registry
