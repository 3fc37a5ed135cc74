import Lighter.Cli.Instance

/-!
# A home in order

The place of a running process in `acquire`, `publish` or `drop` says which description of
the lock it has and whether the lock is its own, and the record of a process that runs is
there only while it has the lock. Every action keeps this, whoever comes between, as long as
the record can be removed before the lock is let go of.
-/

namespace Lighter.Cli

open Function

variable {start : Start}

/-! ## The places of a process -/

/-- The description a process has open for its `Instance`. -/
@[grind]
def Start.description : Start → Option Nat
  | .locking description | .closing description => some description
  | start => start.holds

/-- The record is the process's own, if it has been published. -/
@[grind]
def Start.shows : Start → Prop
  | .owning _ published | .publishing _ published _ => published = true
  | .dropping _ files => ∃ rest, files = .identity :: rest
  | _ => False

/-- The record is written, but under the name it is staged in. -/
@[grind]
def Start.staged : Start → Prop
  | .publishing _ _ stage => stage ≠ .staging
  | _ => False

/-- The description that one that asks has open. -/
@[grind]
def Asking.description : Asking → Option Nat
  | .locking _ description | .closing _ description _ => some description
  | _ => none

attribute [grind] Start.holds

theorem Start.description_of_holds {description : Nat} (holds : start.holds = some description) :
    start.description = some description := by
  cases start <;> first | exact holds | cases holds

theorem Start.holds_of_shows (shows : start.shows) : start.holds ≠ none := by
  cases start <;> grind

theorem Start.holds_of_staged (staged : start.staged) : start.holds ≠ none := by
  cases start <;> grind

namespace World

variable {place : Place} {world : World} {process : Process}

/-! ## The lock and the files -/

/-- What the places of the processes that have not exited ask of the home. -/
structure Kept (place : Place) (world : World) : Prop where
  mine : ∀ process description, world.life process ≠ .exited →
    (world.starts process).description = some description →
      description < world.next ∧ (world.descriptions description).opener = .start process ∧
        (world.descriptions description).own = true
  locks : ∀ process description, world.life process ≠ .exited →
    (world.starts process).holds = some description → world.lock = some description
  staged : ∀ process, world.life process ≠ .exited → (world.starts process).staged →
    world.files .staging = some (.identity ⟨process, place.home⟩)
  asked : ∀ process description, (world.asks process).asking.description = some description →
    description < world.next ∧ (world.descriptions description).opener = .ask process
  taken : ∀ description, world.lock = some description → description < world.next
  record : ∀ identity, world.files .identity = some (.identity identity) →
    identity.home = place.home → world.life identity.token ≠ .unborn ∧
      (world.life identity.token = .running → (world.starts identity.token).shows)
  named : ∀ process, world.life process = .running → world.pids (place.pid process) = some process

/-- A process that has the lock, and has not exited, owns the home. -/
theorem Kept.owner_of_holds (kept : Kept place world) (runs : world.life process ≠ .exited)
    (holds : (world.starts process).holds ≠ none) : world.owner = some process := by
  obtain ⟨description, has⟩ := Option.ne_none_iff_exists'.mp holds
  have opener := (kept.mine process description runs (Start.description_of_holds has)).2.1
  simp [World.owner, kept.locks process description runs has, opener]

theorem Kept.exclusive (kept : Kept place world) {other : Process}
    (runs : world.life process ≠ .exited) (holds : (world.starts process).holds ≠ none)
    (lives : world.life other ≠ .exited) (has : (world.starts other).holds ≠ none) :
    other = process :=
  Option.some.inj ((kept.owner_of_holds lives has).symm.trans (kept.owner_of_holds runs holds))

theorem recorded_eq_some {identity : Identity} (recorded : world.recorded place = some identity) :
    world.files .identity = some (.identity identity) ∧ identity.home = place.home := by
  unfold World.recorded at recorded
  grind

/-- A running process whose record is there has the lock. -/
theorem Kept.owner_of_record (kept : Kept place world) {identity : Identity}
    (recorded : world.recorded place = some identity)
    (running : world.life identity.token = .running) : world.owner = some identity.token := by
  obtain ⟨there, here⟩ := recorded_eq_some recorded
  refine kept.owner_of_holds (by rw [running]; decide) (Start.holds_of_shows ?_)
  exact (kept.record identity there here).2 running

/-! ## What keeps it -/

/-- A process that has the lock changes a file, or none, and moves on with the lock. What the
others ask for is left alone: none of them has it. -/
theorem Kept.write (kept : Kept place world) {start : Start} {description : Nat}
    {files : HomeFile → Option Content} {outcomes : List Outcome}
    (running : world.life process = .running)
    (holds : (world.starts process).holds = some description)
    (keeps : start.description = some description)
    (record : files .identity = world.files .identity ∧
        ((world.starts process).shows → start.shows) ∨
      files .identity = none ∨
      files .identity = some (.identity ⟨process, place.home⟩) ∧ start.shows)
    (staged : start.staged → files .staging = some (.identity ⟨process, place.home⟩)) :
    Kept place ({ world with files := files, outcomes := outcomes }.setStart process start) := by
  have alone : ∀ other, world.life other ≠ .exited → (world.starts other).staged →
      other = process := fun other lives staged =>
    kept.exclusive (by grind) (by grind) lives (Start.holds_of_staged staged)
  have within := @Start.description_of_holds
  obtain ⟨mine, locks, unstaged, asked, taken, recorded, named⟩ := kept
  constructor <;> simp only [World.setStart, update_apply] <;> grind

section

variable (kept : Kept place world)
include kept

/-- A step of an `Instance` keeps the home in order, if what the record is removed by at the
end does not fail. -/
theorem Kept.go {process : Process} {fails : Bool} (running : world.life process = .running)
    (removes : ∀ description rest,
      world.starts process = .dropping description (.identity :: rest) → fails = false) :
    Kept place (world.go place process fails) := by
  unfold World.go
  cases phase : world.starts process with
  | idle | owning _ _ => exact kept
  | «opening» =>
    obtain ⟨mine, locks, staged, asked, taken, record, named⟩ := kept
    constructor <;> simp only [World.setStart, World.openLock, update_apply] <;> grind
  | locking description =>
    obtain ⟨mine, locks, staged, asked, taken, record, named⟩ := kept
    dsimp only
    split <;> constructor <;> simp only [World.setStart, World.note, update_apply] <;> grind
  | clearing description files | dropping description files =>
    have holds : (world.starts process).holds = some description := by rw [phase]; rfl
    cases files with
    | nil => exact kept.write running holds rfl (.inl ⟨rfl, by grind⟩) False.elim
    | cons file rest =>
      cases fails with
      | true => exact kept.write running holds rfl (.inl ⟨rfl, by grind⟩) False.elim
      | false =>
        refine kept.write running holds rfl ?_ False.elim
        cases file <;> grind [update_apply]
  | publishing description published stage =>
    have holds : (world.starts process).holds = some description := by rw [phase]; rfl
    have staged := kept.staged process (by rw [running]; decide)
    cases fails with
    | true => cases stage <;> exact kept.write running holds rfl (.inl ⟨rfl, by grind⟩) False.elim
    | false =>
      cases stage with
      | staging => exact kept.write running holds rfl (.inl ⟨rfl, by grind⟩) fun _ => rfl
      | pid => exact kept.write running holds rfl (.inl ⟨rfl, by grind⟩) fun _ => staged (by grind)
      | rename =>
        exact kept.write running holds rfl (.inr (.inr ⟨staged (by grind), rfl⟩)) False.elim
  | unlocking description =>
    have alone : ∀ other, world.life other ≠ .exited → (world.starts other).holds ≠ none →
        other = process := fun other lives has =>
      kept.exclusive (by rw [running]; decide) (by rw [phase]; exact Option.some_ne_none _) lives
        has
    obtain ⟨mine, locks, staged, asked, taken, record, named⟩ := kept
    constructor <;> simp only [World.setStart, update_apply] <;> grind
  | closing description =>
    obtain ⟨mine, locks, staged, asked, taken, record, named⟩ := kept
    have within := @Start.description_of_holds
    constructor <;> simp only [World.setStart, World.close, World.setDescription, World.release,
      update_apply] <;> grind

/-- One that asks goes to a place where it has no description open, or its old one. -/
theorem Kept.setAsking {process : Process} {asking : Asking}
    (has : ∀ description, asking.description = some description →
      (world.asks process).asking.description = some description) :
    Kept place (world.setAsking process asking) := by
  obtain ⟨mine, locks, staged, asked, taken, record, named⟩ := kept
  constructor <;> simp only [World.setAsking, update_apply] <;> grind

/-- A descriptor is closed that is no `Instance`'s of a process that is there. -/
theorem Kept.close {description : Nat}
    (spare : ∀ process, world.life process ≠ .exited →
      (world.descriptions description).opener ≠ .start process) :
    Kept place (world.close description) := by
  obtain ⟨mine, locks, staged, asked, taken, record, named⟩ := kept
  have within := @Start.description_of_holds
  constructor <;> simp only [World.close, World.setDescription, World.release,
    update_apply] <;> grind

theorem Kept.finish (process : Process) (alive : Bool) (identity : Identity) (found : Bool) :
    Kept place (world.finish process alive identity found) := by
  have noted : ∀ outcome, Kept place (world.note outcome) := fun _ =>
    { kept with }
  unfold World.finish
  split
  · exact (noted _).setAsking nofun
  · exact kept.setAsking nofun

theorem Kept.answer (process : Process) (pathless : Bool) :
    Kept place (world.answer place process pathless) := by
  have leave : Kept place (world.setAsking process .idle) := kept.setAsking nofun
  unfold World.answer
  cases asking : (world.asks process).asking with
  | idle => exact kept
  | recording question =>
    cases question with
    | legacy =>
      dsimp only
      split
      · split
        · exact leave
        · exact kept.setAsking nofun
      · exact leave
    | read | exiting =>
      dsimp only
      split
      · exact kept.setAsking nofun
      · exact leave
  | existing =>
    dsimp only
    split
    · exact leave
    · exact kept.setAsking nofun
  | «opening» aim =>
    dsimp only
    split
    · obtain ⟨mine, locks, staged, asked, taken, record, named⟩ := kept
      constructor <;> simp only [World.openLock, World.setAsking, update_apply] <;> grind
    · exact leave
  | locking aim description =>
    have here := kept.asked process description (by rw [asking]; rfl)
    dsimp only
    split
    · exact kept.setAsking (by grind)
    · obtain ⟨mine, locks, staged, asked, taken, record, named⟩ := kept
      constructor <;> simp only [World.setAsking, update_apply] <;> grind
  | closing aim description taken =>
    have mine := kept.asked process description (by rw [asking]; rfl)
    have closed : Kept place (world.close description) := kept.close (by grind)
    dsimp only
    split
    · exact closed.setAsking nofun
    · split <;> exact closed.setAsking nofun
  | path alive identity =>
    dsimp only
    split
    · split
      · exact kept.setAsking nofun
      · exact kept.finish process alive identity true
    · split
      · exact kept.setAsking nofun
      · exact kept.finish process alive identity false
  | zombie alive identity => exact kept.finish process alive identity _

/-- Every action keeps the home in order, if what the record is removed by does not fail. -/
theorem Kept.act {act : Act}
    (removes : ∀ process fails description rest, act = .go process fails →
      world.life process = .running →
        world.starts process = .dropping description (.identity :: rest) → fails = false) :
    Kept place (world.act place act) := by
  unfold World.act
  cases act with
  | born process | exit process | reap process =>
    obtain ⟨mine, locks, staged, asked, taken, record, named⟩ := kept
    dsimp only
    split
    · constructor <;> simp only [update_apply] <;> grind
    · exact ⟨mine, locks, staged, asked, taken, record, named⟩
  | teardown description =>
    dsimp only
    split
    case isTrue exited => exact kept.close (by grind [Opener.process])
    case isFalse => exact kept
  | fork description | acquire process | ask process question =>
    dsimp only
    split
    · obtain ⟨mine, locks, staged, asked, taken, record, named⟩ := kept
      constructor <;> simp only [World.setDescription, World.setStart, update_apply] <;> grind
    · exact kept
  | exec description =>
    obtain ⟨mine, locks, staged, asked, taken, record, named⟩ := kept
    have within := @Start.description_of_holds
    constructor <;> simp only [World.setDescription, World.release, update_apply] <;> grind
  | publish process =>
    dsimp only
    split
    case h_1 description published owning =>
      split
      case isTrue running =>
        exact kept.write running (by rw [owning]; rfl) rfl (.inl ⟨rfl, by grind⟩) (by grind)
      case isFalse => exact kept
    case h_2 => exact kept
  | drop process =>
    dsimp only
    split
    case h_1 description published owning =>
      split
      case isTrue running =>
        cases published <;>
          exact kept.write running (by rw [owning]; rfl) rfl (.inl ⟨rfl, by grind⟩) False.elim
      case isFalse => exact kept
    case h_2 => exact kept
  | bind process file =>
    dsimp only
    split
    case h_1 description published owning =>
      split
      case isTrue ready =>
        have alone : ∀ other, world.life other ≠ .exited → (world.starts other).staged →
            other = process := fun other lives staged => kept.exclusive (by rw [ready.1]; decide)
          (by rw [owning]; exact Option.some_ne_none _) lives (Start.holds_of_staged staged)
        obtain ⟨mine, locks, staged, asked, taken, record, named⟩ := kept
        constructor <;> simp only [World.put, World.note, update_apply] <;> grind
      case isFalse => exact kept
    case h_2 => exact kept
  | go process fails =>
    dsimp only
    split
    case isTrue running =>
      exact kept.go running fun description rest =>
        removes process fails description rest rfl running
    case isFalse => exact kept
  | answer process pathless =>
    dsimp only
    split
    · exact kept.answer process pathless
    · exact kept

theorem Kept.witness : Kept place world.witness :=
  { kept with }

end

end World
end Lighter.Cli
