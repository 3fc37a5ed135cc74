import Lighter.Cli.InstanceOrder
import Lighter.Lib.Transition

/-!
# Who owns a home

The laws of what the calls return: a process that starts a machine is turned away by an owner
only, one that asks is told of an owner, and only an owner changes the files. They hold in
every run in which those that ask keep out of the way: they find out whether the lock is held
by taking it, and look at the record, the lock and the process one after the other.
-/

namespace Lighter.Cli

open List World

/-! ## What is asked of an outcome -/

/-- What a call came to is true of the home: a start is refused only because another process
owns it, what is returned is its owner at a moment of the call (and one that has exited and
still has its lock, if that is what was asked for), and its files are its owner's to change. -/
def Outcome.Lawful : Outcome → Prop
  | .refused process owner => ∃ other, other ≠ process ∧ owner = some other
  | .told alive identity since =>
      ∃ moment ∈ since, moment.owner = some identity.token ∧ (alive = false → moment.exited = true)
  | .touched process owner => owner = some process

instance : DecidablePred Outcome.Lawful
  | .refused process owner =>
      decidable_of_iff (owner.any fun other => other ≠ process) (by
        cases owner with
        | none => simp [Outcome.Lawful]
        | some other => simp [Outcome.Lawful])
  | .told alive identity since =>
      inferInstanceAs (Decidable (∃ moment ∈ since, moment.owner = some identity.token ∧
        (alive = false → moment.exited = true)))
  | .touched process owner => inferInstanceAs (Decidable (owner = some process))

/-- A process owns the home from when its `acquire` has the lock until it has let it go. -/
def World.Owns (world : World) (process : Process) : Prop :=
  (world.life process = .running ∧ (world.starts process).holds ≠ none) ∨
    world.owner = some process

/-! ## What is heard -/

def Aim.record : Aim → Option (Bool × Identity)
  | .about alive identity => some (alive, identity)
  | .legacy => none

/-- The record a call goes by, and whether its process is to be alive. -/
def Asking.about : Asking → Option (Bool × Identity)
  | .opening aim | .locking aim _ | .closing aim _ _ => aim.record
  | .path alive identity | .zombie alive identity => some (alive, identity)
  | _ => none

/-- The record that a call of `exiting` goes by once it has found the lock held. -/
def Asking.looked : Asking → Option Identity
  | .closing (.about alive identity) _ taken => if alive || taken then none else some identity
  | .path alive identity | .zombie alive identity => if alive then none else some identity
  | _ => none

theorem Asking.closing_looked {aim : Aim} {description : Nat} {taken : Bool} {identity : Identity}
    (looked : (Asking.closing aim description taken).looked = some identity) :
    aim = .about false identity ∧ taken = false := by
  unfold Asking.looked at looked
  grind

namespace World

variable {place : Place} {world : World}

/-- What those that ask have been through. -/
structure Heard (world : World) : Prop where
  told : ∀ process alive identity, (world.asks process).asking.about = some (alive, identity) →
    world.life identity.token ≠ .unborn ∧
      (alive = true → world.life identity.token = .running →
        ∃ moment ∈ (world.asks process).since, moment.owner = some identity.token)
  looked : ∀ process identity, (world.asks process).asking.looked = some identity →
    (∃ moment ∈ (world.asks process).since,
      moment.owner = some identity.token ∧ moment.exited = true) ∨
    (world.owner = some identity.token ∧ world.life identity.token = .running)

/-- Those that ask keep out of the way. -/
structure Orderly (place : Place) (world : World) (act : Act) : Prop where
  /-- A start does not meet the lock of one that asks, nor one it has left behind itself. -/
  alone : ∀ process fails description holder, act = .go process fails →
    world.life process = .running → world.starts process = .locking description →
      world.lock = some holder →
        ∃ other, other ≠ process ∧ (world.descriptions holder).opener = .start other
  /-- The record goes before the lock does. -/
  removes : ∀ process fails description rest, act = .go process fails →
    world.life process = .running →
      world.starts process = .dropping description (.identity :: rest) → fails = false
  /-- A call of `exiting` meets no lock but that of the process in the record. -/
  attends : ∀ process pathless identity description, act = .answer process pathless →
    world.life process = .running →
      (world.asks process).asking = .locking (.about false identity) description →
        world.lock = none ∨ world.owner = some identity.token
  /-- That process does not let go of its lock while it runs, until the call is over. -/
  stays : ∀ process identity, (world.asks process).asking.looked = some identity →
    world.owner = some identity.token → world.life identity.token = .running →
      (world.act place act).owner = some identity.token
  /-- The PID of the process in the record is not used again within a call of `read`. -/
  same : ∀ process pathless identity other, act = .answer process pathless →
    world.life process = .running → (world.asks process).asking = .zombie true identity →
      world.pids (place.pid identity.token) = some other → world.life other = .running →
        other = identity.token

theorem go_frame (process : Process) (fails : Bool) :
    (world.go place process fails).life = world.life ∧
      (world.go place process fails).asks = world.asks := by
  unfold go
  split
  case h_4 =>
    split <;> exact ⟨rfl, rfl⟩
  all_goals first
    | exact ⟨rfl, rfl⟩
    | (split <;> exact ⟨rfl, rfl⟩)

/-- A call's next place: it goes by the record it has just read, or by the one it went by, and
it has looked at the lock before, or does so now. -/
structure Onward (place : Place) (world : World) (process : Process) (after : World) : Prop where
  others : ∀ other, other ≠ process → after.asks other = world.asks other
  since : (after.asks process).since = (world.asks process).since
  life : after.life = world.life
  about : ∀ alive identity, (after.asks process).asking.about = some (alive, identity) →
    (world.asks process).asking.about = some (alive, identity) ∨
      world.recorded place = some identity ∧ after.owner = world.owner
  looked : ∀ identity, (after.asks process).asking.looked = some identity →
    (world.asks process).asking.looked = some identity ∨
      ∃ description, (world.asks process).asking = .locking (.about false identity) description ∧
        world.lock ≠ none ∧ after.owner = world.owner

theorem answer_onward (process : Process) (pathless : Bool) :
    Onward place world process (world.answer place process pathless) := by
  have owner : ∀ asks : Process → Inquiry, { world with asks := asks }.owner = world.owner :=
    fun _ => rfl
  unfold answer
  simp only [finish]
  repeat' split
  all_goals
    constructor <;> simp only [setAsking, note, close, release,
      setDescription, openLock, Function.update_apply] <;>
      grind [Asking.about, Aim.record, Asking.looked, → Asking.closing_looked]

/-- Processes are born once and exit once. -/
theorem life_act (act : Act) {process : Process} (born : world.life process ≠ .unborn) :
    (world.act place act).life process ≠ .unborn ∧
      ((world.act place act).life process = .running → world.life process = .running) := by
  have answered : ∀ other pathless, (world.answer place other pathless).life = world.life := by
    intro other pathless
    exact (answer_onward other pathless).life
  cases act <;> simp only [act] <;> (try split) <;> (try split) <;>
    grind [go_frame, setStart, put, note, close, release, setDescription, Function.update_apply]

/-- A call goes on by its own steps only. -/
theorem asks_act (act : Act) (process : Process) :
    (world.act place act).asks process = world.asks process ∨
      (∃ question, act = .ask process question ∧
        (world.act place act).asks process = ⟨.recording question, []⟩) ∨
      ∃ pathless, act = .answer process pathless ∧ world.life process = .running ∧
        world.act place act = world.answer place process pathless := by
  cases act with
  | answer other pathless =>
    have others := (@answer_onward place world other pathless).others process
    simp only [act]
    grind
  | _ =>
    simp only [act]
    (try split) <;> (try split) <;>
      grind [go_frame, setStart, put, note, close, release, setDescription, Function.update_apply]

theorem life_eq_exited {process : Process} (born : world.life process ≠ .unborn)
    (stopped : world.life process ≠ .running) : world.life process = .exited := by
  cases life : world.life process with
  | unborn => exact absurd life born
  | running => exact absurd life stopped
  | exited => rfl

/-- What a call has been through stays so, and it goes on being so. -/
theorem Heard.step (heard : Heard world) (kept : Kept place world) {act : Act}
    (orderly : Orderly place world act) : Heard (world.step place act) := by
  set after := world.act place act
  -- The moment after the action, if the process still has the lock.
  have still : ∀ (since : List Moment) (identity : Identity),
      world.life identity.token ≠ .unborn →
      after.owner = some identity.token →
      (∃ moment ∈ since ++ [after.moment],
          moment.owner = some identity.token ∧ moment.exited = true) ∨
        (after.owner = some identity.token ∧
          after.life identity.token = .running) := by
    intro since identity born owns
    by_cases runs : after.life identity.token = .running
    · exact .inr ⟨owns, runs⟩
    refine .inl ⟨_, mem_append_right _ (mem_singleton_self _), owns, ?_⟩
    have exited := life_eq_exited (life_act act born).1 runs
    unfold moment
    rw [owns]
    exact decide_eq_true exited
  have more : ∀ (since : List Moment) (holds : Moment → Prop), (∃ moment ∈ since, holds moment) →
      ∃ moment ∈ since ++ [after.moment], holds moment := by grind
  -- What a call that goes by its old record has heard.
  have told : ∀ process alive identity,
      (world.asks process).asking.about = some (alive, identity) →
      after.life identity.token ≠ .unborn ∧
        (alive = true → after.life identity.token = .running →
          ∃ moment ∈ (world.asks process).since ++ [after.moment],
            moment.owner = some identity.token) := by
    have told := heard.told
    grind [life_act]
  have looked : ∀ process identity, (world.asks process).asking.looked = some identity →
      (∃ moment ∈ (world.asks process).since ++ [after.moment],
          moment.owner = some identity.token ∧ moment.exited = true) ∨
        (after.owner = some identity.token ∧
          after.life identity.token = .running) := by
    intro process identity looks
    rcases heard.looked process identity looks with seen | ⟨owns, runs⟩
    · exact .inl (more _ _ seen)
    · exact still _ identity (by rw [runs]; decide) (orderly.stays process identity looks owns runs)
  constructor
  · intro process alive identity about
    change (after.asks process).asking.about = some (alive, identity) at about
    change after.life identity.token ≠ .unborn ∧ (alive = true →
      after.life identity.token = .running →
        ∃ moment ∈ (after.asks process).since ++ [after.moment],
          moment.owner = some identity.token)
    rcases @asks_act place world act process with
      same | ⟨question, _, new⟩ | ⟨pathless, answers, running, does⟩
    · grind
    · rw [new] at about
      cases about
    have onward := @answer_onward place world process pathless
    rw [← does] at onward
    rw [onward.since]
    rcases onward.about alive identity about with went | ⟨recorded, owner⟩
    · exact told process alive identity went
    rw [onward.life]
    obtain ⟨there, here⟩ := recorded_eq_some recorded
    refine ⟨(kept.record identity there here).1, fun _ runs => ?_⟩
    refine ⟨_, mem_append_right _ (mem_singleton_self _), ?_⟩
    exact owner.trans (kept.owner_of_record recorded runs)
  · intro process identity looks
    change (after.asks process).asking.looked = some identity at looks
    change (∃ moment ∈ (after.asks process).since ++ [after.moment],
        moment.owner = some identity.token ∧ moment.exited = true) ∨
      (after.owner = some identity.token ∧
        after.life identity.token = .running)
    rcases @asks_act place world act process with
      same | ⟨question, _, new⟩ | ⟨pathless, answers, running, does⟩
    · rw [same] at looks ⊢
      exact looked process identity looks
    · rw [new] at looks
      cases looks
    have onward := @answer_onward place world process pathless
    rw [← does] at onward
    rw [onward.since]
    rcases onward.looked identity looks with went | ⟨description, before, held, owner⟩
    · exact looked process identity went
    refine still _ identity (heard.told process false identity (by rw [before]; rfl)).1 ?_
    rw [owner]
    exact (orderly.attends process pathless identity description answers running
      before).resolve_left held

/-! ## What the calls come to -/

/-- What a step of an `Instance` adds to the outcomes. -/
theorem outcomes_go (process : Process) (fails : Bool) (outcome : Outcome)
    (inside : outcome ∈ (world.go place process fails).outcomes) :
    outcome ∈ world.outcomes ∨
      (outcome = .refused process world.owner ∧ ∃ description holder,
        world.starts process = .locking description ∧ world.lock = some holder) ∨
      (outcome = .touched process world.owner ∧ (world.starts process).holds ≠ none) := by
  unfold go at inside
  grind [setStart, put, note, close, release, setDescription, openLock, owner]

/-- What the last step of a call adds to them. -/
theorem outcomes_answer (process : Process) (pathless : Bool) (outcome : Outcome)
    (inside : outcome ∈ (world.answer place process pathless).outcomes) :
    outcome ∈ world.outcomes ∨ ∃ alive identity,
      outcome = .told alive identity (world.asks process).since ∧
        ((world.asks process).asking = .path alive identity ∧
            (alive = true ↔ world.life identity.token = .running) ∨
          (world.asks process).asking = .zombie alive identity ∧
            (alive = true ↔ world.zombie (place.pid identity.token) = false)) := by
  unfold answer at inside
  grind [finish, setAsking, note, close, release, setDescription, openLock]

/-- A process that is found by its PID alone, when it is that one, runs. -/
theorem zombie_eq_false {pid : Nat} (found : world.zombie pid = false) :
    ∃ process, world.pids pid = some process ∧ world.life process = .running := by
  unfold zombie at found
  split at found
  case h_1 process named =>
    exact ⟨process, named, of_not_not (of_decide_eq_false found)⟩
  case h_2 => cases found

/-- In order, every call comes to what is so. -/
theorem lawful_act (heard : Heard world) (kept : Kept place world) {act : Act}
    (orderly : Orderly place world act) (outcome : Outcome)
    (inside : outcome ∈ (world.act place act).outcomes) :
    outcome ∈ world.outcomes ∨ outcome.Lawful := by
  have owned : ∀ process, world.life process = .running → (world.starts process).holds ≠ none →
      world.owner = some process := by
    intro process running holds
    exact kept.owner_of_holds (by rw [running]; decide) holds
  cases act with
  | go process fails =>
    unfold act at inside
    dsimp only at inside
    split at inside
    case isFalse => exact .inl inside
    case isTrue running =>
      rcases outcomes_go process fails outcome inside with
        old | ⟨rfl, description, holder, locking, lock⟩ | ⟨rfl, holds⟩
      · exact .inl old
      · obtain ⟨other, different, opened⟩ :=
          orderly.alone process fails description holder rfl running locking lock
        refine .inr ⟨other, different, ?_⟩
        unfold owner
        rw [lock]
        dsimp only
        rw [opened]
      · exact .inr (owned process running holds)
  | bind process file =>
    unfold act at inside
    dsimp only at inside
    split at inside
    case h_2 => exact .inl inside
    case h_1 description published owning =>
      split at inside
      case isFalse => exact .inl inside
      case isTrue ready =>
        rcases mem_append.mp inside with old | new
        · exact .inl old
        · rw [mem_singleton.mp new]
          exact .inr (owned process ready.1 (by rw [owning]; exact Option.some_ne_none _))
  | answer process pathless =>
    unfold act at inside
    dsimp only at inside
    split at inside
    case isFalse => exact .inl inside
    case isTrue running =>
      rcases outcomes_answer process pathless outcome inside with
        old | ⟨alive, identity, rfl, found⟩
      · exact .inl old
      refine .inr ?_
      have about : (world.asks process).asking.about = some (alive, identity) := by
        rcases found with ⟨before, _⟩ | ⟨before, _⟩ <;> (rw [before]; rfl)
      obtain ⟨born, seen⟩ := heard.told process alive identity about
      have right : alive = true ↔ world.life identity.token = .running := by
        rcases found with ⟨_, right⟩ | ⟨before, right⟩
        · exact right
        · have same := orderly.same
          have named := kept.named
          grind [zombie_eq_false, zombie]
      cases alive with
      | true =>
        obtain ⟨moment, among, owns⟩ := seen rfl (right.mp rfl)
        exact ⟨moment, among, owns, fun contrary => by cases contrary⟩
      | false =>
        have looks : (world.asks process).asking.looked = some identity := by
          rcases found with ⟨before, _⟩ | ⟨before, _⟩ <;> (rw [before]; rfl)
        rcases heard.looked process identity looks with ⟨moment, among, owns, exited⟩ | ⟨_, runs⟩
        · exact ⟨moment, among, owns, fun _ => exited⟩
        · exact absurd (right.mpr runs) (by decide)
  | born other | exit other | reap other | teardown other | fork other | acquire other
  | ask other question =>
    unfold act at inside
    dsimp only at inside
    split at inside <;> exact .inl inside
  | exec description => exact .inl inside
  | publish other | drop other =>
    unfold act at inside
    dsimp only at inside
    split at inside
    · split at inside <;> exact .inl inside
    · exact .inl inside

/-- What holds of the home all along. -/
structure Sound (place : Place) (world : World) : Prop where
  kept : Kept place world
  heard : Heard world
  lawful : ∀ outcome ∈ world.outcomes, outcome.Lawful

theorem Sound.step (sound : Sound place world) {act : Act} (orderly : Orderly place world act) :
    Sound place (world.step place act) where
  kept := (sound.kept.act orderly.removes).witness
  heard := sound.heard.step sound.kept orderly
  lawful outcome inside :=
    (lawful_act sound.heard sound.kept orderly outcome inside).elim (sound.lawful outcome) id

/-- A home may have files in it, but no record that was written for it. -/
theorem Sound.start (lockFile : Bool) {files : HomeFile → Option Content}
    (foreign : ∀ identity, files .identity = some (.identity identity) →
      identity.home ≠ place.home) : Sound place (World.start lockFile files) where
  kept :=
    ⟨nofun, nofun, fun _ _ => False.elim, nofun, nofun,
      fun identity there here => absurd here (foreign identity there), nofun⟩
  heard := ⟨fun process alive identity about => (by cases about),
    fun process identity looks => (by cases looks)⟩
  lawful outcome inside := absurd inside not_mem_nil

end World

/-- However the processes that start a machine and those that ask about it come between each
other, and whenever they exit, in every run in which those that ask keep out of the way at
most one process owns the home, and each call comes to what is so: a start is refused only
while another process owns the home, `read` returns an owner of a moment of the call,
`exiting` one that had exited and still had its lock, and only the owner changes the files. -/
theorem one_machine (place : Place) (lockFile : Bool) (files : HomeFile → Option Content)
    (foreign : ∀ identity, files .identity = some (.identity identity) →
      identity.home ≠ place.home)
    (acts : List Act)
    (orderly : Transition.Legal (World.Orderly place) (World.step place)
      (World.start lockFile files) acts) :
    (∀ process other,
      (Transition.run (World.step place) (World.start lockFile files) acts).Owns process →
      (Transition.run (World.step place) (World.start lockFile files) acts).Owns other →
        process = other) ∧
    ∀ outcome ∈ (Transition.run (World.step place) (World.start lockFile files) acts).outcomes,
      outcome.Lawful := by
  have sound := Transition.run_invariant (Orderly place) (World.step place)
    (Sound place) (fun _ _ sound permitted => sound.step permitted) _ acts
    (Sound.start lockFile foreign) orderly
  refine ⟨fun process other owns has => ?_, sound.lawful⟩
  have owner : ∀ process, (Transition.run (World.step place) (World.start lockFile files) acts).Owns
      process → (Transition.run (World.step place) (World.start lockFile files) acts).owner =
        some process := by
    rintro process (⟨running, holds⟩ | owner)
    · exact sound.kept.owner_of_holds (by rw [running]; decide) holds
    · exact owner
  exact Option.some.inj ((owner process owns).symm.trans (owner other has))

namespace Asked

def place : Place := ⟨⟨"lighter", 1, 2⟩, id⟩

def empty : World := .start false fun _ => none

/-- A process comes and starts a machine. -/
def machine (process : Process) : List Act :=
  [.born process, .acquire process] ++ List.replicate 5 (.go process false) ++
    [.publish process] ++ List.replicate 3 (.go process false)

/-- It is killed, and the kernel gets to its descriptor. -/
def killed (process : Process) (description : Nat) : List Act :=
  [.exit process, .teardown description]

/-- It stops, and exits. -/
def stopped (process : Process) : List Act :=
  .drop process :: List.replicate 7 (.go process false) ++ [.exit process]

/-- A process comes and asks, as far as so many steps. -/
def asks (process : Process) (question : Question) (steps : Nat) : List Act :=
  .born process :: .ask process question :: List.replicate steps (.answer process false)

/-- The last machine was killed. While one process looks at the lock, another is refused that
would start a machine, though no process owns the home. -/
def refused : List Act :=
  machine 0 ++ killed 0 0 ++ asks 1 .read 3 ++
    [.born 2, .acquire 2, .go 2 false, .go 2 false]

/-- While one process looks at the lock, another is told that the machine that was killed is
still exiting. -/
def lingering : List Act :=
  machine 0 ++ killed 0 0 ++ asks 1 .read 3 ++ asks 2 .exiting 5

/-- The machine stops, and lets go of the lock before it exits, between the two looks of
`exiting`. -/
def between : List Act :=
  machine 0 ++ asks 1 .exiting 3 ++ stopped 0 ++ List.replicate 2 (.answer 1 false)

def outcomes (acts : List Act) : List Outcome :=
  (Transition.run (World.step place) empty acts).outcomes

theorem outcomes_untrue :
    (∃ outcome ∈ outcomes refused, ¬ outcome.Lawful) ∧
      (∃ outcome ∈ outcomes lingering, ¬ outcome.Lawful) ∧
      ∃ outcome ∈ outcomes between, ¬ outcome.Lawful := by
  decide +kernel

/-- What is asked of a step for it to be in order, where only some processes ask. -/
def inOrder (askers : List Process) (world : World) (act : Act) : Bool :=
  (match act with
    | .go process fails =>
        match world.starts process with
        | .locking _ => world.lock.all fun holder =>
            match (world.descriptions holder).opener with
            | .start other => other ≠ process
            | .ask _ => false
        | .dropping _ (.identity :: _) => !fails
        | _ => true
    | .answer process _ =>
        match (world.asks process).asking with
        | .locking (.about false identity) _ =>
            world.lock = none || world.owner = some identity.token
        | .zombie true identity =>
            (world.pids (place.pid identity.token)).all fun other =>
              other = identity.token || world.life other ≠ .running
        | _ => true
    | .ask process _ => process ∈ askers
    | _ => true) &&
  askers.all fun process => (world.asks process).asking.looked.all fun identity =>
    world.owner ≠ some identity.token || world.life identity.token ≠ .running ||
      (world.act place act).owner = some identity.token

variable {askers : List Process} {world : World} {act : Act}

/-- The check is enough. -/
theorem orderly_of_inOrder (quiet : ∀ process ∉ askers, (world.asks process).asking = .idle)
    (checked : inOrder askers world act = true) : Orderly place world act := by
  obtain ⟨own, others⟩ := Bool.and_eq_true_iff.mp checked
  constructor
  · rintro process fails description holder rfl _ starts lock
    simp only [starts, lock, Option.all_some] at own
    split at own
    · rename_i other opener
      exact ⟨other, of_decide_eq_true own, opener⟩
    · cases own
  · rintro process fails description rest rfl _ starts
    simpa [starts] using own
  · rintro process pathless identity description rfl _ asking
    simpa [asking] using own
  · intro process identity looked owner running
    by_cases asks : process ∈ askers
    · have looks := List.all_eq_true.mp others process asks
      simpa [looked, owner, running] using looks
    · rw [quiet process asks] at looked
      cases looked
  · rintro process pathless identity other rfl _ asking found running
    simpa [asking, found, running] using own

/-- Who does not ask stays quiet. -/
theorem quiet_step (checked : inOrder askers world act = true)
    (quiet : ∀ process ∉ askers, (world.asks process).asking = .idle) (process : Process)
    (outside : process ∉ askers) : ((world.step place act).asks process).asking = .idle := by
  have idle := quiet process outside
  change ((world.act place act).asks process).asking = .idle
  rcases @asks_act place world act process with same | ⟨question, rfl, _⟩ | ⟨_, rfl, _, does⟩
  · rw [same, idle]
  · have asks : process ∈ askers := of_decide_eq_true (Bool.and_eq_true_iff.mp checked).1
    exact absurd asks outside
  · rw [does, answer, idle]
    exact idle

/-- Every step of a run is in order. -/
def allInOrder (askers : List Process) : World → List Act → Bool
  | _, [] => true
  | world, act :: rest => inOrder askers world act && allInOrder askers (world.step place act) rest

theorem legal_of_allInOrder {acts : List Act} (checked : allInOrder askers world acts = true)
    (quiet : ∀ process ∉ askers, (world.asks process).asking = .idle) :
    Transition.Legal (Orderly place) (World.step place) world acts := by
  induction acts generalizing world with
  | nil => trivial
  | cons act rest ih =>
    obtain ⟨now, later⟩ := Bool.and_eq_true_iff.mp checked
    exact ⟨orderly_of_inOrder quiet now, ih later (quiet_step now quiet)⟩

/-- A machine runs, another start is refused and one that asks is told of it. Then it is killed,
and before the kernel gets to its descriptor one that asks is told so. -/
def attended : List Act :=
  machine 0 ++ [.born 1, .acquire 1, .go 1 false, .go 1 false, .go 1 false] ++ asks 2 .read 6 ++
    [.exit 0] ++ asks 3 .exiting 6

/-- The home has its one owner at the end, and each of the three outcomes is so. -/
theorem one_machine_attended :
    (∀ other, (Transition.run (World.step place) empty attended).Owns other → other = 0) ∧
      (outcomes attended).drop 6 = [.refused 1 (some 0),
        .told true ⟨0, place.home⟩ (replicate 5 ⟨some 0, false⟩),
        .told false ⟨0, place.home⟩ (replicate 5 ⟨some 0, true⟩)] ∧
      ∀ outcome ∈ outcomes attended, outcome.Lawful := by
  have legal : Transition.Legal (Orderly place) (World.step place) empty attended :=
    legal_of_allInOrder (show allInOrder [2, 3] empty attended = true by decide +kernel)
      fun _ _ => rfl
  obtain ⟨alone, lawful⟩ := one_machine place false (fun _ => none) nofun attended legal
  have owner : (Transition.run (World.step place) empty attended).Owns 0 :=
    .inr (by decide +kernel)
  exact ⟨fun other owns => alone other 0 owns owner, by decide +kernel, lawful⟩

end Asked
end Lighter.Cli
