import Lighter.Lib.Transition
import Lighter.Virtio.Net

/-!
# A transmit queue that is parked

The device takes chains off the transmit ring under the transport's lock, as long as the
outbox has room; a thread of the backend empties the outbox. A device that finds no room
says so and leaves the rest on the ring, and the thread, if it takes the frames of a parked
device, has the ring looked at again.

The room is asked for and the parking recorded in two steps. If the outbox is emptied
between them the thread sees no parking, and nobody looks again unless a pass is still to
come: the one for the guest's kick, or the second look that ends every pass. The ring is the
driver's count of chains and the device's cursor; it is in memory, so that a chain that was
published can be taken, and an entry that names no chain is passed over. With an event index
the driver kicks if it goes past the index it was told, otherwise for every chain. What the
other queues of the card do is an arbitrary answer to whether one of them moved.
-/

namespace Lighter.Virtio.NetParking

open Transition

/-- Where a pass is. A pass of `transmit` that is part of the second look knows the cursor it
began with. -/
inductive Phase where
  | idle
  /-- About to ask `more_available`. -/
  | look (before : Option Nat)
  | room (before : Option Nat)
  /-- There was no room, and `park` is next. -/
  | park (before : Option Nat)
  | pop (before : Option Nat)
  /-- A frame of so many bytes is to be pushed. -/
  | push (before : Option Nat) (len : Nat)
  /-- `finish_service` is about to tell the driver the cursor. -/
  | arm
  /-- It is about to read the ring once more. -/
  | recheck
deriving DecidableEq, Repr

/-- Where the thread that empties the outbox is. -/
inductive Drainer where
  /-- In `take`, which blocks while there are no frames. -/
  | taking
  /-- It has taken frames, and whether it saw the device parked. -/
  | delivering (parked : Bool)
  /-- In `wake_tx`: the pass that runs is its own. -/
  | waking
deriving DecidableEq, Repr

structure World where
  /-- Whether the event index was negotiated. -/
  eventIdx : Bool
  /-- Chains published, taken, and where the driver was told to kick. -/
  published : Nat
  taken : Nat
  event : Nat
  /-- A kick that no pass has answered yet. -/
  kicked : Bool
  /-- Frames by their lengths. -/
  outbox : Outbox Nat
  phase : Phase
  drainer : Drainer
deriving DecidableEq, Repr

namespace World

def start (eventIdx : Bool) : World := ⟨eventIdx, 0, 0, 0, false, ⟨[], 0, false⟩, .idle, .taking⟩

/-- The transport's lock is let go. -/
def leave (world : World) : World :=
  { world with
    phase := .idle
    drainer := if world.drainer = .waking then .taking else world.drainer }

/-- `transmit` returns. The second look is over unless this queue moved, or another did. -/
def returned (world : World) (before : Option Nat) (moved : Bool) : World :=
  match before with
  | none => { world with phase := .arm }
  | some before =>
      if world.taken ≠ before ∨ moved then { world with phase := .arm } else world.leave

/-- The next step of the pass that runs. If it pops, this is the length of the frame in the
chain, or that the entry names none; and this is whether another queue moved. -/
def pass (world : World) (popped : Option Nat) (moved : Bool) : World :=
  match world.phase with
  | .idle => world
  | .look before =>
      if world.taken < world.published then { world with phase := .room before }
      else world.returned before moved
  | .room before =>
      { world with phase := if world.outbox.hasRoom then .pop before else .park before }
  | .park before => { world with outbox := world.outbox.park }.returned before moved
  | .pop before =>
      match popped with
      | none => { world with taken := world.taken + 1 }.returned before moved
      | some len => { world with taken := world.taken + 1, phase := .push before len }
  | .push before len =>
      { world with
        outbox := if len = 0 then world.outbox else world.outbox.push len len
        phase := .look before }
  | .arm => { world with event := world.taken, phase := .recheck }
  | .recheck =>
      if world.taken < world.published then { world with phase := .look (some world.taken) }
      else if moved then { world with phase := .arm }
      else world.leave

/-- The driver publishes chains, and kicks if it was asked to for one of them. -/
def publish (world : World) (chains : Nat) : World :=
  { world with
    published := world.published + chains
    kicked := world.kicked || (chains != 0 && (!world.eventIdx ||
      (decide (world.published ≤ world.event) &&
        decide (world.event < world.published + chains)))) }

inductive Action where
  | publish (chains : Nat)
  /-- A pass begins: for a kick, for `wake_tx`, or for something else, which looks at this
  queue first or not. -/
  | kick
  | wake
  | other (first : Bool)
  | pass (popped : Option Nat) (moved : Bool)
  | take
  /-- What was taken is delivered. -/
  | deliver
deriving DecidableEq, Repr

/-- An action that does not apply does nothing. -/
def step (world : World) : Action → World
  | .publish chains => world.publish chains
  | .kick =>
      if world.phase = .idle ∧ world.kicked then { world with kicked := false, phase := .look none }
      else world
  | .wake =>
      if world.phase = .idle ∧ world.drainer = .delivering true then
        { world with drainer := .waking, phase := .look none }
      else world
  | .other first =>
      if world.phase = .idle then { world with phase := if first then .look none else .arm }
      else world
  | .pass popped moved => world.pass popped moved
  | .take =>
      if world.drainer = .taking ∧ world.outbox.frames ≠ [] then
        { world with drainer := .delivering world.outbox.parked, outbox := world.outbox.take }
      else world
  | .deliver =>
      if world.drainer = .delivering false then { world with drainer := .taking } else world

/-- Chains wait, and nobody is to look at them. -/
structure Stranded (world : World) : Prop where
  waiting : world.taken < world.published
  empty : world.outbox.frames = []
  blocked : world.drainer = .taking
  still : world.phase = .idle
  unkicked : world.kicked = false

/-- The outbox is not emptied between the question for room and the parking, unless the
device was parked already. -/
def Orderly (world : World) (action : Action) : Prop :=
  action = .take → ∀ before, world.phase = .park before → world.outbox.parked = true

/-- The cursor with which the pass of `transmit` that runs began its second look. -/
def Phase.before : Phase → Option Nat
  | .look before | .room before | .park before | .pop before | .push before _ => before
  | _ => none

/-- Somebody is to look at the ring. -/
def Due (world : World) : Prop :=
  world.kicked = true ∨ world.drainer = .delivering true ∨
    world.outbox.parked = true ∧ world.outbox.frames ≠ []

structure Inv (world : World) : Prop where
  bytes : world.outbox.bytes = world.outbox.frames.sum
  /-- The driver was told the cursor when the last look began. -/
  told : (world.phase = .idle ∨ world.phase = .recheck → world.event = world.taken) ∧
    ∀ before, Phase.before world.phase = some before → world.event = before ∧ before ≤ world.taken
  due : world.phase = .idle → world.taken < world.published → world.Due
  /-- A device about to park has left frames, or the thread has seen it parked. -/
  parking : ∀ before, world.phase = .park before →
    world.outbox.frames ≠ [] ∨ world.drainer = .delivering true
  behind : world.taken ≤ world.published
  /-- A step that takes a chain follows a look that found one. -/
  found : ∀ before, world.phase = .room before ∨ world.phase = .pop before →
    world.taken < world.published

theorem Inv.start (eventIdx : Bool) : Inv (World.start eventIdx) := by
  constructor <;> simp [World.start, Phase.before]

variable {world : World}

theorem Inv.publish (inv : Inv world) (chains : Nat) : Inv (world.publish chains) := by
  obtain ⟨bytes, told, due, parking, behind, found⟩ := inv
  constructor <;> simp only [World.publish, Due] at * <;> grind

/-- A pass of `transmit` may return if, should it end the pass, somebody is to look. -/
theorem Inv.returned {before : Option Nat} {moved : Bool}
    (bytes : world.outbox.bytes = world.outbox.frames.sum)
    (told : ∀ cursor, before = some cursor → world.event = cursor)
    (due : world.taken < world.published → before = some world.taken → world.Due)
    (behind : world.taken ≤ world.published) : Inv (world.returned before moved) := by
  unfold World.returned
  split
  · constructor <;> simp [Phase.before, *]
  rename_i cursor
  split
  · constructor <;> simp [Phase.before, *]
  · rename_i ended
    constructor <;> simp only [World.leave, Due, Phase.before] at * <;> grind

theorem Inv.pass (inv : Inv world) (popped : Option Nat) (moved : Bool) :
    Inv (world.pass popped moved) := by
  obtain ⟨bytes, told, due, parking, behind, found⟩ := inv
  unfold World.pass
  split
  · exact ⟨bytes, told, due, parking, behind, found⟩
  · rename_i before phase
    rw [phase] at told
    split
    · constructor <;> simp only [Phase.before] at * <;> grind
    · exact Inv.returned bytes (fun cursor same => (told.2 cursor same).1) (by grind) behind
  · -- Without room there are frames.
    rename_i before phase
    rw [phase] at told
    have full : world.outbox.hasRoom = false → world.outbox.frames ≠ [] := by
      intro none empty
      simp [Outbox.hasRoom, bytes, empty, outboxBytes] at none
    constructor <;> simp only [Phase.before] at * <;> grind
  · rename_i before phase
    rw [phase] at told
    have left := parking before phase
    refine Inv.returned bytes (fun cursor same => (told.2 cursor same).1) (fun _ _ => ?_) behind
    simp only [Due, Outbox.park]
    grind
  · rename_i before phase
    rw [phase] at told
    have more := found before (Or.inr phase)
    split
    · grind [Inv.returned, Phase.before]
    · constructor <;> simp only [Phase.before] at * <;> grind
  · rename_i before len phase
    rw [phase] at told
    constructor <;> simp only [Phase.before, Outbox.push] at * <;> grind
  · constructor <;> simp only [Phase.before] at * <;> grind
  · rename_i phase
    rw [phase] at told
    split
    · constructor <;> simp only [Phase.before] at * <;> grind
    · split
      · constructor <;> simp only [Phase.before] at * <;> grind
      · constructor <;> simp only [Phase.before, World.leave, Due] at * <;> grind

theorem Inv.step (inv : Inv world) {action : Action}
    (orderly : Orderly world action) : Inv (world.step action) := by
  cases action with
  | publish chains => exact inv.publish chains
  | pass popped moved => exact inv.pass popped moved
  | kick | wake | other first =>
    obtain ⟨bytes, told, due, parking, behind, found⟩ := inv
    unfold World.step
    split <;> constructor <;> simp only [Phase.before] at * <;> grind
  | take =>
    have seen := orderly rfl
    obtain ⟨bytes, told, due, parking, behind, found⟩ := inv
    unfold World.step
    split <;> constructor <;> simp only [Due, Outbox.take] at * <;> grind
  | deliver =>
    obtain ⟨bytes, told, due, parking, behind, found⟩ := inv
    unfold World.step
    split <;> constructor <;> simp only [Due] at * <;> grind

/-- If the outbox is never emptied between the question for room and the parking, chains that
wait are always to be looked at. -/
theorem never_stranded (eventIdx : Bool) (actions : List Action)
    (orderly : Legal Orderly World.step (World.start eventIdx) actions) :
    ∀ earlier, earlier <+: actions →
      ¬ Stranded (run World.step (World.start eventIdx) earlier) := by
  rintro earlier ⟨later, rfl⟩ stranded
  have inv := run_invariant Orderly World.step Inv (fun _ _ inv orderly => inv.step orderly)
    (World.start eventIdx) earlier (Inv.start eventIdx)
    ((legal_append Orderly World.step _ earlier later).mp orderly).1
  obtain ⟨waiting, empty, blocked, still, unkicked⟩ := stranded
  rcases inv.due still waiting with kicked | owed | ⟨_, frames⟩
  · rw [unkicked] at kicked
    cases kicked
  · rw [blocked] at owed
    cases owed
  · exact frames empty

/-- The steps that take a chain and push its frame. -/
def served (len : Nat) : List Action := List.replicate 4 (.pass (some len) false)

/-- Frames fill the outbox as the ring runs out, and another chain is published before the
driver is told the cursor. The second look finds no room, the outbox is emptied, and the
device parks. -/
def unlucky : List Action :=
  [.publish 128, .kick] ++ (List.replicate 128 (served 65550)).flatten ++
    [.pass none false, .publish 1, .pass none false, .pass none false, .pass none false,
      .pass none false, .take, .deliver, .pass none false]

theorem stranded_by_a_take : Stranded (run World.step (World.start true) unlucky) := by
  constructor <;> decide +kernel

instance (world : World) (action : Action) : Decidable (Orderly world action) :=
  decidable_of_iff
    (action = .take → (match world.phase with | .park _ => true | _ => false) = true →
      world.outbox.parked = true)
    (by unfold Orderly; cases world.phase <;> simp)

/-- A chain is left when the outbox is full, and the device parks. The outbox is emptied as the
second look is about to park it once more. -/
def lucky : List Action :=
  [.publish 129, .kick] ++ (List.replicate 128 (served 65550)).flatten ++
    List.replicate 7 (.pass none false) ++ [.take, .pass none false]

/-- The thread saw the parking, so that the chain is to be looked at although nothing else would:
it has the ring looked at, and the chain is taken. -/
theorem never_stranded_lucky :
    let world := run World.step (World.start true) lucky
    (world.taken = 128 ∧ world.published = 129 ∧ world.outbox.frames = [] ∧
        world.phase = .idle ∧ world.kicked = false) ∧
      world.drainer ≠ .taking ∧
      (run World.step world (.wake :: served 64)).taken = 129 := by
  intro world
  have left : (world.taken = 128 ∧ world.published = 129 ∧ world.outbox.frames = [] ∧
      world.phase = .idle ∧ world.kicked = false) ∧
      (run World.step world (.wake :: served 64)).taken = 129 := by decide +kernel
  refine ⟨left.1, fun blocked => ?_, left.2⟩
  obtain ⟨⟨taken, published, empty, still, unkicked⟩, _⟩ := left
  have stranded : Stranded world := ⟨by omega, empty, blocked, still, unkicked⟩
  exact never_stranded true lucky (by decide +kernel) lucky List.prefix_rfl stranded

end World
end Lighter.Virtio.NetParking
