import Lighter.Lib.Doorbell
import Lighter.Virtio.Interrupt

/-!
# No request is lost

A split ring with the event index, between a driver that kicks only when the event
asks for it and a transport that serves in passes. The steps of `notify_queue` and
`finish_service` stand one by one, as they meet the steps of the driver: each pop of
the device, the arming of the ring, the second look, and the end of a turn. The device
takes chains until a pop gives it none; an entry with a head out of range is such a
pop. The other queues of the transport take part in a pass by the movement they report
at the end of a turn.

The queue's place in the set of early kicks is one flag here: the transport keeps one
for each of 64 queues, and none of its devices has more than 32.
-/

namespace Lighter.Virtio.Request

open GuestMemory Doorbell Virtqueue

structure World where
  queue : Virtqueue
  memory : GuestMemory
  /-- The index before a publication whose event the driver has not read yet. -/
  publishing : Option UInt16
  /-- Kicks the driver has made and the transport has not come to. -/
  kicks : Nat
  activated : Bool
  early : Bool
  stage : Stage

inductive Act where
  /-- The driver moves its index past the chains it has written, -/
  | advance (chains : Nat)
  /-- reads the event and kicks if it has to. -/
  | decide
  /-- A kick arrives at the transport. -/
  | ring
  /-- The device pops once, -/
  | pop
  /-- the ring is armed -/
  | arm
  /-- and looked at again, -/
  | look
  /-- and the turn ends, with what the other queues have moved. -/
  | close (others : Bool)
  /-- The driver is ready. An early kick is a kick now, for the transport to come to
  after those of other queues. -/
  | driverOk
  | poll
  /-- A pass that another queue or the host timer began. -/
  | pass
  | complete (head : UInt16) (len : UInt32)
  /-- The driver writes chains and entries, and whatever else is not the ring's own
  two words. -/
  | elsewhere (bytes : Nat → UInt8)

namespace World

/-- The driver's index. -/
def index (world : World) : UInt16 :=
  UInt16.ofNat (world.memory.field (address world.queue.availAddr 2) 2)

/-- The event the device has published. -/
def event (world : World) : UInt16 :=
  UInt16.ofNat (world.memory.field world.queue.availEventAddr 2)

/-- `notify_queue` as far as the device's own work. -/
def notify (world : World) : World :=
  if world.activated then { world with stage := .service none } else { world with early := true }

def step (world : World) : Act → World
  | .advance chains =>
      { world with
        memory := world.memory.putU16 (address world.queue.availAddr 2)
          (world.index + UInt16.ofNat chains)
        publishing := some world.index }
  | .decide =>
      match world.publishing with
      | none => world
      | some old =>
          { world with
            kicks := world.kicks + if needEvent world.event world.index old then 1 else 0
            publishing := none }
  | .ring => { world with kicks := world.kicks - 1 }.notify
  | .pop =>
      match world.stage with
      | .service before =>
          let (queue, chain) := world.queue.pop world.memory
          match chain with
          | some _ => { world with queue := queue }
          | none =>
              { world with
                queue := queue
                stage :=
                  match before with
                  | none => .arm
                  | some before => .closing (queue.nextAvail != before) }
      | _ => world
  | .arm =>
      let (queue, memory) := world.queue.armNotifications world.memory
      { world with queue := queue, memory := memory, stage := .look }
  | .look =>
      { world with
        stage :=
          if world.queue.hasWork world.memory then .service (some world.queue.nextAvail)
          else .closing false }
  | .close others =>
      match world.stage with
      | .closing moved => { world with stage := if moved || others then .arm else .idle }
      | _ => world
  | .driverOk =>
      { world with
        activated := true
        early := false
        kicks := world.kicks + if world.early then 1 else 0 }
  | .poll => if world.queue.hasWork world.memory then world.notify else world
  | .pass => { world with stage := .arm }
  | .complete head len =>
      let (queue, memory) := world.queue.pushUsed world.memory head len
      { world with queue := queue, memory := memory }
  | .elsewhere bytes => { world with memory := { world.memory with bytes := bytes } }

/-- The driver publishes fewer than half the range at once, and reads the event before
it publishes again. The transport's steps come in their order, and one pass ends before
the next begins. -/
def Allowed (world : World) : Act → Prop
  | .advance chains => world.publishing = none ∧ chains < 32768
  | .ring => 0 < world.kicks ∧ world.stage = .idle
  | .pop => ∃ before, world.stage = .service before
  | .arm => world.stage = .arm
  | .look => world.stage = .look
  | .close _ => ∃ moved, world.stage = .closing moved
  | .driverOk => world.stage = .idle ∧ world.activated = false
  | .poll => world.stage = .idle
  | .pass => world.stage = .idle ∧ world.activated = true
  | .elsewhere bytes => ∀ position,
      (address world.queue.availAddr 2 ≤ position ∧
          position < address world.queue.availAddr 2 + 2 ∨
        world.queue.availEventAddr ≤ position ∧ position < world.queue.availEventAddr + 2) →
      bytes position = world.memory.bytes position
  | .decide | .complete .. => True

/-- What the two parties see of each other. -/
def view (world : World) : Bell where
  index := world.index
  cursor := world.queue.nextAvail
  event := world.event
  publishing := world.publishing
  kicks := world.kicks
  opened := world.activated
  early := world.early
  stage := world.stage

/-- A step as the bell has it. -/
def shadow (world : World) : Act → Doorbell.Act
  | .advance chains => .advance chains
  | .decide => .decide
  | .ring => .ring
  | .pop => .take (world.queue.pop world.memory).2.isSome
  | .arm => .arm
  | .look => .look
  | .close others => .close others
  | .driverOk => .activate
  | .poll => .poll
  | .pass => .pass
  | .complete .. => .other
  | .elsewhere _ => .other

end World

/-- A live split ring with the event index, wholly in memory. -/
structure Laid (world : World) : Prop where
  ready : world.queue.ready = true
  split : world.queue.packed = false
  eventIdx : world.queue.eventIdx = true
  wanted : world.queue.suppressed = false
  located : world.queue.usedAddr ≠ 0
  positive : 0 < world.queue.size.toNat
  avail : world.memory.mapped world.queue.availAddr (6 + world.queue.size.toNat * 2) = true
  used : world.memory.mapped world.queue.usedAddr (6 + world.queue.size.toNat * 8) = true
  apart : world.queue.availAddr + (6 + world.queue.size.toNat * 2) ≤ world.queue.usedAddr ∨
    world.queue.usedAddr + (6 + world.queue.size.toNat * 8) ≤ world.queue.availAddr
  /-- The event the device remembers is the one in memory. -/
  cached : ∀ value, world.queue.publishedEvent = some value → world.event = value

namespace Laid

variable {world : World}

section

variable (laid : Laid world)
include laid

theorem indexAddr : address world.queue.availAddr 2 = world.queue.availAddr + 2 := by
  have below := mapped_below laid.avail
  exact address_eq (by omega)

theorem eventAddr :
    world.queue.availEventAddr = world.queue.usedAddr + (4 + world.queue.size.toNat * 8) := by
  have below := mapped_below laid.used
  exact address_eq (by omega)

theorem indexMapped : world.memory.mapped (address world.queue.availAddr 2) 2 = true := by
  rw [laid.indexAddr]
  exact world.memory.mapped_part 2 2 laid.avail (by omega)

theorem eventMapped : world.memory.mapped world.queue.availEventAddr 2 = true := by
  rw [laid.eventAddr]
  exact world.memory.mapped_part _ 2 laid.used (by omega)

theorem availIdx_eq : world.queue.availIdx world.memory = some world.index :=
  readU16_of_mapped laid.indexMapped

theorem hasWork_eq : world.queue.hasWork world.memory = (world.index != world.queue.nextAvail) := by
  simp [Virtqueue.hasWork, laid.ready, laid.split, laid.availIdx_eq]

/-- A change of the cursors alone, or of memory outside the two words. -/
theorem congr {after : World} (geometry : after.queue.geometry = world.queue.geometry)
    (asked : after.queue.asked = world.queue.asked)
    (regions : after.memory.regions = world.memory.regions)
    (event : after.event = world.event) : Laid after := by
  simp only [Virtqueue.geometry, Geometry.mk.injEq] at geometry
  simp only [Virtqueue.asked, Prod.mk.injEq] at asked
  obtain ⟨_, size, _, avail, used, ready, layout, events⟩ := geometry
  obtain ⟨suppressed, published⟩ := asked
  constructor
  · exact ready.trans laid.ready
  · exact layout.trans laid.split
  · exact events.trans laid.eventIdx
  · exact suppressed.trans laid.wanted
  · exact used ▸ laid.located
  · exact size ▸ laid.positive
  · rw [avail, size, mapped_congr regions]
    exact laid.avail
  · rw [used, size, mapped_congr regions]
    exact laid.used
  · rw [avail, used, size]
    exact laid.apart
  · intro value noted
    rw [event]
    exact laid.cached value (published ▸ noted)

end

/-- The two words of the ring, in the memory and under the geometry after a step. -/
theorem words_congr {after : World} (geometry : after.queue.geometry = world.queue.geometry)
    (index : after.memory.field (address world.queue.availAddr 2) 2 =
      world.memory.field (address world.queue.availAddr 2) 2)
    (event : after.memory.field world.queue.availEventAddr 2 =
      world.memory.field world.queue.availEventAddr 2) :
    after.index = world.index ∧ after.event = world.event := by
  simp only [Virtqueue.geometry, Geometry.mk.injEq] at geometry
  obtain ⟨_, size, _, avail, used, _, _, _⟩ := geometry
  constructor
  · simp [World.index, avail, index]
  · grind [Virtqueue.availEventAddr, World.event]

section

variable (laid : Laid world)
include laid

/-- The driver's index is apart from the event. -/
theorem event_apart :
    world.queue.availEventAddr + 2 ≤ address world.queue.availAddr 2 ∨
      address world.queue.availAddr 2 + 2 ≤ world.queue.availEventAddr := by
  have apart := laid.apart
  rw [laid.indexAddr, laid.eventAddr]
  omega

theorem advance (chains : Nat) :
    Laid (world.step (.advance chains)) ∧
      (world.step (.advance chains)).view = world.view.step (.advance chains) := by
  have index : (world.step (.advance chains)).index = world.index + UInt16.ofNat chains :=
    ofNat_field_putU16 laid.indexMapped _
  have event : (world.step (.advance chains)).event = world.event := by
    change UInt16.ofNat ((world.memory.putField (address world.queue.availAddr 2) 2 _).field
      world.queue.availEventAddr 2) = _
    rw [field_putField_apart laid.event_apart]
    rfl
  refine ⟨laid.congr rfl rfl (regions_putField _ _ _ _) event, ?_⟩
  simp only [World.view, Bell.step, index, event]
  rfl

/-- A pop finds the ring empty, or moves the cursor on by one, whatever the entry
says. -/
theorem pop_cases :
    (world.index = world.queue.nextAvail ∧ world.queue.pop world.memory = (world.queue, none)) ∨
      (world.index ≠ world.queue.nextAvail ∧
        (world.queue.pop world.memory).1.nextAvail = world.queue.nextAvail + 1) := by
  have slot : (world.queue.nextAvail % world.queue.size).toNat < world.queue.size.toNat := by
    rw [UInt16.toNat_mod]
    exact Nat.mod_lt _ laid.positive
  have below := mapped_below laid.avail
  have entry : world.memory.mapped (address world.queue.availAddr
      (4 + (world.queue.nextAvail % world.queue.size).toNat * 2)) 2 = true := by
    rw [address_eq (by omega)]
    exact world.memory.mapped_part _ 2 laid.avail (by omega)
  simp only [pop, laid.ready, laid.split, Bool.not_true, Bool.false_eq_true, if_false,
    popSplit, laid.availIdx_eq, readU16_of_mapped entry]
  by_cases level : world.index = world.queue.nextAvail
  · exact Or.inl ⟨level, by rw [if_pos level]⟩
  · refine Or.inr ⟨level, ?_⟩
    rw [if_neg level]
    split <;> rfl

theorem pop {before : Option UInt16} (serving : world.stage = .service before) :
    Laid (world.step .pop) ∧
      (world.step .pop).view = world.view.step (world.shadow .pop) := by
  have geometry := (world.queue.pop_keeps world.memory).1
  have asked := world.queue.asked_pop world.memory
  have stage : world.view.stage = .service before := serving
  have stepped : (world.step .pop).queue = (world.queue.pop world.memory).1 ∧
      (world.step .pop).memory = world.memory := by
    unfold World.step
    simp only [serving]
    split <;> exact ⟨rfl, rfl⟩
  obtain ⟨queue, memory⟩ := stepped
  obtain ⟨index, event⟩ : (world.step .pop).index = world.index ∧
      (world.step .pop).event = world.event :=
    words_congr (by rw [queue]; exact geometry) (by rw [memory]) (by rw [memory])
  refine ⟨laid.congr (by rw [queue]; exact geometry) (by rw [queue]; exact asked)
    (by rw [memory]) event, ?_⟩
  have seen : world.view.index = world.index ∧ world.view.cursor = world.queue.nextAvail :=
    ⟨rfl, rfl⟩
  rcases laid.pop_cases with ⟨level, empty⟩ | ⟨apart, onward⟩
  · simp only [World.shadow, Bell.step, stage, seen.1, seen.2, if_pos level]
    unfold World.view
    rw [index, event]
    simp only [World.step, serving, empty]
    cases before <;> rfl
  · grind [World.shadow, Bell.step, World.view, World.step, Bell.drained]

theorem arm : Laid (world.step .arm) ∧ (world.step .arm).view = world.view.step .arm := by
  have armed : world.queue.armNotifications world.memory =
      if world.queue.publishedEvent = some world.queue.nextAvail then (world.queue, world.memory)
      else ({ world.queue with publishedEvent := some world.queue.nextAvail },
        world.memory.putU16 world.queue.availEventAddr world.queue.nextAvail) := by
    simp [armNotifications, publishAvailEvent, laid.located, laid.split, laid.eventIdx, laid.wanted]
  by_cases known : world.queue.publishedEvent = some world.queue.nextAvail
  · -- The word is there already, and is not written again.
    rw [if_pos known] at armed
    have event : world.event = world.queue.nextAvail := laid.cached _ known
    have stepped : world.step .arm = { world with stage := .look } := by
      simp [World.step, armed]
    rw [stepped]
    refine ⟨laid.congr rfl rfl rfl rfl, ?_⟩
    simp only [World.view, Bell.step, ← event]
    rfl
  rw [if_neg known] at armed
  have stepped : world.step .arm = { world with
      queue := { world.queue with publishedEvent := some world.queue.nextAvail }
      memory := world.memory.putU16 world.queue.availEventAddr world.queue.nextAvail
      stage := .look } := by
    simp [World.step, armed]
  have event : (world.step .arm).event = world.queue.nextAvail := by
    rw [stepped]
    exact ofNat_field_putU16 laid.eventMapped _
  have index : (world.step .arm).index = world.index := by
    rw [stepped]
    change UInt16.ofNat ((world.memory.putField world.queue.availEventAddr 2 _).field
      (address world.queue.availAddr 2) 2) = _
    rw [field_putField_apart laid.event_apart.symm]
    rfl
  constructor
  · rw [stepped] at event ⊢
    refine { laid with
      avail := (mapped_putField _ _ _ _ _ _).trans laid.avail
      used := (mapped_putField _ _ _ _ _ _).trans laid.used, cached := ?_ }
    rintro value ⟨⟩
    exact event
  · unfold World.view
    rw [event, index, stepped]
    rfl

/-- A return writes neither word. -/
theorem complete (head : UInt16) (len : UInt32) :
    Laid (world.step (.complete head len)) ∧
      (world.step (.complete head len)).view = world.view.step .other := by
  have geometry := world.queue.geometry_pushUsed world.memory head len
  obtain ⟨cursor, asked⟩ := world.queue.pushUsed_keeps world.memory head len
  have inside : SameOutside world.queue.usedAddr (4 + world.queue.size.toNat * 8) world.memory
      (world.queue.pushUsed world.memory head len).2 := by
    by_cases marked : world.queue.outstanding[head.toNat]? = some true
    · rw [pushUsed_outstanding marked]
      simp only [laid.split, Bool.false_eq_true, if_false]
      exact Interrupt.pushUsedSplit_inside laid.used laid.positive head len
    · rw [pushUsed_refused marked]
      exact SameOutside.refl _ _ _
  have apart := laid.apart
  obtain ⟨index, event⟩ : (world.step (.complete head len)).index = world.index ∧
      (world.step (.complete head len)).event = world.event := by
    refine words_congr geometry (inside.field ?_) (inside.field ?_)
    · rw [laid.indexAddr]
      omega
    · rw [laid.eventAddr]
      omega
  refine ⟨laid.congr geometry asked inside.regions event, ?_⟩
  unfold World.view
  rw [index, event]
  simp only [World.step, cursor]
  rfl

theorem elsewhere {bytes : Nat → UInt8} (legal : world.Allowed (.elsewhere bytes)) :
    Laid (world.step (.elsewhere bytes)) ∧
      (world.step (.elsewhere bytes)).view = world.view.step .other := by
  obtain ⟨index, event⟩ : (world.step (.elsewhere bytes)).index = world.index ∧
      (world.step (.elsewhere bytes)).event = world.event := by
    refine words_congr rfl (congrArg Fixed.fromLe (content_congr ?_))
      (congrArg Fixed.fromLe (content_congr ?_))
    · intro position after before
      exact legal position (Or.inl ⟨after, before⟩)
    · intro position after before
      exact legal position (Or.inr ⟨after, before⟩)
  refine ⟨laid.congr rfl rfl rfl event, ?_⟩
  unfold World.view
  rw [index, event]
  rfl

theorem notify : Laid world.notify ∧ world.notify.view = world.view.begin := by
  unfold World.notify Bell.begin
  by_cases active : world.activated = true
  · rw [if_pos active, if_pos (show world.view.opened = true from active)]
    exact ⟨laid.congr rfl rfl rfl rfl, rfl⟩
  · rw [if_neg active, if_neg (show ¬world.view.opened = true from active)]
    exact ⟨laid.congr rfl rfl rfl rfl, rfl⟩

/-- Every step of the ring is a step of the bell. -/
theorem step (act : Act) (legal : world.Allowed act) :
    Laid (world.step act) ∧ (world.step act).view = world.view.step (world.shadow act) := by
  cases act with
  | advance chains => exact laid.advance chains
  | decide =>
    simp only [World.step, World.shadow, Bell.step]
    split
    · rename_i finished
      exact ⟨laid, by rw [show world.view.publishing = none from finished]⟩
    rename_i old half
    refine ⟨laid.congr rfl rfl rfl rfl, ?_⟩
    rw [show world.view.publishing = some old from half]
    rfl
  | ring =>
    have answered : Laid { world with kicks := world.kicks - 1 } := laid.congr rfl rfl rfl rfl
    exact answered.notify
  | pop =>
    obtain ⟨before, serving⟩ := legal
    exact laid.pop serving
  | arm => exact laid.arm
  | look =>
    simp only [World.step, World.shadow, Bell.step, laid.hasWork_eq]
    refine ⟨laid.congr rfl rfl rfl rfl, ?_⟩
    change World.view { world with stage := _ } = { world.view with
      stage := if world.index = world.queue.nextAvail then .closing false
        else .service (some world.queue.nextAvail) }
    by_cases level : world.index = world.queue.nextAvail
    · rw [if_pos level, if_neg (by simp [level])]
      rfl
    · rw [if_neg level, if_pos (by simp [level])]
      rfl
  | close others =>
    obtain ⟨moved, closing⟩ := legal
    have also : world.view.stage = .closing moved := closing
    simp only [World.step, World.shadow, Bell.step, closing, also]
    exact ⟨laid.congr rfl rfl rfl rfl, rfl⟩
  | driverOk | pass => exact ⟨laid.congr rfl rfl rfl rfl, rfl⟩
  | poll =>
    simp only [World.step, World.shadow, Bell.step, laid.hasWork_eq]
    by_cases level : world.index = world.queue.nextAvail
    · rw [if_pos (show world.view.index = world.view.cursor from level), if_neg (by simp [level])]
      exact ⟨laid, rfl⟩
    · rw [if_neg (show ¬world.view.index = world.view.cursor from level), if_pos (by simp [level])]
      exact laid.notify
  | complete head len => exact laid.complete head len
  | elsewhere bytes => exact laid.elsewhere legal

end

/-- What the ring's steps are allowed, the bell's are. -/
theorem allowed_shadow (act : Act) (legal : world.Allowed act) :
    world.view.Allowed (world.shadow act) := by
  cases act with
  | decide => trivial
  | complete head len => trivial
  | elsewhere bytes => trivial
  | _ => exact legal

end Laid

/-- A ring as the driver lays it out: zeroed, with nothing published and nothing
taken, and the driver not ready yet. -/
structure Fresh (world : World) : Prop where
  laid : Laid world
  cursor : world.queue.nextAvail = 0
  index : world.index = 0
  event : world.event = 0
  publishing : world.publishing = none
  idle : world.stage = .idle

/-- Whatever the driver and the transport do and in whatever order, once the driver is
ready, no pass is running, no kick is pending and no publication is half done, the
device has taken everything the driver published. -/
theorem no_lost_request (start : World) (fresh : Fresh start) (acts : List Act)
    (legal : Transition.Legal World.Allowed World.step start acts) :
    let world := Transition.run World.step start acts
    world.activated = true → world.stage = .idle → world.kicks = 0 → world.publishing = none →
      world.queue.availIdx world.memory = some world.queue.nextAvail := by
  intro world active idle silent done
  have initial : Laid start ∧ start.view.Sound := by
    refine ⟨fresh.laid, ?_⟩
    simp only [Bell.Sound, show start.view.stage = .idle from fresh.idle]
    exact Or.inr (Or.inr ⟨fresh.index.trans fresh.cursor.symm,
      fresh.event.trans fresh.cursor.symm⟩)
  obtain ⟨laid, sound⟩ : Laid world ∧ world.view.Sound :=
    Transition.run_invariant World.Allowed World.step (fun world => Laid world ∧ world.view.Sound)
      (fun before act holds permitted => by
        obtain ⟨laid, sound⟩ := holds
        obtain ⟨next, same⟩ := laid.step act permitted
        exact ⟨next, same ▸ sound.step _ (Laid.allowed_shadow act permitted)⟩)
      start acts initial legal
  rw [laid.availIdx_eq]
  exact congrArg some (sound.level active idle silent done)

/-- A ring of two entries, and the driver not ready. -/
def pair : World where
  queue :=
    { Virtqueue.new 256 with
      size := 2, descAddr := 4096, availAddr := 8192, usedAddr := 8448, ready := true
      eventIdx := true }
  memory := ⟨[⟨4096, 8192⟩], fun _ => 0⟩
  publishing := none
  kicks := 0
  activated := false
  early := false
  stage := .idle

theorem pair_fresh : Fresh pair := by
  have laid : Laid pair := by
    constructor
    · rfl
    · rfl
    · rfl
    · rfl
    · decide
    · decide
    · decide
    · decide
    · decide
    · intro value noted
      cases noted
  exact ⟨laid, rfl, by decide, by decide, rfl, rfl⟩

/-- Two entries, the first with a head out of range, published and kicked for before the
driver is ready. -/
def earlyBird : List Act :=
  [.elsewhere fun position => if position = 8196 then 9 else 0, .advance 2, .decide, .ring,
    .driverOk, .ring, .pop, .arm, .look, .pop, .pop, .close false, .arm, .look, .close false]

theorem no_lost_request_earlyBird :
    let world := Transition.run World.step pair earlyBird
    world.queue.nextAvail = 2 ∧
      world.queue.availIdx world.memory = some world.queue.nextAvail := by
  refine ⟨by decide, no_lost_request pair pair_fresh earlyBird ?_ (by decide) (by decide)
    (by decide) (by decide)⟩
  have apart : pair.Allowed (.elsewhere fun position => if position = 8196 then 9 else 0) := by
    intro position place
    have index : address pair.queue.availAddr 2 = 8194 := by decide
    have event : pair.queue.availEventAddr = 8468 := by decide
    rw [index, event] at place
    exact if_neg (by omega)
  refine ⟨apart, ⟨rfl, by decide⟩, trivial, ⟨by decide, rfl⟩, ⟨rfl, rfl⟩, ⟨by decide, rfl⟩,
    ⟨_, rfl⟩, ?_, ?_, ⟨some 1, by decide⟩, ⟨some 1, by decide⟩, ⟨true, by decide⟩,
    ?_, ?_, ⟨false, by decide⟩, trivial⟩
  all_goals
    change World.stage _ = _
    decide

end Lighter.Virtio.Request
