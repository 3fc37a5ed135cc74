import Lighter.Virtio.PackedCells
import Lighter.Virtio.QueueLaws

/-!
# No completion interrupt is lost

A driver that has run out of used entries writes the position of the next one where
the device looks for it, looks at the ring once more, and sleeps if that entry is not
there. The device completes chains and asks now and then whether an interrupt is
owed. Each of these is a step, in any order.

Beside the device's counters, which wrap, and its position and lap, the world keeps
how many slots have been completed, how many had been when the device last asked, and
how many the driver has taken back. In a split ring every chain is one slot. Nothing
ties where these counts start to zero: the counters may begin anywhere.
-/

namespace Lighter.Virtio.Interrupt

open GuestMemory Lap
open UInt16 (ofNat toNat_inj)

/-- What the driver has done of going to sleep. -/
inductive Phase where
  | running
  /-- The position it waits for is written, -/
  | placed
  /-- and, in a packed ring, the flags that make it current. -/
  | armed
  /-- It looked again, did not find the entry, and sleeps. -/
  | asleep
deriving DecidableEq, Repr

structure World where
  queue : Virtqueue
  memory : GuestMemory
  /-- Slots completed, completed when the device last asked, and taken back. -/
  used : Nat
  checked : Nat
  seen : Nat
  phase : Phase

inductive Act where
  /-- The device returns a chain, -/
  | complete (head : UInt16) (len : UInt32)
  /-- asks whether an interrupt is owed, -/
  | check
  /-- takes a chain, -/
  | pop
  /-- and says when it wants to be kicked. -/
  | arm
  /-- The driver takes used entries back, -/
  | reclaim (slots : Nat)
  | place
  | enable
  | recheck
  /-- and stops waiting, for whatever reason. -/
  | wake
  | elsewhere (bytes : Nat → UInt8)

/-- The offset and the wrap counter of a place, as one word. -/
def offWrap (size place : Nat) : UInt16 :=
  UInt16.ofNat (place % size + if lap size place then 32768 else 0)

/-- The slots a return of this head completes: none if it is refused. -/
def returned (queue : Virtqueue) (head : UInt16) : Nat :=
  if queue.outstanding[head.toNat]? = some true then
    if queue.packed then (max (queue.chainLen.getD head.toNat 1) 1).toNat else 1
  else 0

namespace World

def size (world : World) : Nat := world.queue.size.toNat

/-- Where the driver writes the position it waits for. -/
def eventAddr (world : World) : Nat :=
  if world.queue.packed then world.queue.availAddr else world.queue.usedEventAddr

/-- The words about it: the position, and the flags after it in a packed ring. -/
def eventLen (world : World) : Nat := if world.queue.packed then 4 else 2

/-- The position, in the layout's form. -/
def position (world : World) : UInt16 :=
  if world.queue.packed then offWrap world.size world.seen else UInt16.ofNat world.seen

def step (world : World) : Act → World
  | .complete head len =>
      let (queue, memory) := world.queue.pushUsed world.memory head len
      { world with
        queue := queue, memory := memory, used := world.used + returned world.queue head }
  | .check =>
      { world with queue := (world.queue.needsInterrupt world.memory).1, checked := world.used }
  | .pop => { world with queue := (world.queue.pop world.memory).1 }
  | .arm =>
      let (queue, memory) := world.queue.armNotifications world.memory
      { world with queue := queue, memory := memory }
  | .reclaim slots => { world with seen := world.seen + slots }
  | .place =>
      { world with
        memory := world.memory.putU16 world.eventAddr world.position, phase := .placed }
  | .enable =>
      { world with
        memory :=
          if world.queue.packed then
            world.memory.putU16 (address world.queue.availAddr 2) eventDesc
          else world.memory
        phase := .armed }
  | .recheck => { world with phase := if world.used = world.seen then .asleep else .running }
  | .wake => { world with phase := .running }
  | .elsewhere bytes => { world with memory := { world.memory with bytes := bytes } }

/-- Fewer than 65536 slots between two questions, never more than a ring not taken
back; the driver follows its order; and its event words are its own while it waits. -/
def Allowed (world : World) : Act → Prop
  | .complete head _ =>
      world.used + returned world.queue head ≤ world.seen + world.size ∧
        world.used + returned world.queue head < world.checked + 65536
  | .reclaim slots => world.phase = .running ∧ world.seen + slots ≤ world.used
  | .place => world.phase = .running
  | .enable => world.phase = .placed
  | .recheck => world.phase = .armed
  | .elsewhere bytes => world.phase ≠ .running → ∀ position, world.eventAddr ≤ position →
      position < world.eventAddr + world.eventLen →
      bytes position = world.memory.bytes position
  | _ => True

end World

/-- The words and rings are in memory, the driver's apart from what the device
writes. -/
structure Placed (queue : Virtqueue) (memory : GuestMemory) : Prop where
  packed : queue.packed = true → memory.mapped queue.availAddr 4 = true ∧
    Backs memory queue.descAddr queue.size.toNat ∧
    (queue.availAddr + 4 ≤ queue.descAddr ∨
      queue.descAddr + queue.size.toNat * descSize ≤ queue.availAddr)
  split : queue.packed = false →
    memory.mapped queue.availAddr (6 + queue.size.toNat * 2) = true ∧
    memory.mapped queue.usedAddr (6 + queue.size.toNat * 8) = true ∧
    (queue.availAddr + (6 + queue.size.toNat * 2) ≤ queue.usedAddr ∨
      queue.usedAddr + (6 + queue.size.toNat * 8) ≤ queue.availAddr)

/-- The device's counters are the counts, from wherever the free-running ones
began. -/
structure Counts (offset : Nat) (world : World) : Prop where
  split : world.queue.packed = false →
    world.queue.nextUsed = UInt16.ofNat world.used ∧
      world.queue.signalledUsed = UInt16.ofNat world.checked
  packed : world.queue.packed = true →
    world.queue.nextUsed = UInt16.ofNat (world.used % world.size) ∧
      world.queue.usedWrap = lap world.size world.used ∧
      world.queue.usedTotal = UInt16.ofNat (offset + world.used) ∧
      world.queue.signalledTotal = UInt16.ofNat (offset + world.checked)

structure Sound (offset : Nat) (world : World) : Prop where
  power : isPowerOfTwo world.queue.size = true
  eventIdx : world.queue.eventIdx = true
  placed : Placed world.queue world.memory
  counts : Counts offset world
  asked : world.checked ≤ world.used
  near : world.used < world.checked + 65536
  taken : world.seen ≤ world.used
  room : world.used ≤ world.seen + world.size
  /-- While the driver waits its words say where. -/
  position : world.phase ≠ .running →
    UInt16.ofNat (world.memory.field world.eventAddr 2) = world.position
  flags : world.phase = .armed ∨ world.phase = .asleep → world.queue.packed = true →
    UInt16.ofNat (world.memory.field (world.queue.availAddr + 2) 2) = eventDesc

/-- What the device writes: its ring entries, or the used ring with the word after
it. -/
def deviceArea (queue : Virtqueue) : Nat × Nat :=
  if queue.packed then (queue.descAddr, queue.size.toNat * descSize)
  else (queue.usedAddr, 6 + queue.size.toNat * 8)

/-- A queue at another's place in the used ring. -/
def placedAs (queue other : Virtqueue) : Virtqueue :=
  { queue with
    nextUsed := other.nextUsed, usedWrap := other.usedWrap
    signalledUsed := other.signalledUsed, usedTotal := other.usedTotal
    signalledTotal := other.signalledTotal }

/-- The low words of a place of a ring. -/
theorem offWrap_wrap {size : Nat} (positive : 0 < size) (small : size ≤ 32768) (place : Nat) :
    (offWrap size place >>> 15 != 0) = lap size place := by
  have inside := Nat.mod_lt place positive
  have shifted : (offWrap size place >>> 15).toNat = if lap size place then 1 else 0 := by
    rw [UInt16.toNat_shiftRight, offWrap, UInt16.toNat_ofNat',
      show (15 : UInt16).toNat % 16 = 15 from rfl, Nat.shiftRight_eq_div_pow]
    split <;> omega
  cases parity : lap size place with
  | false =>
    have none : offWrap size place >>> 15 = 0 := by
      rw [← toNat_inj, shifted, parity]
      rfl
    simp [none]
  | true =>
    have one : offWrap size place >>> 15 = 1 := by
      rw [← toNat_inj, shifted, parity]
      rfl
    rw [one]
    rfl

theorem offWrap_position {size : Nat} (positive : 0 < size) (small : size ≤ 32768)
    (place : Nat) : offWrap size place &&& ~~~eventWrap = ofNat (place % size) := by
  have inside := Nat.mod_lt place positive
  have mask : ~~~eventWrap = (32767 : UInt16) := by decide
  have low : ∀ number : Nat, number &&& 32767 = number % 32768 := by
    intro number
    exact Nat.and_two_pow_sub_one_eq_mod number 15
  rw [← toNat_inj, mask, UInt16.toNat_and, offWrap, UInt16.toNat_ofNat',
    UInt16.toNat_ofNat', show (32767 : UInt16).toNat = 32767 from rfl, low]
  split <;> omega

namespace Placed

variable {queue : Virtqueue} {memory : GuestMemory}

theorem congr {other : Virtqueue} {after : GuestMemory} (placed : Placed queue memory)
    (geometry : other.geometry = queue.geometry) (regions : after.regions = memory.regions) :
    Placed other after := by
  simp only [Virtqueue.geometry, Geometry.mk.injEq] at geometry
  obtain ⟨_, size, desc, avail, used, _, layout, _⟩ := geometry
  constructor
  · rw [size, desc, avail, layout, mapped_congr regions]
    intro packed
    obtain ⟨words, backs, apart⟩ := placed.packed packed
    exact ⟨words, backs.congr regions, apart⟩
  · rw [size, avail, used, layout, mapped_congr regions, mapped_congr regions]
    exact placed.split

/-- The driver's words are mapped, and apart from what the device writes. -/
theorem event (placed : Placed queue memory) {world : World} (mine : world.queue = queue) :
    memory.mapped world.eventAddr 2 = true ∧
      (world.eventAddr + world.eventLen ≤ (deviceArea queue).1 ∨
        (deviceArea queue).1 + (deviceArea queue).2 ≤ world.eventAddr) := by
  subst mine
  unfold World.eventAddr World.eventLen deviceArea
  cases layout : world.queue.packed with
  | true =>
    obtain ⟨words, _, apart⟩ := placed.packed layout
    exact ⟨memory.mapped_part 0 2 words (by omega), apart⟩
  | false =>
    obtain ⟨avail, _, apart⟩ := placed.split layout
    have below := mapped_below avail
    have located : world.queue.usedEventAddr =
        world.queue.availAddr + (4 + world.queue.size.toNat * 2) := address_eq (by omega)
    simp only [Bool.false_eq_true, if_false]
    rw [located]
    exact ⟨memory.mapped_part _ 2 avail (by omega), by omega⟩

end Placed

section Writes

variable {queue : Virtqueue} {memory : GuestMemory}

/-- In a split ring a return writes an entry of the used ring and the index before the
entries. -/
theorem pushUsedSplit_inside (used : memory.mapped queue.usedAddr (6 + queue.size.toNat * 8) = true)
    (positive : 0 < queue.size.toNat) (head : UInt16) (len : UInt32) :
    SameOutside queue.usedAddr (4 + queue.size.toNat * 8) memory
      (queue.pushUsedSplit memory head len).2 := by
  have below := mapped_below used
  have slot : (queue.nextUsed % queue.size).toNat < queue.size.toNat := by
    rw [UInt16.toNat_mod]
    exact Nat.mod_lt _ positive
  have element : address queue.usedAddr (4 + (queue.nextUsed % queue.size).toNat * 8) =
      queue.usedAddr + (4 + (queue.nextUsed % queue.size).toNat * 8) := address_eq (by omega)
  have second : address (queue.usedAddr + (4 + (queue.nextUsed % queue.size).toNat * 8)) 4 =
      queue.usedAddr + (4 + (queue.nextUsed % queue.size).toNat * 8) + 4 :=
    address_eq (by omega)
  have index : address queue.usedAddr 2 = queue.usedAddr + 2 := address_eq (by omega)
  simp only [Virtqueue.pushUsedSplit, element, second, index, putU32, putU16]
  refine ((SameOutside.putField memory _ ?_ ?_).trans
    (SameOutside.putField _ _ ?_ ?_)).trans (SameOutside.putField _ _ ?_ ?_)
  all_goals omega

/-- A return writes where the device writes. -/
theorem pushUsed_inside (placed : Placed queue memory) (power : isPowerOfTwo queue.size = true)
    (cursor : queue.packed = true → queue.nextUsed.toNat < queue.size.toNat) (head : UInt16)
    (len : UInt32) : SameOutside (deviceArea queue).1 (deviceArea queue).2 memory
      (queue.pushUsed memory head len).2 := by
  obtain ⟨_, positive, _⟩ := dvd_of_isPowerOfTwo power
  by_cases marked : queue.outstanding[head.toNat]? = some true
  · rw [Virtqueue.pushUsed_outstanding marked]
    unfold deviceArea
    cases layout : queue.packed with
    | true =>
      obtain ⟨_, backs, _⟩ := placed.packed layout
      have place : queue.nextUsed.toNat = queue.nextUsed.toNat % queue.size.toNat :=
        (Nat.mod_eq_of_lt (cursor layout)).symm
      simp only [if_true]
      exact Packed.pushUsedPacked_inside rfl place backs positive head len
    | false =>
      obtain ⟨_, used, _⟩ := placed.split layout
      simp only [Bool.false_eq_true, if_false]
      refine SameOutside.widen (pushUsedSplit_inside ?_ positive head len) (Nat.le_refl _) ?_
      · exact used
      · omega
  · rw [Virtqueue.pushUsed_refused marked]
    exact SameOutside.refl _ _ memory

theorem arm_inside (placed : Placed queue memory) :
    SameOutside (deviceArea queue).1 (deviceArea queue).2 memory
      (queue.armNotifications memory).2 := by
  rcases queue.armNotifications_memory memory with same | ⟨layout, value, written⟩
  · rw [same]
    exact SameOutside.refl _ _ memory
  obtain ⟨_, used, _⟩ := placed.split layout
  have below := mapped_below used
  have word : queue.availEventAddr = queue.usedAddr + (4 + queue.size.toNat * 8) :=
    address_eq (by omega)
  rw [written, word, deviceArea, layout]
  refine SameOutside.putField memory _ ?_ ?_
  · simp
  · simp only [Bool.false_eq_true, if_false]
    omega

end Writes

namespace Sound

variable {offset : Nat} {world : World}

section

variable (sound : Sound offset world)
include sound

theorem divides : world.size ∣ 65536 :=
  (dvd_of_isPowerOfTwo sound.power).1

theorem positive : 0 < world.size :=
  (dvd_of_isPowerOfTwo sound.power).2.1

theorem small : world.size ≤ 32768 :=
  (dvd_of_isPowerOfTwo sound.power).2.2

/-- The queue's geometry, its place in the used ring and the event words are all that
matters of the device. -/
theorem congr {queue : Virtqueue} {memory : GuestMemory}
    (geometry : queue.geometry = world.queue.geometry)
    (completion : queue.completion = world.queue.completion)
    (regions : memory.regions = world.memory.regions)
    (words : world.phase ≠ .running → ∀ gpa, world.eventAddr ≤ gpa →
      gpa + 2 ≤ world.eventAddr + world.eventLen →
      memory.field gpa 2 = world.memory.field gpa 2) :
    Sound offset { world with queue := queue, memory := memory } := by
  have placed := sound.placed.congr geometry regions
  simp only [Virtqueue.geometry, Geometry.mk.injEq] at geometry
  simp only [Virtqueue.completion, Completion.mk.injEq] at completion
  obtain ⟨_, size, _, avail, _, _, layout, events⟩ := geometry
  obtain ⟨nextUsed, usedWrap, signalledUsed, usedTotal, signalledTotal⟩ := completion
  have same : World.size { world with queue := queue, memory := memory } = world.size := by
    simp [World.size, size]
  have event : World.eventAddr { world with queue := queue, memory := memory } =
      world.eventAddr := by
    simp [World.eventAddr, Virtqueue.usedEventAddr, layout, avail, size]
  have position : World.position { world with queue := queue, memory := memory } =
      world.position := by
    simp [World.position, layout, World.size, size]
  have counts := sound.counts
  constructor
  · exact size ▸ sound.power
  · exact events.trans sound.eventIdx
  · exact placed
  · constructor
    · intro split
      rw [nextUsed, signalledUsed]
      exact counts.split (layout ▸ split)
    · have packed := counts.packed
      grind
  · exact sound.asked
  · exact sound.near
  · exact sound.taken
  · rw [same]
    exact sound.room
  · have position := sound.position
    grind [World.eventLen]
  · intro waiting packed
    have mine : world.queue.packed = true := layout ▸ packed
    have start : world.eventAddr = world.queue.availAddr := by simp [World.eventAddr, mine]
    have wide : world.eventLen = 4 := by simp [World.eventLen, mine]
    have asleep : world.phase ≠ .running := by grind
    rw [avail, words asleep _ (by omega) (by omega)]
    exact sound.flags waiting mine

/-- What lies outside the device's area is left to the driver. -/
theorem words_outside {memory : GuestMemory}
    (inside : SameOutside (deviceArea world.queue).1 (deviceArea world.queue).2 world.memory
      memory) (gpa : Nat) (low : world.eventAddr ≤ gpa)
    (high : gpa + 2 ≤ world.eventAddr + world.eventLen) :
    memory.field gpa 2 = world.memory.field gpa 2 := by
  have apart := (sound.placed.event rfl).2
  exact inside.field (by omega)

theorem cursor (packed : world.queue.packed = true) :
    world.queue.nextUsed.toNat = world.used % world.size := by
  have inside := Nat.mod_lt world.used sound.positive
  have small := sound.small
  rw [(sound.counts.packed packed).1]
  exact UInt16.toNat_ofNat_of_lt' (by simp only [UInt16.size]; omega)

theorem complete {head : UInt16} {len : UInt32} (legal : world.Allowed (.complete head len)) :
    Sound offset (world.step (.complete head len)) := by
  obtain ⟨room, near⟩ := legal
  have cursor := sound.cursor
  have positive := sound.positive
  have taken := sound.taken
  have asked := sound.asked
  have inside := pushUsed_inside sound.placed sound.power
    (fun packed => by rw [cursor packed]; exact Nat.mod_lt _ positive) head len
  have geometry := world.queue.geometry_pushUsed world.memory head len
  have words := sound.words_outside inside
  by_cases marked : world.queue.outstanding[head.toNat]? = some true
  · -- First the memory and the queue's other parts, then the counters that moved.
    let done := world.queue.pushUsed world.memory head len
    have kept : Sound offset { world with
        queue := placedAs done.1 world.queue, memory := done.2 } :=
      sound.congr geometry rfl inside.regions fun _ => words
    have layout : done.1.packed = world.queue.packed := congrArg Geometry.packed geometry
    have sized : World.size (world.step (.complete head len)) = world.size :=
      congrArg (fun geometry => geometry.size.toNat) geometry
    have counts : Counts offset (world.step (.complete head len)) := by
      constructor
      · intro split
        have mine : world.queue.packed = false := layout ▸ split
        obtain ⟨next, signalled⟩ := sound.counts.split mine
        have one : returned world.queue head = 1 := by simp [returned, marked, mine]
        have pushed := Virtqueue.pushUsed_outstanding marked world.memory len
        simp only [mine, Bool.false_eq_true, if_false, Virtqueue.pushUsedSplit] at pushed
        simp only [World.step, pushed, one]
        refine ⟨?_, signalled⟩
        rw [next, UInt16.ofNat_add]
        rfl
      intro packed
      have mine : world.queue.packed = true := layout ▸ packed
      obtain ⟨_, wrap, total, signalled⟩ := sound.counts.packed mine
      have slots : returned world.queue head =
          (max (world.queue.chainLen.getD head.toNat 1) 1).toNat := by
        simp [returned, marked, mine]
      have short : (max (world.queue.chainLen.getD head.toNat 1) 1).toNat ≤ world.size := by
        omega
      have pushed := Virtqueue.pushUsed_outstanding marked world.memory len
      simp only [mine, if_true, Virtqueue.pushUsedPacked] at pushed
      rw [sized]
      simp only [World.step, pushed, slots]
      refine ⟨?_, ?_, ?_, signalled⟩
      · rw [cursor mine]
        change ofNat ((world.used % world.size + _) % world.size) = _
        rw [Nat.mod_add_mod]
      · rw [cursor mine, wrap]
        exact (lap_add positive short world.used).symm
      · rw [total, ← Nat.add_assoc, UInt16.ofNat_add (offset + world.used), UInt16.ofNat_toNat]
    have within : (world.step (.complete head len)).used ≤ world.seen +
        World.size (world.step (.complete head len)) := by
      rw [sized]
      exact room
    exact ⟨kept.power, kept.eventIdx, sound.placed.congr geometry inside.regions, counts,
      le_trans asked (Nat.le_add_right _ _), near, le_trans taken (Nat.le_add_right _ _), within,
      kept.position, kept.flags⟩
  · have none : returned world.queue head = 0 := by simp [returned, marked]
    have idle : world.step (.complete head len) = world := by
      simp [World.step, Virtqueue.pushUsed_refused marked, none]
    rw [idle]
    exact sound

/-- The split question, at the driver's word. -/
theorem needsInterrupt_split (split : world.queue.packed = false) :
    world.queue.needsInterrupt world.memory =
      ({ world.queue with signalledUsed := world.queue.nextUsed },
        needEvent (ofNat (world.memory.field world.eventAddr 2)) world.queue.nextUsed
          world.queue.signalledUsed) := by
  have mapped := (sound.placed.event rfl).1
  have event : world.eventAddr = world.queue.usedEventAddr := by simp [World.eventAddr, split]
  rw [event] at mapped ⊢
  unfold Virtqueue.needsInterrupt
  simp [split, sound.eventIdx, readU16_of_mapped mapped]

theorem check : Sound offset (world.step .check) := by
  have geometry := world.queue.geometry_needsInterrupt world.memory
  let checked := (world.queue.needsInterrupt world.memory).1
  have layout : checked.packed = world.queue.packed := congrArg Geometry.packed geometry
  have kept : Sound offset { world with queue := placedAs checked world.queue } :=
    sound.congr geometry rfl rfl fun _ _ _ _ => rfl
  have counts : Counts offset (world.step .check) := by
    constructor
    · intro split
      have mine : world.queue.packed = false := layout ▸ split
      obtain ⟨next, _⟩ := sound.counts.split mine
      simp only [World.step, sound.needsInterrupt_split mine]
      exact ⟨next, next⟩
    intro packed
    have mine : world.queue.packed = true := layout ▸ packed
    obtain ⟨next, wrap, total, _⟩ := sound.counts.packed mine
    have asked : (world.queue.needsInterrupt world.memory).1 =
        { world.queue with signalledTotal := world.queue.usedTotal } := by
      rw [Virtqueue.needsInterrupt, mine]
      exact world.queue.needsInterruptPacked_queue world.memory
    simp only [World.step, World.size, asked]
    exact ⟨next, wrap, total, total⟩
  have near : world.used < world.used + 65536 := by omega
  exact ⟨kept.power, kept.eventIdx, kept.placed.congr rfl rfl, counts, Nat.le_refl _, near,
    sound.taken, kept.room, kept.position, kept.flags⟩

theorem place : Sound offset (world.step .place) := by
  have mapped := (sound.placed.event rfl).1
  refine { sound with
    placed := sound.placed.congr rfl (regions_putField _ _ _ _)
    counts := ⟨sound.counts.split, sound.counts.packed⟩, position := ?_, flags := ?_ }
  · intro _
    exact ofNat_field_putU16 mapped _
  · intro waiting
    rcases waiting with armed | asleep
    · cases armed
    · cases asleep

theorem enable (legal : world.Allowed .enable) : Sound offset (world.step .enable) := by
  have placed : world.phase = .placed := legal
  have waiting : world.phase ≠ .running := by rw [placed]; decide
  have held := sound.position waiting
  cases layout : world.queue.packed with
  | true =>
    obtain ⟨words, _, _⟩ := sound.placed.packed layout
    have below := mapped_below words
    have target : address world.queue.availAddr 2 = world.queue.availAddr + 2 :=
      address_eq (by omega)
    have mapped : world.memory.mapped (world.queue.availAddr + 2) 2 = true :=
      world.memory.mapped_part 2 2 words (by omega)
    have event : world.eventAddr = world.queue.availAddr := by simp [World.eventAddr, layout]
    have stepped : world.step .enable = { world with
        memory := world.memory.putField (world.queue.availAddr + 2) 2 eventDesc.toNat
        phase := .armed } := by
      simp [World.step, layout, target, putU16]
    rw [stepped]
    refine { sound with
      placed := sound.placed.congr rfl (regions_putField _ _ _ _)
      counts := ⟨sound.counts.split, sound.counts.packed⟩, position := ?_, flags := ?_ }
    · intro _
      change ofNat ((world.memory.putField (world.queue.availAddr + 2) 2 _).field
        world.eventAddr 2) = world.position
      rw [field_putField_apart (by omega)]
      exact held
    · intro _ _
      rw [field_putField_same mapped]
      rfl
  | false =>
    have stepped : world.step .enable = { world with phase := .armed } := by
      simp [World.step, layout]
    rw [stepped]
    refine { sound with
      counts := ⟨sound.counts.split, sound.counts.packed⟩, position := fun _ => held, flags := ?_ }
    intro _ packed
    rw [show world.queue.packed = true from packed] at layout
    cases layout

theorem recheck (legal : world.Allowed .recheck) : Sound offset (world.step .recheck) := by
  have armed : world.phase = .armed := legal
  have waiting : world.phase ≠ .running := by rw [armed]; decide
  exact { sound with
    counts := ⟨sound.counts.split, sound.counts.packed⟩
    position := fun _ => sound.position waiting
    flags := fun _ => sound.flags (Or.inl armed) }

theorem wake : Sound offset (world.step .wake) := by
  refine { sound with
    counts := ⟨sound.counts.split, sound.counts.packed⟩, position := ?_, flags := ?_ }
  · intro waiting
    exact absurd rfl waiting
  · rintro (armed | asleep)
    · cases armed
    · cases asleep

theorem reclaim {slots : Nat}
    (legal : world.Allowed (.reclaim slots)) : Sound offset (world.step (.reclaim slots)) := by
  obtain ⟨running, within⟩ := legal
  have room := sound.room
  refine { sound with
    counts := ⟨sound.counts.split, sound.counts.packed⟩
    taken := within, room := ?_, position := ?_, flags := ?_ }
  · change world.used ≤ world.seen + slots + world.size
    omega
  · intro waiting
    exact absurd running waiting
  intro waiting
  change world.phase = .armed ∨ world.phase = .asleep at waiting
  rw [running] at waiting
  rcases waiting with armed | asleep
  · cases armed
  · cases asleep

theorem elsewhere {bytes : Nat → UInt8} (legal : world.Allowed (.elsewhere bytes)) :
    Sound offset (world.step (.elsewhere bytes)) := by
  refine sound.congr rfl rfl rfl ?_
  intro waiting gpa low high
  refine congrArg Fixed.fromLe (content_congr ?_)
  intro position after before
  exact legal waiting position (by omega) (by omega)

theorem step (act : Act) (legal : world.Allowed act) : Sound offset (world.step act) := by
  cases act with
  | complete head len => exact sound.complete legal
  | check => exact sound.check
  | pop =>
    obtain ⟨geometry, completion⟩ := world.queue.pop_keeps world.memory
    exact sound.congr geometry completion rfl fun _ _ _ _ => rfl
  | arm =>
    obtain ⟨geometry, completion⟩ := world.queue.armNotifications_keeps world.memory
    have inside := arm_inside sound.placed
    exact sound.congr geometry completion inside.regions fun _ => sound.words_outside inside
  | reclaim slots => exact sound.reclaim legal
  | place => exact sound.place
  | enable => exact sound.enable legal
  | recheck => exact sound.recheck legal
  | wake => exact sound.wake
  | elsewhere bytes => exact sound.elsewhere legal

/-- How far behind the device's cursor a place is, as the device computes it from the
position and the lap.

Proof: a distance short of a ring is the difference of the positions. A whole ring has
the same position and the other lap, and no distance at all the same lap. -/
theorem behind_eq (packed : world.queue.packed = true) :
    (let behind := (world.queue.nextUsed - ofNat (world.seen % world.size)) %
        world.queue.size
      if behind = 0 && lap world.size world.seen != world.queue.usedWrap then world.queue.size
      else behind) = ofNat (world.used - world.seen) := by
  obtain ⟨next, wrap, _, _⟩ := sound.counts.packed packed
  have positive := sound.positive
  have small := sound.small
  have taken := sound.taken
  have room := sound.room
  have distance : ((world.queue.nextUsed - ofNat (world.seen % world.size)) %
      world.queue.size).toNat = (world.used - world.seen) % world.size := by
    rw [UInt16.toNat_mod, next]
    exact toNat_distance sound.divides positive taken
  have narrow : (ofNat (world.used - world.seen)).toNat = world.used - world.seen :=
    UInt16.toNat_ofNat_of_lt' (by simp only [UInt16.size]; omega)
  dsimp only
  rcases Nat.lt_or_ge (world.used - world.seen) world.size with short | whole
  · have modest : (world.used - world.seen) % world.size = world.used - world.seen :=
      Nat.mod_eq_of_lt short
    rw [modest] at distance
    have same : (world.queue.nextUsed - ofNat (world.seen % world.size)) %
        world.queue.size = ofNat (world.used - world.seen) := by
      rw [← toNat_inj, distance, narrow]
    rw [same]
    split
    · next other =>
      obtain ⟨none, parity⟩ := Bool.and_eq_true_iff.mp other
      have level : world.used - world.seen = 0 := by
        rw [← narrow, of_decide_eq_true none]
        rfl
      rw [wrap, show world.used = world.seen by omega] at parity
      simp at parity
    · rfl
  · have ring : world.used = world.seen + world.size := by omega
    have nothing : (world.queue.nextUsed - ofNat (world.seen % world.size)) %
        world.queue.size = 0 := by
      rw [← toNat_inj, distance, ring, Nat.add_sub_cancel_left, Nat.mod_self]
      rfl
    have parity : (lap world.size world.seen != world.queue.usedWrap) = true := by
      rw [wrap, ring, lap_add_size positive]
      simp
    rw [nothing, parity, ring, Nat.add_sub_cancel_left]
    simp [World.size]

/-- The packed question, at the driver's words. -/
theorem needsInterrupt_packed (packed : world.queue.packed = true)
    (waiting : world.phase = .armed ∨ world.phase = .asleep) :
    (world.queue.needsInterrupt world.memory).2 =
      needEvent (ofNat (offset + world.seen)) (ofNat (offset + world.used))
        (ofNat (offset + world.checked)) := by
  obtain ⟨words, _, _⟩ := sound.placed.packed packed
  obtain ⟨_, _, total, signalled⟩ := sound.counts.packed packed
  have below := mapped_below words
  have positive := sound.positive
  have small := sound.small
  have taken := sound.taken
  have target : address world.queue.availAddr 2 = world.queue.availAddr + 2 := address_eq (by omega)
  have flagged : world.memory.mapped (world.queue.availAddr + 2) 2 = true :=
    world.memory.mapped_part 2 2 words (by omega)
  have placed : world.memory.mapped world.queue.availAddr 2 = true :=
    world.memory.mapped_part 0 2 words (by omega)
  have flags := sound.flags waiting packed
  have awake : world.phase ≠ .running := by grind
  have position := sound.position awake
  have event : world.eventAddr = world.queue.availAddr := by simp [World.eventAddr, packed]
  have word : world.position = offWrap world.size world.seen := by simp [World.position, packed]
  rw [event, word] at position
  have behind := sound.behind_eq packed
  have wanted : ofNat (offset + world.used) - ofNat (world.used - world.seen) =
      ofNat (offset + world.seen) := by
    rw [← UInt16.ofNat_sub (by omega)]
    congr 1
    omega
  unfold Virtqueue.needsInterrupt Virtqueue.needsInterruptPacked
  simp only [packed, if_true, target, readU16_of_mapped flagged, readU16_of_mapped placed, flags,
    position, offWrap_wrap positive small, offWrap_position positive small,
    show eventDesc ≠ eventDisable by decide, if_false, ne_eq, not_true_eq_false]
  dsimp only at behind
  rw [behind, total, signalled, wanted]

end

end Sound

/-- A driver that sleeps on an entry is told of it: once the entry is there, the first
question since then is answered with yes.

The run may start anywhere, with any counters. That the last question came before the
entry is what `checked ≤ seen` says, and that the entry is there `seen < used`. -/
theorem no_lost_interrupt (offset : Nat) (start : World) (sound : Sound offset start)
    (acts : List Act) (legal : Transition.Legal World.Allowed World.step start acts) :
    let world := Transition.run World.step start acts
    world.phase = .asleep → world.checked ≤ world.seen → world.seen < world.used →
      (world.queue.needsInterrupt world.memory).2 = true := by
  intro world asleep before there
  have final : Sound offset world := Transition.run_invariant World.Allowed World.step
    (Sound offset) (fun _ act sound permitted => sound.step act permitted) start acts sound legal
  have asked := final.asked
  have near := final.near
  have waiting : world.phase ≠ .running := by rw [asleep]; decide
  cases layout : world.queue.packed with
  | true =>
    rw [final.needsInterrupt_packed layout (Or.inr asleep),
      needEvent_iff (by omega) (by omega) (by omega) (by omega)]
    omega
  | false =>
    obtain ⟨next, signalled⟩ := final.counts.split layout
    have position := final.position waiting
    rw [show world.position = ofNat world.seen by simp [World.position, layout]]
      at position
    rw [final.needsInterrupt_split layout]
    change needEvent _ _ _ = true
    rw [position, next, signalled, needEvent_iff asked near (by omega) (by omega)]
    omega

/-- A packed ring of two slots in its fourth lap, whose free-running count is about to
wrap; a chain of the whole ring is out under the id 0. -/
def wholeRing : World where
  queue :=
    { Virtqueue.new 256 with
      size := 2, descAddr := 4096, availAddr := 8192, usedAddr := 8196, ready := true
      packed := true, eventIdx := true, usedWrap := false, usedTotal := 65535
      signalledTotal := 65535, chainLen := [2, 1], outstanding := [true, false] }
  memory := ⟨[⟨4096, 8192⟩], fun _ => 0⟩
  used := 6
  checked := 6
  seen := 6
  phase := .running

theorem wholeRing_sound : Sound 65529 wholeRing := by
  constructor
  · decide
  · rfl
  · constructor
    · intro _
      exact ⟨by decide, by decide, by decide⟩
    · intro split
      cases split
  · constructor
    · intro split
      cases split
    · intro _
      exact ⟨by decide, by decide, by decide, by decide⟩
  · decide
  · decide
  · decide
  · decide
  · intro waiting
    exact absurd rfl waiting
  · rintro (armed | asleep)
    · cases armed
    · cases asleep

/-- The driver goes to sleep, and the whole ring is completed at once. -/
theorem no_lost_interrupt_wholeRing :
    let world := Transition.run World.step wholeRing
      [.place, .enable, .recheck, .complete 0 64]
    world.phase = .asleep ∧ world.seen + 2 = world.used ∧
      (world.queue.needsInterrupt world.memory).2 = true :=
  ⟨by decide, by decide,
    no_lost_interrupt 65529 wholeRing wholeRing_sound [.place, .enable, .recheck, .complete 0 64]
      ⟨rfl, rfl, rfl, ⟨by decide, by decide⟩, trivial⟩ (by decide) (by decide) (by decide)⟩

end Lighter.Virtio.Interrupt
