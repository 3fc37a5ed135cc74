import Lighter.Lib.Lap
import Lighter.Lib.Mailbox
import Lighter.Lib.Transition
import Lighter.Virtio.RingMemory
import Lighter.Virtio.SplitRing

/-!
# A split ring and a driver that follows the protocol

The driver writes heads that are not in use into the available ring, as many as it
likes, then the index that publishes them; it takes used elements in order up to the
used index. It counts both without wrapping and writes and compares the low sixteen
bits. Between such a driver and the device the ring is an exactly-once mailbox, over
any number of times the indices wrap.

What a head's descriptors say is not looked at here.
-/

namespace Lighter.Virtio.Split

open GuestMemory Lap List Mailbox

/-- `avail.idx` and the entry a count of entries has come to. -/
def availIdx (queue : Virtqueue) (memory : GuestMemory) : Nat :=
  memory.field (queue.availAddr + 2) 2

def availAt (queue : Virtqueue) (memory : GuestMemory) (place : Nat) : Nat :=
  memory.field (queue.availAddr + 4 + place % queue.size.toNat * 2) 2

/-- `used.idx` and the element a count of elements has come to. -/
def usedIdx (queue : Virtqueue) (memory : GuestMemory) : Nat :=
  memory.field (queue.usedAddr + 2) 2

def usedAt (queue : Virtqueue) (memory : GuestMemory) (place : Nat) : Nat × Nat :=
  (memory.field (queue.usedAddr + 4 + place % queue.size.toNat * 8) 4,
    memory.field (queue.usedAddr + 4 + place % queue.size.toNat * 8 + 4) 4)

/-- What the driver keeps. -/
structure Driver where
  /-- Entries published, and used elements taken, since the beginning. -/
  published : Nat
  seen : Nat
  /-- Heads written past the entries published. -/
  draft : List UInt16
  /-- Every head written whose element has not been taken. -/
  inUse : List UInt16

namespace Driver

/-- Writes a head behind those written, not yet published. -/
def write (driver : Driver) (queue : Virtqueue) (memory : GuestMemory) (head : UInt16) :
    Driver × GuestMemory :=
  let slot := (driver.published + driver.draft.length) % queue.size.toNat
  ({ driver with draft := driver.draft ++ [head], inUse := driver.inUse ++ [head] },
    memory.putField (queue.availAddr + 4 + slot * 2) 2 head.toNat)

/-- Publishes what is written. -/
def publish (driver : Driver) (queue : Virtqueue) (memory : GuestMemory) :
    Driver × GuestMemory :=
  let published := driver.published + driver.draft.length
  ({ driver with draft := [], published := published },
    memory.putField (queue.availAddr + 2) 2 (published % 65536))

/-- Takes the next used element, if the index says there is one. -/
def reclaim (driver : Driver) (queue : Virtqueue) (memory : GuestMemory) :
    Driver × Option (UInt16 × UInt32) :=
  if usedIdx queue memory = driver.seen % 65536 then (driver, none)
  else
    let (id, len) := usedAt queue memory driver.seen
    match driver.inUse.find? fun head => head.toNat = id with
    | none => (driver, none)
    | some head =>
        ({ driver with
          seen := driver.seen + 1
          inUse := driver.inUse.eraseP fun other => other.toNat = id },
          some (head, UInt32.ofNat len))

end Driver

/-- The device's queue, the guest's memory and the driver. -/
structure World where
  queue : Virtqueue
  memory : GuestMemory
  driver : Driver

/-- What the two parties do. -/
inductive Act where
  | write (head : UInt16)
  | publish
  /-- Guest memory changes. -/
  | elsewhere (bytes : Nat → UInt8)
  | pop
  | complete (head : UInt16) (len : UInt32)
  | reclaim

namespace World

def start (queue : Virtqueue) (memory : GuestMemory) : World := ⟨queue, memory, ⟨0, 0, [], []⟩⟩

/-- One action, and what is seen of it. -/
def step (world : World) : Act → World × Mailbox.Reply UInt16 Descriptor UInt32
  | .write head =>
      let (driver, memory) := world.driver.write world.queue world.memory head
      ({ world with driver := driver, memory := memory }, .silent)
  | .publish =>
      let (driver, memory) := world.driver.publish world.queue world.memory
      ({ world with driver := driver, memory := memory }, .silent)
  | .elsewhere bytes =>
      ({ world with memory := { world.memory with bytes := bytes } }, .silent)
  | .pop =>
      let (queue, chain) := world.queue.pop world.memory
      ({ world with queue := queue }, .took (chain.map DescriptorChain.head))
  | .complete head len =>
      let (queue, memory) := world.queue.pushUsed world.memory head len
      ({ world with queue := queue, memory := memory }, .silent)
  | .reclaim =>
      let (driver, answer) := world.driver.reclaim world.queue world.memory
      ({ world with driver := driver }, .collected answer)

/-- The indices and the entries of both rings are as they were. -/
def Spares (world : World) (bytes : Nat → UInt8) : Prop :=
  ∀ position,
    (world.queue.availAddr + 2 ≤ position ∧
      position < world.queue.availAddr + 4 + world.queue.size.toNat * 2) ∨
    (world.queue.usedAddr + 2 ≤ position ∧
      position < world.queue.usedAddr + 4 + world.queue.size.toNat * 8) →
    bytes position = world.memory.bytes position

/-- What the protocol asks of the driver. -/
def Allowed (world : World) : Act → Prop
  | .write head => head.toNat < world.queue.size.toNat ∧ head ∉ world.driver.inUse
  | .elsewhere bytes => world.Spares bytes
  | _ => True

end World

/-- What an action is to the mailbox, whose letters are heads. -/
def Act.event : Act → Mailbox.Event UInt16 UInt16 UInt32
  | .write head => .write head
  | .publish => .post
  | .elsewhere _ => .idle
  | .pop => .take
  | .complete head len => .answer head len
  | .reclaim => .collect

/-- The mailbox whose letters are heads. -/
abbrev Box := Mailbox UInt16 UInt32

abbrev Box.step (box : Box) (event : Mailbox.Event UInt16 UInt16 UInt32) :
    Box × Mailbox.Reply UInt16 Descriptor UInt32 :=
  Mailbox.step id (fun _ => []) box event

/-- Both rings are in memory and do not overlap. -/
structure Rings (ring : Virtqueue) (memory : GuestMemory) : Prop where
  avail : memory.mapped ring.availAddr (4 + ring.size.toNat * 2) = true
  used : memory.mapped ring.usedAddr (4 + ring.size.toNat * 8) = true
  apart : ring.availAddr + 4 + ring.size.toNat * 2 ≤ ring.usedAddr ∨
    ring.usedAddr + 4 + ring.size.toNat * 8 ≤ ring.availAddr

namespace Rings

variable {ring : Virtqueue} {memory : GuestMemory}

theorem congr {other : GuestMemory} (rings : Rings ring memory)
    (same : other.regions = memory.regions) : Rings ring other := by
  refine ⟨?_, ?_, rings.apart⟩
  · rw [mapped_congr same]
    exact rings.avail
  · rw [mapped_congr same]
    exact rings.used

theorem put (rings : Rings ring memory) (gpa width value : Nat) :
    Rings ring (memory.putField gpa width value) :=
  rings.congr (regions_putField memory gpa width value)

section Slots

variable (rings : Rings ring memory) (positive : 0 < ring.size.toNat)

include rings

theorem mapped_availIdx : memory.mapped (ring.availAddr + 2) 2 = true :=
  memory.mapped_part 2 2 rings.avail (by omega)

theorem mapped_usedIdx : memory.mapped (ring.usedAddr + 2) 2 = true :=
  memory.mapped_part 2 2 rings.used (by omega)

theorem address_avail {offset : Nat} (inside : offset ≤ 4 + ring.size.toNat * 2) :
    address ring.availAddr offset = ring.availAddr + offset := by
  have below := mapped_below rings.avail
  exact address_eq (by omega)

theorem address_used {offset : Nat} (inside : offset ≤ 4 + ring.size.toNat * 8) :
    address ring.usedAddr offset = ring.usedAddr + offset := by
  have below := mapped_below rings.used
  exact address_eq (by omega)

include positive

theorem mapped_avail (place : Nat) :
    memory.mapped (ring.availAddr + 4 + place % ring.size.toNat * 2) 2 = true := by
  have inside := Nat.mod_lt place positive
  rw [Nat.add_assoc]
  exact memory.mapped_part _ 2 rings.avail (by omega)

theorem mapped_used (place offset : Nat) (short : offset + 4 ≤ 8) :
    memory.mapped (ring.usedAddr + 4 + place % ring.size.toNat * 8 + offset) 4 = true := by
  have inside := Nat.mod_lt place positive
  rw [Nat.add_assoc, Nat.add_assoc]
  exact memory.mapped_part _ 4 rings.used (by omega)

/-- The entry a driver offers, as a number. -/
theorem offered_eq (count : Nat) :
    offered ring memory count =
      if (UInt16.ofNat (availIdx ring memory)).toNat = count % 65536 then none
      else some (UInt16.ofNat (availAt ring memory count)) := by
  have inside := Nat.mod_lt count positive
  unfold offered
  rw [rings.address_avail (by omega), rings.address_avail (by omega), ← Nat.add_assoc,
    readU16_of_mapped rings.mapped_availIdx, readU16_of_mapped (rings.mapped_avail positive count)]
  rfl

/-- An element is written in three fields. -/
theorem recordUsed_eq (count : Nat) (head : UInt16) (len : UInt32) :
    recordUsed ring memory count head len =
      ((memory.putField (ring.usedAddr + 4 + count % ring.size.toNat * 8) 4 head.toNat).putField
        (ring.usedAddr + 4 + count % ring.size.toNat * 8 + 4) 4 len.toNat).putField
        (ring.usedAddr + 2) 2 ((count + 1) % 65536) := by
  have inside := Nat.mod_lt count positive
  have below := mapped_below rings.used
  have element : address (ring.usedAddr + 4 + count % ring.size.toNat * 8) 4 =
      ring.usedAddr + 4 + count % ring.size.toNat * 8 + 4 := address_eq (by omega)
  unfold recordUsed
  simp only [rings.address_used (show 4 + count % ring.size.toNat * 8 ≤
    4 + ring.size.toNat * 8 by omega), rings.address_used (show 2 ≤ 4 + ring.size.toNat * 8 by
    omega), ← Nat.add_assoc, element]

end Slots

end Rings

section Writes

variable {ring : Virtqueue} {memory : GuestMemory} (rings : Rings ring memory)
  (positive : 0 < ring.size.toNat)

include rings positive

/-- A write inside the available ring leaves the used ring alone. -/
theorem used_of_avail {gpa width : Nat} (value : Nat) (low : ring.availAddr ≤ gpa)
    (high : gpa + width ≤ ring.availAddr + 4 + ring.size.toNat * 2) :
    usedIdx ring (memory.putField gpa width value) = usedIdx ring memory ∧
      ∀ place, usedAt ring (memory.putField gpa width value) place = usedAt ring memory place := by
  have apart := rings.apart
  refine ⟨field_putField_apart (by omega), ?_⟩
  intro place
  have inside := Nat.mod_lt place positive
  apply Prod.ext
  · exact field_putField_apart (by omega)
  · exact field_putField_apart (by omega)

/-- A head written to a slot is in that slot, and nowhere else. -/
theorem availAt_write (place : Nat) (head : UInt16) (other : Nat) :
    availAt ring (memory.putField
        (ring.availAddr + 4 + place % ring.size.toNat * 2) 2 head.toNat) other =
      if other % ring.size.toNat = place % ring.size.toNat then head.toNat
      else availAt ring memory other := by
  have narrow : head.toNat % 256 ^ 2 = head.toNat := Nat.mod_eq_of_lt head.toNat_lt
  unfold availAt
  split
  · next same =>
    rw [same, field_putField_same (rings.mapped_avail positive place), narrow]
  · next different => exact field_putField_apart (by omega)

omit rings positive in
theorem availIdx_write (memory : GuestMemory) (place value : Nat) :
    availIdx ring (memory.putField
      (ring.availAddr + 4 + place % ring.size.toNat * 2) 2 value) = availIdx ring memory :=
  field_putField_apart (by omega)

omit positive in
theorem availIdx_publish (count : Nat) :
    availIdx ring (memory.putField (ring.availAddr + 2) 2 (count % 65536)) = count % 65536 := by
  have narrow : count % 65536 % 256 ^ 2 = count % 65536 := Nat.mod_mod count 65536
  rw [availIdx, field_putField_same rings.mapped_availIdx, narrow]

omit rings positive in
theorem availAt_publish (memory : GuestMemory) (value place : Nat) :
    availAt ring (memory.putField (ring.availAddr + 2) 2 value) place =
      availAt ring memory place :=
  field_putField_apart (by omega)

/-- A return leaves the available ring alone. -/
theorem avail_recordUsed (count : Nat) (head : UInt16) (len : UInt32) :
    availIdx ring (recordUsed ring memory count head len) = availIdx ring memory ∧
      ∀ place, availAt ring (recordUsed ring memory count head len) place =
        availAt ring memory place := by
  have apart := rings.apart
  have slot := Nat.mod_lt count positive
  rw [rings.recordUsed_eq positive]
  constructor
  · unfold availIdx
    rw [field_putField_apart (by omega), field_putField_apart (by omega),
      field_putField_apart (by omega)]
  intro place
  have inside := Nat.mod_lt place positive
  unfold availAt
  rw [field_putField_apart (by omega), field_putField_apart (by omega),
    field_putField_apart (by omega)]

theorem usedIdx_recordUsed (count : Nat) (head : UInt16) (len : UInt32) :
    usedIdx ring (recordUsed ring memory count head len) = (count + 1) % 65536 := by
  have narrow : (count + 1) % 65536 % 256 ^ 2 = (count + 1) % 65536 := Nat.mod_mod (count + 1) 65536
  rw [rings.recordUsed_eq positive, usedIdx, field_putField_same, narrow]
  exact ((rings.put _ _ _).put _ _ _).mapped_usedIdx

/-- A return is in the slot of its count, and nowhere else. -/
theorem usedAt_recordUsed (count : Nat) (head : UInt16) (len : UInt32) (other : Nat) :
    usedAt ring (recordUsed ring memory count head len) other =
      if other % ring.size.toNat = count % ring.size.toNat then (head.toNat, len.toNat)
      else usedAt ring memory other := by
  have wide : head.toNat % 256 ^ 4 = head.toNat :=
    Nat.mod_eq_of_lt (Nat.lt_trans head.toNat_lt (by decide))
  have whole : len.toNat % 256 ^ 4 = len.toNat := Nat.mod_eq_of_lt len.toNat_lt
  have first : memory.mapped (ring.usedAddr + 4 + count % ring.size.toNat * 8) 4 = true :=
    rings.mapped_used positive count 0 (by omega)
  have second := (rings.put (ring.usedAddr + 4 + count % ring.size.toNat * 8) 4
    head.toNat).mapped_used positive count 4 (by omega)
  rw [rings.recordUsed_eq positive]
  split
  · next same =>
    apply Prod.ext
    · simp only [usedAt, same]
      rw [field_putField_apart (by omega),
        field_putField_apart (by omega), field_putField_same first, wide]
    · simp only [usedAt, same]
      rw [field_putField_apart (by omega), field_putField_same second, whole]
  · next different =>
    apply Prod.ext
    · simp only [usedAt]
      rw [field_putField_apart (by omega),
        field_putField_apart (by omega), field_putField_apart (by omega)]
    · simp only [usedAt]
      rw [field_putField_apart (by omega),
        field_putField_apart (by omega), field_putField_apart (by omega)]

end Writes

/-- The two rings, as the mailbox has them. -/
structure Laid (ring : Virtqueue) (memory : GuestMemory) (box : Box) : Prop where
  known : ∀ head ∈ box.pending, head.toNat < ring.size.toNat
  distinct : box.pending.Nodup
  availIdx : availIdx ring memory = box.posted.length % 65536
  avail : ∀ (place : Nat) (head : UInt16), box.taken ≤ place →
    (box.posted ++ box.draft)[place]? = some head → availAt ring memory place = head.toNat
  usedIdx : usedIdx ring memory = box.answered.length % 65536
  used : ∀ (place : Nat) (answer : UInt16 × UInt32), box.collected ≤ place →
    box.answered[place]? = some answer →
    usedAt ring memory place = (answer.1.toNat, answer.2.toNat)

/-- What the driver keeps, as the mailbox has it. -/
structure Follows (driver : Driver) (box : Box) : Prop where
  published : driver.published = box.posted.length
  seen : driver.seen = box.collected
  draft : driver.draft = box.draft
  inUse : driver.inUse.Perm box.pending

/-- Where the driver's next head goes, by its own counts and by the mailbox's. -/
theorem Follows.place {driver : Driver} {box : Box} (follows : Follows driver box) :
    driver.published + driver.draft.length = box.posted.length + box.draft.length := by
  rw [follows.published, follows.draft]

/-- The device's history is the mailbox's. -/
structure Agrees (history : History) (box : Box) : Prop where
  consumed : History.consumed history = box.taken
  accepted : History.accepted history = box.answered.length
  owed : ∀ head, History.held head history = true ↔ head ∈ box.owed

/-- The memory, the device and the driver are each the mailbox's. -/
structure Refines (ring : Virtqueue) (world : World) (box : Box) (history : History) : Prop where
  sound : box.Sound
  tracks : Tracks ring world.queue history
  agrees : Agrees history box
  rings : Rings ring world.memory
  laid : Laid ring world.memory box
  follows : Follows world.driver box

/-- Distinct heads below the size are no more than it. -/
theorem room {size : Nat} {box : Box} (sound : box.Sound)
    (known : ∀ head ∈ box.pending, head.toNat < size) (distinct : box.pending.Nodup) :
    box.posted.length + box.draft.length ≤ box.collected + size := by
  have counted := sound.length_pending
  have numbers : (box.pending.map UInt16.toNat).Nodup :=
    distinct.map fun _ _ same => UInt16.toNat_inj.mp same
  have few : (box.pending.map UInt16.toNat).length ≤ (range size).length := by
    apply (numbers.subperm ?_).length_le
    intro number mem
    obtain ⟨head, pending, rfl⟩ := mem_map.mp mem
    exact mem_range.mpr (known head pending)
  rw [length_map, length_range] at few
  omega

namespace Refines

section Steps

variable {ring : Virtqueue} {world : World} {box : Box} {history : History}
  (refines : Refines ring world box history)

include refines

theorem positive : 0 < ring.size.toNat := by
  rw [← refines.tracks.size]
  exact refines.tracks.usable.positive

theorem small : ring.size.toNat ≤ 32768 := by
  rw [← refines.tracks.size]
  exact refines.tracks.usable.small

theorem room : box.posted.length + box.draft.length ≤ box.collected + ring.size.toNat :=
  Split.room refines.sound refines.laid.known refines.laid.distinct

/-- A slot is written again only when its entry has been taken. -/
theorem write {head : UInt16} (legal : world.Allowed (.write head)) :
    Refines ring (world.step (.write head)).1 (Box.step box (.write head)).1 history := by
  obtain ⟨inside, fresh⟩ := legal
  rw [refines.tracks.size] at inside
  have sound := refines.sound
  have positive := refines.positive
  have listed := pending_write box head
  have known : ∀ other ∈ pending { box with draft := box.draft ++ [head] },
      other.toNat < ring.size.toNat := by
    intro other mem
    rw [listed] at mem
    rcases mem_append.mp mem with old | new
    · exact refines.laid.known other old
    · grind
  have unused : head ∉ box.pending := fun mem => fresh (refines.follows.inUse.mem_iff.mpr mem)
  have distinct : (pending { box with draft := box.draft ++ [head] }).Nodup := by
    rw [listed]
    exact refines.laid.distinct.append (nodup_singleton head) (by simpa using unused)
  have roomy := Split.room (sound.write head) known distinct
  have place := refines.follows.place
  have stepped : (world.step (.write head)).1 = { world with
      driver := { world.driver with
        draft := world.driver.draft ++ [head], inUse := world.driver.inUse ++ [head] }
      memory := world.memory.putField (ring.availAddr + 4 +
        (box.posted.length + box.draft.length) % ring.size.toNat * 2) 2 head.toNat } := by
    rw [← place, ← refines.tracks.size, ← refines.tracks.availAddr]
    rfl
  have untouched := used_of_avail refines.rings positive head.toNat
    (show ring.availAddr ≤ ring.availAddr + 4 +
      (box.posted.length + box.draft.length) % ring.size.toNat * 2 by omega)
    (show _ + 2 ≤ ring.availAddr + 4 + ring.size.toNat * 2 by
      have slot := Nat.mod_lt (box.posted.length + box.draft.length) positive
      omega)
  rw [stepped]
  constructor
  · exact sound.write head
  · exact refines.tracks
  · exact { refines.agrees with }
  · exact refines.rings.put _ _ _
  · constructor
    · exact known
    · exact distinct
    · exact (availIdx_write world.memory _ _).trans refines.laid.availIdx
    · intro other letter low found
      have entries : ((box.posted ++ box.draft) ++ [head])[other]? = some letter := by
        rw [append_assoc]
        exact found
      rw [availAt_write refines.rings positive]
      rcases Nat.lt_or_ge other (box.posted ++ box.draft).length with old | new
      · rw [getElem?_append_left old] at entries
        rw [length_append] at old
        have apart : other % ring.size.toNat ≠
            (box.posted.length + box.draft.length) % ring.size.toNat := by
          intro same
          have first := sound.collected
          have second := sound.length_owed
          have ahead : box.taken ≤ other := low
          have filled : box.posted.length + (box.draft.length + 1) ≤
              box.collected + ring.size.toNat := by
            simpa using roomy
          have equal := position_injective old.le (by omega) same
          omega
        rw [if_neg apart]
        exact refines.laid.avail other letter low entries
      · grind
    · exact untouched.1.trans refines.laid.usedIdx
    · intro other answer low found
      exact (untouched.2 other).trans (refines.laid.used other answer low found)
  · exact { refines.follows with
      draft := congrArg (· ++ [head]) refines.follows.draft
      inUse := (refines.follows.inUse.append_right [head]).trans (Perm.of_eq listed.symm) }

/-- The entries are there before the index says so. -/
theorem publish : Refines ring (world.step .publish).1 (Box.step box .post).1 history := by
  change Refines ring _ box.post history
  have sound := refines.sound
  have positive := refines.positive
  have place := refines.follows.place
  have stepped : (world.step .publish).1 = { world with
      driver := { world.driver with
        draft := [], published := box.posted.length + box.draft.length }
      memory := world.memory.putField (ring.availAddr + 2) 2
        ((box.posted.length + box.draft.length) % 65536) } := by
    rw [← place, ← refines.tracks.availAddr]
    rfl
  have untouched := used_of_avail refines.rings positive
    ((box.posted.length + box.draft.length) % 65536)
    (show ring.availAddr ≤ ring.availAddr + 2 by omega)
    (show ring.availAddr + 2 + 2 ≤ ring.availAddr + 4 + ring.size.toNat * 2 by omega)
  have same := pending_post sound
  rw [stepped]
  constructor
  · exact sound.post
  · exact refines.tracks
  · exact { refines.agrees with }
  · exact refines.rings.put _ _ _
  · constructor
    · rw [same]
      exact refines.laid.known
    · rw [same]
      exact refines.laid.distinct
    · rw [availIdx_publish refines.rings]
      simp [post]
    · intro other letter low found
      rw [availAt_publish]
      apply refines.laid.avail other letter low
      simpa [post] using found
    · exact untouched.1.trans refines.laid.usedIdx
    · intro other answer low found
      exact (untouched.2 other).trans (refines.laid.used other answer low found)
  · refine ⟨?_, refines.follows.seen, rfl, ?_⟩
    · simp [post]
    · rw [same]
      exact refines.follows.inUse

/-- Nothing else in memory matters. -/
theorem elsewhere {bytes : Nat → UInt8} (legal : world.Allowed (.elsewhere bytes)) :
    Refines ring (world.step (.elsewhere bytes)).1 box history := by
  have spared : world.Spares bytes := legal
  unfold World.Spares at spared
  rw [refines.tracks.size, refines.tracks.availAddr, refines.tracks.usedAddr] at spared
  have positive := refines.positive
  have field : ∀ gpa width,
      (ring.availAddr + 2 ≤ gpa ∧ gpa + width ≤ ring.availAddr + 4 + ring.size.toNat * 2) ∨
      (ring.usedAddr + 2 ≤ gpa ∧ gpa + width ≤ ring.usedAddr + 4 + ring.size.toNat * 8) →
      GuestMemory.field { world.memory with bytes := bytes } gpa width =
        world.memory.field gpa width := by
    intro gpa width within
    refine congrArg Fixed.fromLe (content_congr ?_)
    intro position after before
    exact spared position (by omega)
  have avail : ∀ place, availAt ring { world.memory with bytes := bytes } place =
      availAt ring world.memory place := by
    intro place
    have slot := Nat.mod_lt place positive
    exact field _ _ (by omega)
  have used : ∀ place, usedAt ring { world.memory with bytes := bytes } place =
      usedAt ring world.memory place := by
    intro place
    have slot := Nat.mod_lt place positive
    apply Prod.ext
    · exact field _ _ (by omega)
    · exact field _ _ (by omega)
  refine { refines with
    rings := refines.rings.congr rfl
    laid := { refines.laid with availIdx := ?_, avail := ?_, usedIdx := ?_, used := ?_ } }
  · exact (field _ _ (by omega)).trans refines.laid.availIdx
  · intro place head low found
    exact (avail place).trans (refines.laid.avail place head low found)
  · exact (field _ _ (by omega)).trans refines.laid.usedIdx
  · intro place answer low found
    exact (used place).trans (refines.laid.used place answer low found)

/-- The index has moved on exactly when a letter waits. -/
theorem offered_iff : offered ring world.memory box.taken = box.posted[box.taken]? := by
  have sound := refines.sound
  have roomy := refines.room
  have small := refines.small
  have owed := sound.length_owed
  have collected := sound.collected
  have index : (UInt16.ofNat (availIdx ring world.memory)).toNat = box.posted.length % 65536 := by
    rw [refines.laid.availIdx, UInt16.toNat_ofNat']
    exact Nat.mod_mod _ 65536
  rw [refines.rings.offered_eq refines.positive, index]
  split
  · grind
  next ahead =>
  have taken := sound.taken
  have waits : box.taken < box.posted.length := by grind
  have found : box.posted[box.taken]? = some box.posted[box.taken] := getElem?_eq_getElem waits
  have entry := refines.laid.avail box.taken _ (Nat.le_refl _)
    ((getElem?_append_left waits).trans found)
  rw [found, entry, UInt16.ofNat_toNat]

/-- The device takes the letter that is next, if one waits. -/
theorem pop : (∃ later, Refines ring (world.step .pop).1 (Box.step box .take).1 later) ∧
    (world.step .pop).2 = (Box.step box .take).2 := by
  have sound := refines.sound
  have tracks := refines.tracks
  have result := tracks.pop_eq world.memory
  have same : offered world.queue world.memory (History.consumed history) =
      box.posted[box.taken]? := by
    rw [← refines.offered_iff, refines.agrees.consumed, tracks.offered_eq]
  rw [same] at result
  cases found : box.posted[box.taken]? with
  | none =>
    rw [found] at result
    have taken : Box.step box .take = (box, .took none) := by
      simp [Box.step, Mailbox.step, Mailbox.take, found]
    have stepped : world.step .pop = (world, .took none) := by
      simp [World.step, result]
    rw [taken, stepped]
    exact ⟨⟨history, refines⟩, rfl⟩
  | some head =>
    obtain ⟨below, value⟩ := List.getElem?_eq_some_iff.mp found
    have waits : head ∈ box.posted.drop box.taken := by
      rw [drop_eq_getElem_cons below, value]
      exact mem_cons_self ..
    have pending : head ∈ box.pending := by
      simp only [Mailbox.pending, mem_append]
      exact Or.inl (Or.inr waits)
    have inside : head.toNat < world.queue.size.toNat := by
      rw [tracks.size]
      exact refines.laid.known head pending
    simp only [found, inside, if_true] at result
    have seen : observed world.queue (.pop world.memory) = [.popped head] := by
      simp [observed, result, DescriptorChain.new]
    have later := tracks.pop world.memory
    rw [seen] at later
    have taken : Box.step box .take = ({ box with
        taken := box.taken + 1
        parts := box.parts ++ [0]
        owed := box.owed ++ [head] }, .took (some head)) := by
      simp [Box.step, Mailbox.step, Mailbox.take, found]
    have replied : (world.step .pop).2 = .took (some head) := by
      simp [World.step, result, DescriptorChain.new]
    have unmoved := Mailbox.pending_take found
    rw [taken, replied]
    refine ⟨⟨.popped head :: history, ?_⟩, rfl⟩
    refine { refines with
      sound := sound.take found
      tracks := later
      agrees := { refines.agrees with consumed := ?_, owed := ?_ }
      laid := { refines.laid with known := ?_, distinct := ?_, avail := ?_ }
      follows := { refines.follows with inUse := ?_ } }
    · rw [History.consumed_popped, refines.agrees.consumed]
    · intro other
      rw [History.held, Bool.or_eq_true, refines.agrees.owed other, beq_iff_eq,
        mem_append, mem_singleton, or_comm, eq_comm]
    · rw [unmoved]
      exact refines.laid.known
    · rw [unmoved]
      exact refines.laid.distinct
    · intro place letter low there
      exact refines.laid.avail place letter (Nat.le_of_succ_le low) there
    · rw [unmoved]
      exact refines.follows.inUse

/-- A head that is not owed is refused, and another is answered. -/
theorem complete (head : UInt16) (len : UInt32) :
    ∃ later, Refines ring (world.step (.complete head len)).1
      (Box.step box (.answer head len)).1 later := by
  have sound := refines.sound
  have tracks := refines.tracks
  have positive := refines.positive
  have stepped : (world.step (.complete head len)).1 = { world with
      queue := (world.queue.pushUsed world.memory head len).1
      memory := (world.queue.pushUsed world.memory head len).2 } := rfl
  rw [stepped]
  change ∃ later, Refines ring _ (box.answer id head len) later
  cases found : box.owed.find? (fun letter => id letter = head) with
  | none =>
    have absent : head ∉ box.owed := by
      intro mem
      simpa using find?_eq_none.mp found head mem
    have unheld : History.held head history = false := by
      rw [← Bool.not_eq_true, refines.agrees.owed head]
      exact absent
    have unanswered : box.answer id head len = box := by
      rw [answer, found]
    rw [tracks.pushUsed_unheld unheld, unanswered]
    exact ⟨history, refines⟩
  | some letter =>
    have owed : letter ∈ box.owed := mem_of_find?_eq_some found
    have named : letter = head := by simpa using find?_some found
    subst named
    have mine := (refines.agrees.owed letter).mpr owed
    have result := tracks.pushUsed_held mine world.memory len
    have seen : observed world.queue (.pushUsed world.memory letter len) = [.returned letter] := by
      simp [observed, result]
    have later := tracks.pushUsed world.memory letter len
    rw [seen] at later
    have written : (world.queue.pushUsed world.memory letter len).2 =
        recordUsed ring world.memory box.answered.length letter len := by
      rw [result, refines.agrees.accepted, tracks.recordUsed_eq]
    have answered : box.answer id letter len = { box with
        owed := box.owed.eraseP fun other => id other = letter
        answered := box.answered ++ [(letter, len)] } := by
      rw [answer, found]
    have moved := pending_answer sound id letter len found
    have distinct : box.owed.Nodup := by
      have unique := refines.laid.distinct
      exact unique.of_append_left.of_append_left.of_append_right
    have split := found_erased id letter found
    have unmoved := avail_recordUsed refines.rings positive box.answered.length letter len
    rw [answered]
    refine ⟨.returned letter :: history, ?_⟩
    constructor
    · exact sound.answer id letter len found
    · exact later
    · constructor
      · exact refines.agrees.consumed
      · rw [History.accepted_returned, refines.agrees.accepted]
        simp
      intro other
      rw [History.held, Bool.and_eq_true, refines.agrees.owed other, bne_iff_ne,
        split.mem_iff, mem_cons]
      constructor
      · grind
      · grind
    · rw [written]
      exact refines.rings.congr (by simp [recordUsed])
    · rw [written]
      constructor
      · intro other mem
        exact refines.laid.known other (moved.mem_iff.mp mem)
      · exact moved.nodup_iff.mpr refines.laid.distinct
      · exact unmoved.1.trans refines.laid.availIdx
      · intro place other low there
        exact (unmoved.2 place).trans (refines.laid.avail place other low there)
      · rw [usedIdx_recordUsed refines.rings positive]
        simp
      intro place answer low there
      rw [usedAt_recordUsed refines.rings positive]
      rcases Nat.lt_or_ge place box.answered.length with old | new
      · rw [getElem?_append_left old] at there
        have apart : place % ring.size.toNat ≠ box.answered.length % ring.size.toNat := by
          intro same
          have roomy := refines.room
          have account := sound.length_owed
          have taken := sound.taken
          have some : 0 < box.owed.length := length_pos_of_mem owed
          have ahead : box.collected ≤ place := low
          have equal := position_injective old.le (by omega) same
          omega
        rw [if_neg apart]
        exact refines.laid.used place answer low there
      · grind
    · exact { refines.follows with inUse := refines.follows.inUse.trans moved.symm }

/-- The driver has the answer that is next, if there is one. -/
theorem reclaim : Refines ring (world.step .reclaim).1 (Box.step box .collect).1 history ∧
    (world.step .reclaim).2 = (Box.step box .collect).2 := by
  have sound := refines.sound
  have follows := refines.follows
  have roomy := refines.room
  have small := refines.small
  have account := sound.length_owed
  have taken := sound.taken
  have same : world.driver.reclaim world.queue world.memory =
      world.driver.reclaim ring world.memory := by
    unfold Driver.reclaim usedIdx usedAt
    rw [refines.tracks.size, refines.tracks.usedAddr]
  have stepped : world.step .reclaim =
      ({ world with driver := (world.driver.reclaim ring world.memory).1 },
        .collected (world.driver.reclaim ring world.memory).2) := by
    rw [← same]
    rfl
  rw [stepped]
  cases next : box.answered[box.collected]? with
  | none =>
    have all : box.collected = box.answered.length :=
      Nat.le_antisymm sound.collected (List.getElem?_eq_none_iff.mp next)
    have nothing : world.driver.reclaim ring world.memory = (world.driver, none) := by
      unfold Driver.reclaim
      rw [refines.laid.usedIdx, follows.seen, all, if_pos rfl]
    have silent : Box.step box .collect = (box, .collected none) := by
      simp [Box.step, Mailbox.step, Mailbox.collect, next]
    rw [nothing, silent]
    exact ⟨refines, rfl⟩
  | some answer =>
    have ahead : ¬ box.answered.length % 65536 = box.collected % 65536 := by grind
    have element := refines.laid.used box.collected answer (Nat.le_refl _) next
    have listed := Mailbox.pending_collect next
    have pending : answer.1 ∈ world.driver.inUse := by
      rw [follows.inUse.mem_iff, listed]
      exact mem_cons_self ..
    have numbers : (world.driver.inUse.map UInt16.toNat).Nodup :=
      (follows.inUse.nodup_iff.mpr refines.laid.distinct).map
        fun _ _ equal => UInt16.toNat_inj.mp equal
    have known : world.driver.inUse.find? (fun head => head.toNat = answer.1.toNat) =
        some answer.1 := Mailbox.find_key UInt16.toNat numbers pending
    have erased := Mailbox.found_erased UInt16.toNat answer.1.toNat known
    have reclaimed : world.driver.reclaim ring world.memory = ({ world.driver with
        seen := world.driver.seen + 1
        inUse := world.driver.inUse.eraseP fun other => other.toNat = answer.1.toNat },
        some (answer.1, answer.2)) := by
      unfold Driver.reclaim
      rw [refines.laid.usedIdx, follows.seen, if_neg ahead, element]
      simp [known]
    have collected : Box.step box .collect =
        ({ box with collected := box.collected + 1 }, .collected (some (answer.1, answer.2))) := by
      simp [Box.step, Mailbox.step, Mailbox.collect, next]
    rw [reclaimed, collected]
    refine ⟨?_, rfl⟩
    have fewer : ∀ head ∈ Mailbox.pending { box with collected := box.collected + 1 },
        head ∈ box.pending := by grind
    have distinct := refines.laid.distinct
    rw [listed] at distinct
    refine { refines with
      sound := sound.collect next
      agrees := { refines.agrees with }
      laid := { refines.laid with known := ?_, distinct := (nodup_cons.mp distinct).2, used := ?_ }
      follows := { follows with seen := congrArg (· + 1) follows.seen, inUse := ?_ } }
    · intro head mem
      exact refines.laid.known head (fewer head mem)
    · intro place other low found
      exact refines.laid.used place other (Nat.le_of_succ_le low) found
    · have rest := erased.symm.trans follows.inUse
      rw [listed] at rest
      exact rest.cons_inv

/-- Every action is answered as the mailbox answers it. -/
theorem step (act : Act) (legal : world.Allowed act) :
    (∃ later, Refines ring (world.step act).1 (Box.step box act.event).1 later) ∧
      (world.step act).2 = (Box.step box act.event).2 := by
  cases act with
  | write head => exact ⟨⟨history, refines.write legal⟩, rfl⟩
  | publish => exact ⟨⟨history, refines.publish⟩, rfl⟩
  | elsewhere bytes => exact ⟨⟨history, refines.elsewhere legal⟩, rfl⟩
  | pop => exact refines.pop
  | complete head len => exact ⟨refines.complete head len, rfl⟩
  | reclaim => exact ⟨⟨history, refines.reclaim.1⟩, refines.reclaim.2⟩

end Steps

end Refines

/-- Rings that nothing has been put into. -/
structure Empty (ring : Virtqueue) (memory : GuestMemory) : Prop extends Rings ring memory where
  availIdx : Split.availIdx ring memory = 0
  usedIdx : Split.usedIdx ring memory = 0

/-- An empty ring is an empty mailbox. -/
theorem Empty.refines {ring : Virtqueue} {memory : GuestMemory} (empty : Empty ring memory)
    (fresh : Fresh ring) : Refines ring (World.start ring memory) Mailbox.empty [] := by
  constructor
  · exact Mailbox.sound_empty
  · exact fresh.tracks
  · refine ⟨rfl, rfl, ?_⟩
    intro head
    simp [History.held, Mailbox.empty]
  · exact empty.toRings
  · constructor
    · intro head mem
      cases mem
    · exact nodup_nil
    · exact empty.availIdx
    · intro place head _ never
      cases never
    · exact empty.usedIdx
    · intro place answer _ never
      cases never
  · exact ⟨rfl, rfl, rfl, List.Perm.refl _⟩

/-- What holds of a queue with a history, whatever memory the next call finds. -/
structure Honest (ring queue : Virtqueue) (history : History) : Prop where
  /-- The cursor counts the entries consumed. -/
  cursor : queue.nextAvail.toNat = History.consumed history % 65536
  /-- An entry offered is consumed, and gives a chain if it names a descriptor. -/
  pop : ∀ memory, queue.pop memory =
    match offered ring memory (History.consumed history) with
    | none => (queue, none)
    | some head =>
        let moved := { queue with nextAvail := queue.nextAvail + 1 }
        if head.toNat < ring.size.toNat then
          (moved.markTaken head, some (DescriptorChain.new ring.descAddr ring.size head))
        else (moved, none)
  /-- A head held is returned in the slot of the count, and is then counted. -/
  accepts : ∀ memory head len, History.held head history = true →
    (queue.pushUsed memory head len).2 =
        recordUsed ring memory (History.accepted history) head len ∧
      observed queue (.pushUsed memory head len) = [.returned head]
  refuses : ∀ memory head len, History.held head history = false →
    queue.pushUsed memory head len = (queue, memory)
  /-- A head outside the ring is never held. -/
  outside : ∀ head : UInt16, ring.size.toNat ≤ head.toNat → History.held head history = false
  within : ∀ head, History.returns head history ≤ History.pops head history

/-- A queue with a history has these laws. -/
theorem Tracks.honest {ring queue : Virtqueue} {history : History}
    (tracks : Tracks ring queue history) : Honest ring queue history := by
  constructor
  · rw [tracks.nextAvail, UInt16.toNat_ofNat']
  · intro memory
    rw [← tracks.offered_eq, ← tracks.size, ← tracks.descAddr]
    exact tracks.pop_eq memory
  · intro memory head len mine
    have result := tracks.pushUsed_held mine memory len
    constructor
    · rw [result, tracks.recordUsed_eq]
    · simp [observed, result]
  · intro memory head len other
    exact tracks.pushUsed_unheld other memory len
  · intro head beyond
    rw [← Bool.not_eq_true]
    intro mine
    have inside := tracks.held_inside mine
    rw [tracks.size] at inside
    omega
  · intro head
    exact le_trans (Nat.le_add_right _ _) (tracks.matched head)

/-- A split ring gives back what it took and nothing else, whatever the driver does;
and between it and a driver that follows the protocol it is an exactly-once mailbox. -/
theorem split_returns_what_it_took (ring : Virtqueue) (fresh : Fresh ring) :
    (∀ calls : List Call,
      Honest ring (Transition.run Split.step (ring, []) calls).1
        (Transition.run Split.step (ring, []) calls).2) ∧
    ∀ memory, Empty ring memory → ∀ acts : List Act,
      Transition.Legal World.Allowed (fun world act => (world.step act).1)
        (World.start ring memory) acts →
      Transition.outputs World.step (World.start ring memory) acts =
        Transition.outputs Box.step Mailbox.empty (acts.map Act.event) := by
  constructor
  · intro calls
    have tracked := Transition.run_preserves Split.step
      (fun record => Tracks ring record.1 record.2)
      (fun record call tracks => Tracks.step ring tracks call) (ring, []) calls fresh.tracks
    exact tracked.honest
  · intro memory empty acts legal
    have simulated := Transition.outputs_simulated World.Allowed World.step Box.step Act.event
      (fun world box => ∃ history, Refines ring world box history)
      (fun _ _ act related permitted => related.elim fun _ refines => refines.step act permitted)
      (World.start ring memory) Mailbox.empty acts ⟨[], empty.refines fresh⟩ legal
    exact simulated.1

/-- A ring of two entries, its available ring at 8192 and its used ring at 12288. -/
def twoEntries : Virtqueue :=
  { Virtqueue.new 256 with
    size := 2, descAddr := 4096, availAddr := 8192, usedAddr := 12288, ready := true }

def threePages : GuestMemory := ⟨[⟨4096, 12288⟩], fun _ => 0⟩

/-- Two heads published at once, returned in the other order, and taken back. -/
def crossed : List Act :=
  [.write 1, .write 0, .publish, .pop, .pop, .complete 0 5, .complete 1 7, .reclaim, .reclaim]

theorem twoEntries_fresh : Fresh twoEntries :=
  ⟨⟨rfl, rfl, by decide⟩, rfl, rfl, rfl⟩

theorem threePages_empty : Empty twoEntries threePages :=
  ⟨⟨by decide, by decide, by decide⟩, by decide, by decide⟩

theorem crossed_legal : Transition.Legal World.Allowed (fun world act => (world.step act).1)
      (World.start twoEntries threePages) crossed := by
  refine ⟨⟨by decide, ?_⟩, ⟨by decide, ?_⟩, trivial, trivial, trivial, trivial, trivial, trivial,
    trivial, trivial⟩
  · exact not_mem_nil
  · decide

theorem split_returns_what_it_took_crossed :
    Honest twoEntries twoEntries [] ∧
      Transition.outputs World.step (World.start twoEntries threePages) crossed =
        Transition.outputs Box.step Mailbox.empty (crossed.map Act.event) :=
  ⟨(split_returns_what_it_took twoEntries twoEntries_fresh).1 [],
    (split_returns_what_it_took twoEntries twoEntries_fresh).2 threePages threePages_empty crossed
      crossed_legal⟩

end Lighter.Virtio.Split
