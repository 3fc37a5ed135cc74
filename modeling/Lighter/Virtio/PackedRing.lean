import Lighter.Lib.Lap
import Lighter.Lib.Mailbox
import Lighter.Lib.Transition
import Lighter.Virtio.RingMemory

/-!
# A packed ring and its driver

The driver here is the protocol's, not a program's: it writes the entries of a chain
into free slots, the flags of the first one last; it gives each chain an id that is
not in use; and it takes used entries in ring order, moving on by the slots of the
chain an entry names. It counts slots since the beginning, of which a real driver
keeps the position and the parity of the lap.

The device is the queue with the chains it has popped, each with the walk over it.
Memory outside the ring and outside the tables of chains in use may change at any
time to anything.
-/

namespace Lighter.Virtio.Packed

open Lap DescriptorChain

/-- The two availability bits of an entry. -/
def availBit (flags : UInt16) : Bool := flags &&& descAvail != 0

def usedBit (flags : UInt16) : Bool := flags &&& descUsed != 0

/-- A chain a driver offers: its ring entries, the id it wants back, and the table the
one entry names, if it names one. -/
structure Offer where
  id : UInt16
  entries : List PackedDesc
  table : Option (List PackedDesc)
deriving DecidableEq, Repr

namespace Offer

/-- The ring slots a chain takes. -/
def slots (offer : Offer) : Nat := offer.entries.length

/-- The buffers of a chain, as a device should see them. -/
def descs (offer : Offer) : List Descriptor := (offer.table.getD offer.entries).map plain

/-- The last entry of a chain carries the id, every other one continues, and none
names a table. -/
structure Direct (offer : Offer) : Prop where
  table : offer.table = none
  next : ∀ index desc, offer.entries[index]? = some desc →
    (desc.flags &&& descNext ≠ 0 ↔ index + 1 < offer.slots)
  plain : ∀ desc ∈ offer.entries, desc.flags &&& descIndirect = 0
  id : ∀ desc, offer.entries.getLast? = some desc → desc.id = offer.id

/-- One entry that names a table of at least one descriptor, no longer than the
ring. -/
structure Indirect (size : Nat) (offer : Offer) (desc : PackedDesc)
    (inner : List PackedDesc) : Prop where
  table : offer.table = some inner
  entries : offer.entries = [desc]
  named : desc.flags &&& descIndirect ≠ 0
  id : desc.id = offer.id
  filled : 0 < inner.length
  short : inner.length ≤ size
  len : desc.len.toNat / descSize = inner.length

/-- A chain a driver may offer on a ring of so many slots. -/
structure Proper (size : Nat) (offer : Offer) : Prop where
  id : offer.id.toNat < size
  filled : 0 < offer.slots
  short : offer.slots ≤ size
  addr : ∀ desc ∈ offer.entries, desc.addr < 2 ^ 64
  shape : offer.Direct ∨ ∃ desc inner, offer.Indirect size desc inner

/-- Every entry carries the lap of the slot it is written to. -/
def Lapped (size place : Nat) (offer : Offer) : Prop :=
  ∀ index desc, offer.entries[index]? = some desc →
    availBit desc.flags = lap size (place + index) ∧
      usedBit desc.flags = !lap size (place + index)

/-- The table a chain names is in memory, apart from the ring. -/
def Tabled (memory : GuestMemory) (base size : Nat) (offer : Offer) : Prop :=
  ∀ desc inner, offer.Indirect size desc inner →
    Backs memory desc.addr inner.length ∧
      (desc.addr + inner.length * descSize ≤ base ∨ base + size * descSize ≤ desc.addr) ∧
      ∀ index raw, inner[index]? = some raw → entry memory desc.addr index = raw

end Offer

structure Driver where
  /-- Slots published, and slots reclaimed, since the beginning. -/
  published : Nat
  reclaimed : Nat
  /-- The chain written and not yet published. -/
  draft : Option Offer
  /-- Every chain written and not yet reclaimed. -/
  inUse : List Offer

namespace Driver

/-- An entry's fields before its flags. -/
def putBody (memory : GuestMemory) (base index : Nat) (desc : PackedDesc) : GuestMemory :=
  let memory := putPart memory base index .addr desc.addr
  let memory := putPart memory base index .len desc.len.toNat
  putPart memory base index .id desc.id.toNat

def putEntry (memory : GuestMemory) (base index : Nat) (desc : PackedDesc) : GuestMemory :=
  putPart (putBody memory base index desc) base index .flags desc.flags.toNat

/-- Entries written into consecutive slots. -/
def putEntries (base size : Nat) : (place : Nat) → List PackedDesc → GuestMemory → GuestMemory
  | _, [], memory => memory
  | place, desc :: rest, memory =>
      putEntries base size (place + 1) rest (putEntry memory base (place % size) desc)

/-- Writes a chain, all but the flags of its first entry. -/
def prepare (driver : Driver) (memory : GuestMemory) (base size : Nat) (offer : Offer) :
    Driver × GuestMemory :=
  ({ driver with draft := some offer, inUse := driver.inUse ++ [offer] },
    match offer.entries with
    | [] => memory
    | desc :: rest =>
        putEntries base size (driver.published + 1) rest
          (putBody memory base (driver.published % size) desc))

/-- Publishes the chain written: the flags of its first entry. -/
def publish (driver : Driver) (memory : GuestMemory) (base size : Nat) : Driver × GuestMemory :=
  match driver.draft with
  | none => (driver, memory)
  | some offer =>
      ({ driver with draft := none, published := driver.published + offer.slots },
        match offer.entries with
        | [] => memory
        | desc :: _ => putPart memory base (driver.published % size) .flags desc.flags.toNat)

/-- Takes the next used entry, if its two bits say that it is one of this lap. -/
def reclaim (driver : Driver) (memory : GuestMemory) (base size : Nat) :
    Driver × Option (UInt16 × UInt32) :=
  let cell := entry memory base (driver.reclaimed % size)
  if availBit cell.flags = lap size driver.reclaimed ∧
      usedBit cell.flags = lap size driver.reclaimed then
    match driver.inUse.find? fun offer => offer.id = cell.id with
    | none => (driver, none)
    | some offer =>
        ({ driver with
          reclaimed := driver.reclaimed + offer.slots
          inUse := driver.inUse.eraseP fun offer => offer.id = cell.id },
          some (cell.id, cell.len))
  else (driver, none)

end Driver

structure World where
  queue : Virtqueue
  memory : GuestMemory
  driver : Driver
  /-- The chains popped, each with its walk and whether the walk has ended. -/
  hands : List (DescriptorChain × Bool)

inductive Act where
  | prepare (offer : Offer)
  | publish
  /-- Guest memory changes. -/
  | elsewhere (bytes : Nat → UInt8)
  | pop
  /-- One call of the iterator over a chain popped. -/
  | walk (index : Nat)
  | complete (id : UInt16) (len : UInt32)
  | reclaim

namespace World

def base (world : World) : Nat := world.queue.descAddr

def size (world : World) : Nat := world.queue.size.toNat

def start (queue : Virtqueue) (memory : GuestMemory) : World :=
  ⟨queue, memory, ⟨0, 0, none, []⟩, []⟩

def step (world : World) : Act → World × Mailbox.Reply UInt16 Descriptor UInt32
  | .prepare offer =>
      let (driver, memory) := world.driver.prepare world.memory world.base world.size offer
      ({ world with driver := driver, memory := memory }, .silent)
  | .publish =>
      let (driver, memory) := world.driver.publish world.memory world.base world.size
      ({ world with driver := driver, memory := memory }, .silent)
  | .elsewhere bytes =>
      ({ world with memory := { world.memory with bytes := bytes } }, .silent)
  | .pop =>
      let (queue, chain) := world.queue.pop world.memory
      ({ world with
        queue := queue
        hands := world.hands ++ (chain.map fun chain => (chain, false)).toList },
        .took (chain.map DescriptorChain.head))
  | .walk index =>
      match world.hands[index]? with
      | none => (world, .part none)
      | some (chain, ended) =>
          let (chain, desc) := chain.next world.memory
          ({ world with hands := world.hands.set index (chain, ended || desc.isNone) },
            .part desc)
  | .complete id len =>
      let (queue, memory) := world.queue.pushUsed world.memory id len
      ({ world with queue := queue, memory := memory }, .silent)
  | .reclaim =>
      let (driver, answer) := world.driver.reclaim world.memory world.base world.size
      ({ world with driver := driver }, .collected answer)

/-- The bytes of the ring, and of every table in use, are as they were. -/
def Spares (world : World) (bytes : Nat → UInt8) : Prop :=
  (∀ position, world.base ≤ position → position < world.base + world.size * descSize →
    bytes position = world.memory.bytes position) ∧
  ∀ offer ∈ world.driver.inUse, ∀ desc inner, offer.Indirect world.size desc inner →
    ∀ position, desc.addr ≤ position → position < desc.addr + inner.length * descSize →
      bytes position = world.memory.bytes position

/-- A chain is written into free slots, with an id that is not in use; memory changes
elsewhere; and every chain popped is walked to its end before a completion. -/
def Allowed (world : World) : Act → Prop
  | .prepare offer =>
      world.driver.draft = none ∧ offer.Proper world.size ∧
        offer.Lapped world.size world.driver.published ∧
        offer.Tabled world.memory world.base world.size ∧
        world.driver.published + offer.slots ≤ world.driver.reclaimed + world.size ∧
        ∀ other ∈ world.driver.inUse, other.id ≠ offer.id
  | .elsewhere bytes => world.Spares bytes
  | .complete _ _ => ∀ hand ∈ world.hands, hand.2 = true
  | _ => True

end World

/-- What an action is to the mailbox. -/
def Act.event : Act → Mailbox.Event Offer UInt16 UInt32
  | .prepare offer => .write offer
  | .publish => .post
  | .elsewhere _ => .idle
  | .pop => .take
  | .walk index => .read index
  | .complete id len => .answer id len
  | .reclaim => .collect

end Lighter.Virtio.Packed
