import Lighter.Lib.Word

/-!
# Walking a descriptor chain

A descriptor is a buffer the driver lends the device, with flag bits that say what it is. The
iterator over the descriptors of one chain reads guest memory as it stands at each
call, so every field is read once, and the whole walk is bounded whatever the
tables say. A split chain follows the `next` fields, through at most one
indirect table at a time; a packed chain is a run of ring entries of known length,
or the one table such an entry names.
-/

namespace Lighter.Virtio

open GuestMemory

/-- This descriptor continues into the next. -/
def descNext : UInt16 := 1

/-- The device writes this buffer; without it, the device reads it. -/
def descWrite : UInt16 := 2

/-- This descriptor points at a table of further descriptors. -/
def descIndirect : UInt16 := 4

/-- In a packed ring, the driver flips this bit to hand a descriptor over, -/
def descAvail : UInt16 := 128

/-- and this one matches it once the device has finished. -/
def descUsed : UInt16 := 32768

structure Descriptor where
  addr : Nat
  len : UInt32
  flags : UInt16
  next : UInt16
deriving DecidableEq, Repr

/-- Bytes per descriptor in every table. -/
def descSize : Nat := 16

/-- The largest queue a device advertises. -/
def maxQueueSize : UInt16 := 256

namespace Descriptor

def isWriteOnly (desc : Descriptor) : Bool := desc.flags &&& descWrite != 0

def hasNext (desc : Descriptor) : Bool := desc.flags &&& descNext != 0

def isIndirect (desc : Descriptor) : Bool := desc.flags &&& descIndirect != 0

end Descriptor

/-- One entry of a packed ring: the same sixteen bytes, arranged differently. -/
structure PackedDesc where
  addr : Nat
  len : UInt32
  id : UInt16
  flags : UInt16
deriving DecidableEq, Repr

/-- Which layout a chain is walking. -/
inductive Walk where
  | split (next : Option UInt16) (indirect : Bool) (outerNext : Option UInt16)
      (outerTable : Nat) (outerLen : UInt16)
  /-- Consecutive ring entries: where they start, how many they are and how many have
  been yielded. -/
  | packed (start slots taken : UInt16)
  /-- A packed chain whose one ring entry pointed at a table. -/
  | packedIndirect (taken : UInt16)
deriving DecidableEq, Repr

structure DescriptorChain where
  /-- The table being walked, the queue's own or an indirect one. -/
  table : Nat
  tableLen : UInt16
  /-- What the driver gets back: the first index in a split ring, the buffer id in a
  packed one. -/
  head : UInt16
  /-- Descriptors read so far, to bound the walk. -/
  walked : Nat
  walk : Walk
deriving DecidableEq, Repr

namespace DescriptorChain

def new (table : Nat) (tableLen head : UInt16) : DescriptorChain :=
  ⟨table, tableLen, head, 0, .split (some head) false none 0 0⟩

/-- A chain of consecutive packed ring entries. -/
def packed (table : Nat) (tableLen start slots id : UInt16) : DescriptorChain :=
  ⟨table, tableLen, id, 0, .packed start slots 0⟩

/-- The most descriptors a walk reads before it gives up. -/
def bound : Nat := maxQueueSize.toNat * 2

def readDescriptor (memory : GuestMemory) (table : Nat) (index : UInt16) :
    Option Descriptor := do
  let addr := address table (index.toNat * descSize)
  let buffer ← memory.readU64 addr
  let len ← memory.readU32 (address addr 8)
  let flags ← memory.readU16 (address addr 12)
  let next ← memory.readU16 (address addr 14)
  return ⟨buffer, len, flags, next⟩

def readPacked (memory : GuestMemory) (table : Nat) (index : UInt16) : Option PackedDesc := do
  let addr := address table (index.toNat * descSize)
  let buffer ← memory.readU64 addr
  let len ← memory.readU32 (address addr 8)
  let id ← memory.readU16 (address addr 12)
  let flags ← memory.readU16 (address addr 14)
  return ⟨buffer, len, id, flags⟩

/-- How many descriptors an indirect table of so many bytes holds. -/
def indirectLen (len : UInt32) : UInt16 := UInt16.ofNat (min (len.toNat / descSize) bound)

/-- One turn of the split walk. Without a result the walk has entered an indirect
table and goes round again. -/
def splitTurn (memory : GuestMemory) (chain : DescriptorChain) (next : Option UInt16)
    (indirect : Bool) (outerNext : Option UInt16) (outerTable : Nat) (outerLen : UInt16) :
    DescriptorChain × Option (Option Descriptor) :=
  if chain.walked > bound then (chain, some none)
  else
    match next with
    | none => (chain, some none)
    | some index =>
        if index ≥ chain.tableLen then (chain, some none)
        else
          match readDescriptor memory chain.table index with
          | none => (chain, some none)
          | some desc =>
              let chain := { chain with walked := chain.walked + 1 }
              if desc.isIndirect && !indirect then
                ({ chain with
                  walk := .split (some 0) true (if desc.hasNext then some desc.next else none)
                    chain.table chain.tableLen
                  table := desc.addr
                  tableLen := indirectLen desc.len }, none)
              else if desc.hasNext then
                ({ chain with
                  walk := .split (some desc.next) indirect outerNext outerTable outerLen },
                  some (some desc))
              else if indirect then
                -- The table ended: the outer chain goes on where it left off.
                ({ chain with
                  table := outerTable
                  tableLen := outerLen
                  walk := .split outerNext false none 0 0 }, some (some desc))
              else
                ({ chain with walk := .split none indirect outerNext outerTable outerLen },
                  some (some desc))

/-- A table is entered at most once in a call: inside one no other is. -/
def nextSplit (memory : GuestMemory) (chain : DescriptorChain) :
    DescriptorChain × Option Descriptor :=
  match chain.walk with
  | .split next indirect outerNext outerTable outerLen =>
      match splitTurn memory chain next indirect outerNext outerTable outerLen with
      | (chain, some result) => (chain, result)
      | (chain, none) =>
          match chain.walk with
          | .split next indirect outerNext outerTable outerLen =>
              let (chain, result) :=
                splitTurn memory chain next indirect outerNext outerTable outerLen
              (chain, result.join)
          | _ => (chain, none)
  | _ => (chain, none)

/-- A packed entry as the devices see it. -/
def plain (raw : PackedDesc) : Descriptor :=
  ⟨raw.addr, raw.len, raw.flags &&& (descNext ||| descWrite), 0⟩

/-- The next descriptor of an indirect table. -/
def nextIndirect (memory : GuestMemory) (chain : DescriptorChain) (taken : UInt16) :
    DescriptorChain × Option Descriptor :=
  if taken ≥ chain.tableLen then (chain, none)
  else
    match readPacked memory chain.table taken with
    | none => (chain, none)
    | some raw =>
        ({ chain with walked := chain.walked + 1, walk := .packedIndirect (taken + 1) },
          some (plain raw))

def nextPacked (memory : GuestMemory) (chain : DescriptorChain) :
    DescriptorChain × Option Descriptor :=
  match chain.walk with
  | .packed start slots taken =>
      if taken ≥ slots then (chain, none)
      else
        match readPacked memory chain.table ((start + taken) % max chain.tableLen 1) with
        | none => (chain, none)
        | some raw =>
            let chain := { chain with walked := chain.walked + 1 }
            if raw.flags &&& descIndirect != 0 then
              nextIndirect memory
                { chain with
                  table := raw.addr
                  tableLen := indirectLen raw.len
                  walk := .packedIndirect 0 } 0
            else
              ({ chain with walk := .packed start slots (taken + 1) }, some (plain raw))
  | .packedIndirect taken => nextIndirect memory chain taken
  | .split .. => (chain, none)

/-- `Iterator::next`. -/
def next (memory : GuestMemory) (chain : DescriptorChain) :
    DescriptorChain × Option Descriptor :=
  if chain.walked > bound then (chain, none)
  else
    match chain.walk with
    | .split .. => nextSplit memory chain
    | _ => nextPacked memory chain

/-- The descriptors an iteration yields, up to a number of them. -/
def descriptorsWithin (memory : GuestMemory) : Nat → DescriptorChain → List Descriptor
  | 0, _ => []
  | left + 1, chain =>
      match chain.next memory with
      | (chain, some desc) => desc :: descriptorsWithin memory left chain
      | (_, none) => []

/-- `for desc in chain`. Each descriptor counts towards the bound, past which the
iterator yields nothing. -/
def descriptors (memory : GuestMemory) (chain : DescriptorChain) : List Descriptor :=
  descriptorsWithin memory (bound + 2) chain

end DescriptorChain
end Lighter.Virtio
