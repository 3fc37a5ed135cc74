import Lighter.Virtio.Disk
import Lighter.Virtio.Mmio

/-!
# virtio-blk

One request is one descriptor chain: a header the device reads, a data region whose
direction depends on the kind of request, and a status byte. A request that finds the
host's disk full waits and is tried again by the clock; requests behind it wait too,
except reads that touch nothing a waiting request is going to change.

A service is given a number of turns, since a driver may go on offering chains for
ever, and a reading of the clock. Beside the device stands a record of what it did,
which only the laws read: the chains taken, numbered in the order of pops; those that
the queue returned, and those that it refused to return since their head was not
outstanding; and the resets. What the driver reads of the configuration, the note of a
wait for the status readout and the counters of traces are left out.
-/

namespace Lighter.Virtio.Blk

/-- The kinds of request. -/
def kindIn : UInt32 := 0
def kindOut : UInt32 := 1
def kindFlush : UInt32 := 4
def kindGetId : UInt32 := 8
def kindDiscard : UInt32 := 11
def kindWriteZeroes : UInt32 := 13

/-- The status codes. -/
def statusOk : UInt8 := 0
def statusIoErr : UInt8 := 1
def statusUnsupp : UInt8 := 2

def featureDiscard : UInt64 := (1 : UInt64) <<< (13 : UInt64)
def featureWriteZeroes : UInt64 := (1 : UInt64) <<< (14 : UInt64)

def headerLen : Nat := 16

/-- The largest single descriptor that is served. -/
def maxTransfer : Nat := 4194304

def maxDiscardSectors : UInt32 := 4194304

/-- `lighter-blk`. -/
def deviceId : List UInt8 := [108, 105, 103, 104, 116, 101, 114, 45, 98, 108, 107]

/-- Three seconds. -/
def retryInterval : Nat := 3000000000

inductive Operation where
  | read (offset : Nat) (body : List Descriptor)
  | write (offset : Nat) (body : List Descriptor) (done : Nat)
  | flush
  | id (body : List Descriptor)
  | discard (offset len : Nat)
  | zero (offset len : Nat) (unmap : Bool) (done : Nat)
deriving DecidableEq, Repr

namespace Operation

/-- The descriptors between the header and the status. -/
def inner (body : List Descriptor) : List Descriptor := (body.drop 1).dropLast

def bodyLen (body : List Descriptor) : Nat := ((inner body).map fun desc => desc.len.toNat).sum

/-- The full range a request changes, also the part it has already written. -/
def mutationRange : Operation → Option (Nat × Nat)
  | .write offset body _ => some (offset, offset + bodyLen body)
  | .discard offset len => some (offset, offset + len)
  | .zero offset len _ _ => some (offset, offset + len)
  | _ => none

/-- Whether a request may go before an earlier one that waits. Changes and flushes keep
their order. -/
def mayPass (operation earlier : Operation) : Bool :=
  match operation with
  | .id _ => true
  | .read offset body =>
      let stop := offset + bodyLen body
      match earlier.mutationRange with
      | none => true
      | some (first, last) =>
          offset == stop || last ≤ first || stop ≤ first || offset ≥ last
  | _ => false

/-- Whether a request can need room on the host. -/
def mutates : Operation → Bool
  | .read _ _ => false
  | .id _ => false
  | _ => true

end Operation

def isFull (error : IoError) : Bool := error.rawOsError = some enospc

/-- A chain taken from a ring: its number in the order of pops, and where it goes back. -/
structure Taken where
  ticket : Nat
  queue : UInt16
  head : UInt16
deriving DecidableEq, Repr

structure Request where
  taken : Taken
  status : Descriptor
  operation : Operation
deriving DecidableEq, Repr

structure Pending where
  request : Request
  deadline : Nat
deriving DecidableEq, Repr

structure Block where
  disk : Disk
  readOnly : Bool
  acked : UInt64
  /-- How many queues are offered, at most 32. -/
  queues : Nat
  pending : Option Pending
  backlog : List Request
  /-- How many requests of each queue are held. -/
  retained : Nat → Nat

namespace Block

def new (disk : Disk) (queues : Nat) : Block where
  disk := disk
  readOnly := disk.readOnly
  acked := 0
  queues := max 1 (min queues 32)
  pending := none
  backlog := []
  retained := fun _ => 0

def ackFeatures (block : Block) (features : UInt64) : Block := { block with acked := features }

def retryDeadline (block : Block) : Option Nat := block.pending.map Pending.deadline

def reset (block : Block) : Block :=
  { block with acked := 0, pending := none, backlog := [], retained := fun _ => 0 }

/-- The requests that are held, the one that is tried again first. -/
def waiting (block : Block) : List Request :=
  (block.pending.map Pending.request).toList ++ block.backlog

def canPass (block : Block) (operation : Operation) : Bool :=
  block.pending.all (fun pending => operation.mayPass pending.request.operation) &&
    block.backlog.all fun request => operation.mayPass request.operation

/-- The feature that makes a kind of request legal, and the flags it may carry. -/
def featureOf (kind : UInt32) : UInt64 :=
  if kind = kindDiscard then featureDiscard else featureWriteZeroes

def flagsOf (kind : UInt32) : UInt32 := if kind = kindWriteZeroes then 1 else 0

/-- `prepare` for a read or a write. -/
def prepareTransfer (block : Block) (kind : UInt32) (offset : Nat)
    (descriptors : List Descriptor) : Except UInt8 Operation :=
  let total := Operation.bodyLen descriptors
  if offset + total ≥ 2 ^ 64 || offset + total > block.disk.len then .error statusIoErr
  else if kind = kindIn then .ok (.read offset descriptors)
  else if block.readOnly then .error statusIoErr
  else .ok (.write offset descriptors 0)

/-- `prepare` for a discard or zeroes, from the one segment that is advertised. -/
def prepareSegment (block : Block) (memory : GuestMemory) (kind : UInt32)
    (segment : Descriptor) : Except UInt8 Operation :=
  if segment.isWriteOnly || segment.len ≠ 16 then .error statusIoErr
  else if !memory.mapped segment.addr 16 then .error statusIoErr
  else
    match memory.readU64 segment.addr, memory.readU32 (address segment.addr 8),
        memory.readU32 (address segment.addr 12) with
    | some sector, some sectors, some flags =>
        let offset := sector * Disk.sectorSize
        let len := sectors.toNat * Disk.sectorSize
        if offset ≥ 2 ^ 64 then .error statusIoErr
        else if sectors > maxDiscardSectors || offset + len ≥ 2 ^ 64 ||
            offset + len > block.disk.len then .error statusIoErr
        else if flags &&& ~~~flagsOf kind ≠ 0 then .error statusUnsupp
        else if kind = kindDiscard then .ok (.discard offset len)
        else .ok (.zero offset len (flags &&& 1 != 0) 0)
    | _, _, _ => .error statusIoErr

/-- `prepare` for a header that could be read. -/
def prepareKind (block : Block) (memory : GuestMemory) (kind : UInt32) (offset : Nat)
    (descriptors : List Descriptor) : Except UInt8 Operation :=
  if kind = kindIn || kind = kindOut then block.prepareTransfer kind offset descriptors
  else if kind = kindFlush then .ok .flush
  else if kind = kindGetId then .ok (.id descriptors)
  else if kind = kindDiscard || kind = kindWriteZeroes then
    if block.acked &&& featureOf kind = 0 then .error statusUnsupp
    else if block.readOnly then .error statusIoErr
    else
      match Operation.inner descriptors with
      | [segment] => block.prepareSegment memory kind segment
      | _ => .error statusIoErr
  else .error statusUnsupp

/-- The checks on a chain, and the operation it asks for or the status it gets. -/
def prepare (block : Block) (memory : GuestMemory) (descriptors : List Descriptor) :
    Except UInt8 Operation :=
  match descriptors with
  | [] => .error statusIoErr
  | header :: rest =>
      if rest = [] || header.isWriteOnly || header.len.toNat < headerLen then .error statusIoErr
      else if !memory.mapped header.addr headerLen then .error statusIoErr
      else
        match memory.readU32 header.addr, memory.readU64 (address header.addr 8) with
        | some kind, some sector =>
            if sector * Disk.sectorSize ≥ 2 ^ 64 then .error statusIoErr
            else block.prepareKind memory kind (sector * Disk.sectorSize) descriptors
        | _, _ => .error statusIoErr

/-- The data descriptors as spans of the guest's memory, if each is inside it, not too
long, and goes the right way. -/
def spans (memory : GuestMemory) (writable : Bool) : List Descriptor → Option (List Iovec)
  | [] => some []
  | desc :: rest =>
      if desc.isWriteOnly != writable then none
      else if desc.len.toNat > maxTransfer then none
      else if !memory.mapped desc.addr desc.len.toNat then none
      else (spans memory writable rest).map (⟨desc.addr, desc.len.toNat⟩ :: ·)

/-- The identifier, padded to twenty bytes, into the first data descriptor. -/
def getId (memory : GuestMemory) (body : List Descriptor) : GuestMemory × UInt8 × UInt32 :=
  match body with
  | [] => (memory, statusIoErr, 0)
  | target :: _ =>
      if !target.isWriteOnly then (memory, statusIoErr, 0)
      else
        let len := min target.len.toNat 20
        let id := (deviceId.take (min deviceId.length len) ++ List.replicate 20 0).take 20
        match memory.write target.addr (id.take len) with
        | none => (memory, statusIoErr, 0)
        | some memory => (memory, statusOk, UInt32.ofNat len)

/-- What trying an operation leaves. -/
structure Performed where
  disk : Disk
  memory : GuestMemory
  operation : Operation
  result : Except IoError UInt32

/-- A result without a length. -/
def outcome : Option IoError → Except IoError UInt32
  | none => .ok 0
  | some error => .error error

def perform (block : Block) (memory : GuestMemory) (operation : Operation) : Performed :=
  match operation with
  | .read offset body =>
      match spans memory true (Operation.inner body) with
      | none => ⟨block.disk, memory, operation, .error .invalidInput⟩
      | some iovs =>
          match block.disk.readVectoredAt memory offset iovs with
          | (reading, disk, none) =>
              ⟨disk, reading.memory, operation, .ok (UInt32.ofNat (Iovec.total iovs))⟩
          | (reading, disk, some error) => ⟨disk, reading.memory, operation, .error error⟩
  | .write offset body done =>
      match spans memory false (Operation.inner body) with
      | none => ⟨block.disk, memory, operation, .error .invalidInput⟩
      | some iovs =>
          let wrote := block.disk.writeVectoredProgress memory.bytes offset iovs done
          ⟨wrote.disk, memory, .write offset body wrote.done, outcome wrote.error⟩
  | .flush =>
      let flushed := block.disk.flush
      ⟨flushed.1, memory, operation, outcome flushed.2⟩
  | .id body =>
      let (after, status, written) := getId memory (Operation.inner body)
      ⟨block.disk, after, operation,
        if status = statusOk then .ok written else .error .invalidInput⟩
  | .discard offset len =>
      let punched := block.disk.punchHole offset len
      ⟨punched.1, memory, operation, outcome punched.2⟩
  | .zero offset len unmap done =>
      let wrote := block.disk.writeZeroesProgress offset len unmap done
      ⟨wrote.disk, memory, .zero offset len unmap wrote.done, outcome wrote.error⟩

end Block

/-- What the record notes. -/
inductive Event where
  | popped (taken : Taken)
  | pushed (taken : Taken)
  /-- The queue refused to return the chain. -/
  | refused (taken : Taken)
  | reset
deriving DecidableEq, Repr

/-- What becomes of a chain that goes back to its queue: a head that is not outstanding is
refused. -/
def Event.back (queue : Virtqueue) (taken : Taken) : Event :=
  if queue.outstanding[taken.head.toNat]? = some true then .pushed taken else .refused taken

/-- The device with what it works on, and the record. -/
structure World where
  block : Block
  queues : List Virtqueue
  memory : GuestMemory
  /-- How many chains have been taken. -/
  popped : Nat
  log : List Event

namespace World

def note (world : World) (event : Event) : World := { world with log := world.log ++ [event] }

/-- `Virtqueue::push_used` on the chain's own queue. -/
def pushUsed (world : World) (taken : Taken) (len : UInt32) : World :=
  match world.queues[taken.queue.toNat]? with
  | none => world
  | some queue =>
      let pushed := queue.pushUsed world.memory taken.head len
      { world with
        queues := world.queues.set taken.queue.toNat pushed.1
        memory := pushed.2 }.note (Event.back queue taken)

/-- The status byte, and the chain goes back. -/
def complete (world : World) (taken : Taken) (status : Descriptor) (result : UInt8 × UInt32) :
    World :=
  { world with memory := (world.memory.write status.addr [result.1]).getD world.memory }.pushUsed
    taken (result.2 + 1)

def release (world : World) (queue : UInt16) : World :=
  { world with
    block := { world.block with
      retained := Function.update world.block.retained queue.toNat
        (world.block.retained queue.toNat - 1) } }

/-- An operation is tried. -/
def attempt (world : World) (request : Request) : World × Request × Except IoError UInt32 :=
  let performed := world.block.perform world.memory request.operation
  ({ world with
    block := { world.block with disk := performed.disk }
    memory := performed.memory }, { request with operation := performed.operation },
    performed.result)

/-- Gives a completion, or holds the request. -/
def submit (world : World) (clock : Nat) (request : Request) :
    World × Option (Request × UInt8 × UInt32) :=
  if world.block.pending.isSome && !world.block.canPass request.operation then
    ({ world with block := { world.block with backlog := world.block.backlog ++ [request] } }, none)
  else
    match world.attempt request with
    | (world, request, .ok written) =>
        (world.release request.taken.queue, some (request, statusOk, written))
    | (world, request, .error error) =>
        if isFull error && request.operation.mutates then
          ({ world with
            block := { world.block with
              pending := some ⟨request, clock + retryInterval⟩ } }, none)
        else
          (world.release request.taken.queue, some (request, statusIoErr, 0))

/-- The status descriptor of a chain, if it has a valid one. -/
def statusOf (memory : GuestMemory) (descriptors : List Descriptor) : Option Descriptor :=
  match descriptors.getLast? with
  | none => none
  | some desc =>
      if descriptors.length ≥ 2 && desc.isWriteOnly && desc.len ≥ 1 && memory.mapped desc.addr 1
      then some desc
      else none

/-- A request is accepted and counted. -/
def enter (world : World) (request : Request) : World :=
  { world with
    block := { world.block with
      retained := Function.update world.block.retained request.taken.queue.toNat
        (world.block.retained request.taken.queue.toNat + 1) } }

/-- A chain has been taken. -/
def take (world : World) (index head : UInt16) : World :=
  { world with popped := world.popped + 1 }.note (.popped ⟨world.popped, index, head⟩)

/-- One turn of `process_queue`, with the chain that was popped, and whether anything
was returned. -/
def serve (world : World) (clock : Nat) (index : UInt16) (chain : DescriptorChain) :
    World × Bool :=
  let taken : Taken := ⟨world.popped, index, chain.head⟩
  let world := world.take index chain.head
  let descriptors := chain.descriptors world.memory
  match statusOf world.memory descriptors with
  | none => (world.pushUsed taken 0, true)
  | some status =>
      match world.block.prepare world.memory descriptors with
      | .error code => (world.complete taken status (code, 0), true)
      | .ok operation =>
          let request : Request := ⟨taken, status, operation⟩
          match (world.enter request).submit clock request with
          | (world, none) => (world, false)
          | (world, some (_, result)) => (world.complete taken status result, true)

/-- The loop of `process_queue`, for so many turns. -/
def processQueue (clock : Nat) (index : UInt16) : Nat → World → Bool → World × Bool
  | 0, world, usedAny => (world, usedAny)
  | turns + 1, world, usedAny =>
      match world.queues[index.toNat]? with
      | none => (world, usedAny)
      | some queue =>
          if world.block.retained index.toNat < queue.size.toNat then
            match queue.pop world.memory with
            | (queue, none) =>
                ({ world with queues := world.queues.set index.toNat queue }, usedAny)
            | (queue, some chain) =>
                let world := { world with queues := world.queues.set index.toNat queue }
                let (world, used) := world.serve clock index chain
                processQueue clock index turns world (usedAny || used)
          else (world, usedAny)

def notify (world : World) (clock turns : Nat) (index : UInt16) : World × Serviced :=
  if index.toNat ≥ world.block.queues then (world, Serviced.none)
  else
    let (world, used) := processQueue clock index turns world false
    (world, if used then Serviced.queue index else Serviced.none)

/-- Reconsiders the requests that were held behind one that has ended. -/
def resubmit (clock : Nat) : List Request → World → Serviced → World × Serviced
  | [], world, serviced => (world, serviced)
  | request :: rest, world, serviced =>
      match world.submit clock request with
      | (world, none) => resubmit clock rest world serviced
      | (world, some (request, result)) =>
          resubmit clock rest (world.complete request.taken request.status result)
            (serviced.and (Serviced.queue request.taken.queue))

/-- No earlier than this. -/
def postpone (world : World) (deadline : Nat) : World :=
  { world with
    block := { world.block with
      pending := world.block.pending.map fun pending =>
        { pending with deadline := max pending.deadline deadline } } }

/-- The request that was tried again has ended: it goes back, and those behind it are
reconsidered. -/
def recover (world : World) (clock now : Nat) (request : Request) (result : UInt8 × UInt32) :
    World × Serviced :=
  let world := (world.complete request.taken request.status result).release request.taken.queue
  let backlog := world.block.backlog
  let (world, serviced) :=
    resubmit clock backlog { world with block := { world.block with backlog := [] } }
      (Serviced.queue request.taken.queue)
  (world.postpone (now + retryInterval), serviced)

def retry (world : World) (clock now : Nat) : World × Serviced :=
  match world.block.pending with
  | none => (world, Serviced.none)
  | some pending =>
      if now < pending.deadline then (world, Serviced.none)
      else
        let world := { world with block := { world.block with pending := none } }
        match world.attempt pending.request with
        | (world, request, .ok written) => world.recover clock now request (statusOk, written)
        | (world, request, .error error) =>
            if isFull error then
              ({ world with
                block := { world.block with
                  pending := some ⟨request, max clock now + retryInterval⟩ } }, Serviced.none)
            else world.recover clock now request (statusIoErr, 0)

/-- A queue as the driver sets it up after a reset: where the rings are, how long and in which
layout. The device's own place in them is at the start. -/
def setUp (queue : Virtqueue) : Virtqueue :=
  { queue.reset with
    size := queue.size
    descAddr := queue.descAddr
    availAddr := queue.availAddr
    usedAddr := queue.usedAddr
    ready := queue.ready
    packed := queue.packed
    eventIdx := queue.eventIdx }

/-- The device is reset, and the driver sets up queues anew. -/
def reset (world : World) (queues : List Virtqueue) : World :=
  { world with block := world.block.reset, queues := queues.map setUp }.note .reset

/-- What happens to the device. -/
inductive Act where
  | notify (clock turns : Nat) (index : UInt16)
  | retry (clock now : Nat)
  | ackFeatures (features : UInt64)
  /-- The guest writes to its memory. -/
  | guest (bytes : Nat → UInt8)
  | reset (queues : List Virtqueue)

def step (world : World) : Act → World
  | .notify clock turns index => (world.notify clock turns index).1
  | .retry clock now => (world.retry clock now).1
  | .ackFeatures features => { world with block := world.block.ackFeatures features }
  | .guest bytes => { world with memory := { world.memory with bytes := bytes } }
  | .reset queues => world.reset queues

/-- A device over a file, before anything has happened. -/
def start (disk : Disk) (count : Nat) (queues : List Virtqueue) (memory : GuestMemory) : World where
  block := Block.new disk count
  queues := queues.map setUp
  memory := memory
  popped := 0
  log := []

end World
end Lighter.Virtio.Blk
