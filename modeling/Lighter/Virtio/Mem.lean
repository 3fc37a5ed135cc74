import Lighter.Lib.Flags
import Lighter.Virtio.Queue

/-!
# virtio-mem

Memory the guest plugs in. The host offers an amount of a range, the guest plugs and
unplugs blocks of it by request, and the host publishes how much of the range is
backed. What a released block reads as afterwards is the host's business, so the
release is a parameter. The clocks are given with each call. What the driver reads of
the configuration and the policy that decides on offers are left out.
-/

namespace Lighter.Virtio.Mem

open Flags

/-- One device block: 128 MiB. -/
def blockSize : UInt64 := 134217728

/-- The kinds of request. -/
inductive Kind where
  | plug
  | unplug
  | unplugAll
  | state
  | other (raw : UInt16)
deriving DecidableEq, Repr

def Kind.ofRaw (raw : UInt16) : Kind :=
  if raw = 0 then .plug
  else if raw = 1 then .unplug
  else if raw = 2 then .unplugAll
  else if raw = 3 then .state
  else .other raw

inductive Response where
  | ack
  | nack
  | error
deriving DecidableEq, Repr

def Response.raw : Response → UInt16
  | .ack => 0
  | .nack => 1
  | .error => 3

/-- What a span is found to be. -/
def statePlugged : UInt16 := 0
def stateUnplugged : UInt16 := 1
def stateMixed : UInt16 := 2

/-- The length of a request and of a response. -/
def reqLen : Nat := 24
def respLen : Nat := 10

/-- Where the range is: whole blocks, inside the address space. -/
structure Range where
  addr : UInt64
  region : UInt64
  aligned : addr.toNat % blockSize.toNat = 0
  whole : region.toNat % blockSize.toNat = 0
  fits : addr.toNat + region.toNat < 2 ^ 64

/-- What the host and the device share about the range. -/
structure MemState where
  range : Range
  requested : UInt64
  /-- The prefix safe for guest access. -/
  available : UInt64
  plugged : UInt64
  /-- One flag per block, set while the guest holds it. -/
  blocks : List Bool
  /-- When the offer last went up and last changed, and when a block was last
  plugged. -/
  grownAt : UInt64
  changedAt : UInt64
  pluggedAt : UInt64

def round (bytes : UInt64) : UInt64 := bytes / blockSize * blockSize

namespace MemState

def new (range : Range) (requested : UInt64) : MemState where
  range := range
  requested := round (min requested range.region)
  available := range.region
  plugged := 0
  blocks := List.replicate (range.region / blockSize).toNat false
  grownAt := UInt64.ofNat (2 ^ 64 - 1)
  changedAt := 0
  pluggedAt := 0

/-- Nothing is backed yet. -/
def deferBacking (state : MemState) : MemState := { state with available := 0 }

def requestedBytes (state : MemState) : UInt64 := min state.requested state.available

/-- Offers bytes of the range, rounded down to whole blocks and capped at the range. -/
def setRequestedBytes (state : MemState) (bytes : UInt64) : MemState :=
  { state with requested := round (min bytes state.range.region) }

/-- The block at an address, if it is a block boundary inside the range. -/
def blockOf (state : MemState) (gpa : UInt64) : Option Nat :=
  if gpa < state.range.addr || gpa ≥ state.range.addr + state.range.region ||
      gpa % blockSize != 0 then none
  else some ((gpa - state.range.addr) / blockSize).toNat

/-- `MemControl::backing_ready`, where its assertions hold. -/
def backingReady (state : MemState) (bytes : UInt64) : MemState := { state with available := bytes }

/-- `MemControl::request`. The same offer again is no offer. -/
def request (state : MemState) (now bytes : UInt64) : MemState :=
  let before := state.requestedBytes
  if round (min bytes state.range.region) = before then state
  else
    let state := { state.setRequestedBytes bytes with changedAt := now }
    if state.requested > before then { state with grownAt := now } else state

/-- A reset unplugs everything. -/
def reset (state : MemState) (now : UInt64) : MemState :=
  { state with
    blocks := List.replicate state.blocks.length false
    plugged := 0
    pluggedAt := now }

end MemState

/-- A request as it is read from its bytes. -/
structure Request where
  kind : Kind
  addr : UInt64
  count : UInt16
deriving DecidableEq, Repr

def Request.ofBytes (bytes : List UInt8) : Request where
  kind := Kind.ofRaw (UInt16.ofNat (Fixed.fromLe (bytes.take 2)))
  addr := UInt64.ofNat (Fixed.fromLe ((bytes.drop 8).take 8))
  count := UInt16.ofNat (Fixed.fromLe ((bytes.drop 16).take 2))

/-- What a request leaves: the state, the response's type and state, and the memory to
release. -/
structure Handled where
  state : MemState
  response : Response
  found : UInt16
  released : Option (UInt64 × UInt64)

/-- A refusal, or an answer that changes nothing. -/
def answer (state : MemState) (response : Response) (found : UInt16) : Handled :=
  ⟨state, response, found, none⟩

namespace MemState

/-- `blocks` bytes, as a product of machine words. -/
def bytesOf (blocks : Nat) : UInt64 := UInt64.ofNat blocks * blockSize

def plug (state : MemState) (now : UInt64) (first count : Nat) : Handled :=
  if bytesOf (first + count) > state.available then answer state .nack 0
  else if (span state.blocks first count).any id then answer state .nack 0
  else
    let wanted := bytesOf count
    if state.plugged + wanted > state.requestedBytes then answer state .nack 0
    else
      answer
        { state with
          blocks := fill state.blocks first count true
          plugged := state.plugged + wanted
          pluggedAt := now } .ack 0

def unplug (state : MemState) (addr : UInt64) (first count : Nat) : Handled :=
  if (span state.blocks first count).any (fun held => !held) then answer state .nack 0
  else
    ⟨{ state with
        blocks := fill state.blocks first count false
        plugged := state.plugged - bytesOf count },
      .ack, 0, some (addr, bytesOf count)⟩

def unplugAll (state : MemState) : Handled :=
  ⟨{ state with blocks := List.replicate state.blocks.length false, plugged := 0 }, .ack, 0,
    if state.available != 0 then some (state.range.addr, state.available) else none⟩

/-- How many of the span's flags are set decides. -/
def tell (state : MemState) (first count : Nat) : Handled :=
  let held := (span state.blocks first count).count true
  answer state .ack
    (if held = 0 then stateUnplugged else if held = count then statePlugged else stateMixed)

/-- Handles one request. -/
def handle (state : MemState) (now : UInt64) (request : Request) : Handled :=
  match state.blockOf request.addr with
  | none => answer state .error 0
  | some first =>
      let count := request.count.toNat
      if request.kind ≠ .unplugAll ∧ (count = 0 ∨ first + count > state.blocks.length) then
        answer state .error 0
      else
        match request.kind with
        | .plug => state.plug now first count
        | .unplug => state.unplug request.addr first count
        | .unplugAll => state.unplugAll
        | .state => state.tell first count
        | .other _ => answer state .error 0

end MemState

/-- What has been read of a chain: the request's bytes so far and where the response
goes. -/
structure Gathered where
  request : List UInt8
  responseAt : Option (Nat × UInt32)

/-- One descriptor. A read that fails leaves its place to the next. -/
def gather (memory : GuestMemory) (gathered : Gathered) (desc : Descriptor) : Gathered :=
  if desc.isWriteOnly then
    if gathered.responseAt.isNone then
      { gathered with responseAt := some (desc.addr, desc.len) }
    else gathered
  else
    let take := min desc.len.toNat (reqLen - gathered.request.length)
    if take > 0 then
      match memory.read desc.addr take with
      | some bytes => { gathered with request := gathered.request ++ bytes }
      | none => gathered
    else gathered

/-- The response's bytes: its type, padding, and the state. -/
def responseBytes (response : Response) (found : UInt16) : List UInt8 :=
  Fixed.leBytes 2 response.raw.toNat ++ List.replicate 6 0 ++ Fixed.leBytes 2 found.toNat

/-- Writes as much of the response as fits, and says how much. -/
def respond (memory : GuestMemory) (responseAt : Option (Nat × UInt32)) (response : Response)
    (found : UInt16) : GuestMemory × UInt32 :=
  match responseAt with
  | none => (memory, 0)
  | some (addr, len) =>
      let bytes := (responseBytes response found).take (min len.toNat respLen)
      match memory.write addr bytes with
      | some memory => (memory, UInt32.ofNat bytes.length)
      | none => (memory, 0)

/-- The device with its queue and the guest's memory. -/
structure Served where
  state : MemState
  queue : Virtqueue
  memory : GuestMemory

/-- One chain. A request cut short is an error. -/
def serve (release : GuestMemory → UInt64 × UInt64 → GuestMemory) (now : UInt64)
    (served : Served) (chain : DescriptorChain) : Served :=
  let gathered := (chain.descriptors served.memory).foldl (gather served.memory) ⟨[], none⟩
  let handled :=
    if gathered.request.length = reqLen then
      served.state.handle now (Request.ofBytes gathered.request)
    else answer served.state .error 0
  let memory := (handled.released.map (release served.memory)).getD served.memory
  let (memory, written) := respond memory gathered.responseAt handled.response handled.found
  let (queue, memory) := served.queue.pushUsed memory chain.head written
  ⟨handled.state, queue, memory⟩

/-- Takes chains until there is none. -/
def drain (release : GuestMemory → UInt64 × UInt64 → GuestMemory) (now : UInt64) :
    Nat → Served → Served
  | 0, served => served
  | left + 1, served =>
      match served.queue.pop served.memory with
      | (queue, some chain) =>
          drain release now left (serve release now { served with queue := queue } chain)
      | (queue, none) => { served with queue := queue }

end Lighter.Virtio.Mem
