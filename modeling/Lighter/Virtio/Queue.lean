import Lighter.Virtio.Chain

/-!
# Virtqueues

The rings through which every device moves data, in both layouts. The rings are in
guest memory; what the device keeps is its own place in them. Each call is given
the memory as it finds it and returns what it leaves. A write that the memory
refuses is ignored, as the device ignores it.

The fields of fixed width are the machine's. A remainder by a size of zero, at
which the code would stop the machine, is the dividend here. Log lines and the
readouts for diagnosis are left out, and barriers are not needed where memory is
sequentially consistent.
-/

namespace Lighter.Virtio

open GuestMemory

/-- Event suppression in a packed ring: always tell me. -/
def eventEnable : UInt16 := 0

/-- Never tell me. -/
def eventDisable : UInt16 := 1

/-- Tell me when you reach the descriptor named in `off_wrap`. -/
def eventDesc : UInt16 := 2

/-- Bit 15 of `off_wrap` carries the wrap counter, the rest the offset. -/
def eventWrap : UInt16 := 32768

/-- `vring_need_event`: whether `wanted` lies in `(last, now]` on a ring of indices
that wraps at 65536. -/
def needEvent (wanted now last : UInt16) : Bool := now - wanted - 1 < now - last

/-- A power of two, as `u16::is_power_of_two` has it. -/
def isPowerOfTwo (size : UInt16) : Bool := (List.range 16).any fun bit => size.toNat == 2 ^ bit

structure Virtqueue where
  /-- The largest size the device supports for the queue, and the one chosen. -/
  maxSize : UInt16
  size : UInt16
  descAddr : Nat
  availAddr : Nat
  usedAddr : Nat
  ready : Bool
  /-- How far the available ring has been consumed. -/
  nextAvail : UInt16
  /-- Where the next used entry goes. -/
  nextUsed : UInt16
  /-- Whether the driver chose the packed layout. -/
  packed : Bool
  /-- The lap of each cursor in a packed ring. -/
  availWrap : Bool
  usedWrap : Bool
  eventIdx : Bool
  suppressed : Bool
  /-- The last value written to the driver's copy of the available event. -/
  publishedEvent : Option UInt16
  /-- The used index as of the last interrupt raised. -/
  signalledUsed : UInt16
  /-- Slots completed on a packed ring, free-running, now and as of the last check. -/
  usedTotal : UInt16
  signalledTotal : UInt16
  /-- How many ring slots each buffer id occupied when it was taken. -/
  chainLen : List UInt16
  /-- Which heads were taken and have not been returned. -/
  outstanding : List Bool
deriving DecidableEq, Repr

namespace Virtqueue

def new (maxSize : UInt16) : Virtqueue where
  maxSize := maxSize
  size := maxSize
  descAddr := 0
  availAddr := 0
  usedAddr := 0
  ready := false
  nextAvail := 0
  nextUsed := 0
  packed := false
  availWrap := true
  usedWrap := true
  eventIdx := false
  suppressed := false
  publishedEvent := none
  signalledUsed := 0
  usedTotal := 0
  signalledTotal := 0
  chainLen := []
  outstanding := []

/-- The size the driver selected, clamped to what is supported. -/
def setSize (queue : Virtqueue) (size : UInt16) : Virtqueue :=
  { queue with size := min size queue.maxSize }

def setEventIdx (queue : Virtqueue) (on : Bool) : Virtqueue := { queue with eventIdx := on }

def setPacked (queue : Virtqueue) (on : Bool) : Virtqueue := { queue with packed := on }

def isGeometryValid (queue : Virtqueue) : Bool :=
  queue.size > 0 && queue.size ≤ queue.maxSize && isPowerOfTwo queue.size &&
    queue.descAddr != 0 && queue.availAddr != 0 && queue.usedAddr != 0

/-- Marks the queue live, if its geometry is usable. -/
def setReady (queue : Virtqueue) (ready : Bool) : Virtqueue × Bool :=
  if ready && !queue.isGeometryValid then (queue, false)
  else ({ queue with ready := ready }, true)

def reset (queue : Virtqueue) : Virtqueue := new queue.maxSize

/-- The address of a ring entry; both layouts have sixteen bytes an entry. -/
def descAt (queue : Virtqueue) (index : UInt16) : Nat :=
  address queue.descAddr (index.toNat * descSize)

/-- Where the driver publishes the used index it wants an interrupt at. -/
def usedEventAddr (queue : Virtqueue) : Nat :=
  address queue.availAddr (4 + queue.size.toNat * 2)

/-- Where the device publishes the available index it wants a kick at. -/
def availEventAddr (queue : Virtqueue) : Nat :=
  address queue.usedAddr (4 + queue.size.toNat * 8)

/-- The driver's `avail.idx`. -/
def availIdx (queue : Virtqueue) (memory : GuestMemory) : Option UInt16 :=
  memory.readU16 (address queue.availAddr 2)

/-- Available means that the availability bit matches our lap and the used bit does
not. -/
def isAvailable (queue : Virtqueue) (flags : UInt16) : Bool :=
  let avail := flags &&& descAvail != 0
  let used := flags &&& descUsed != 0
  avail == queue.availWrap && used != avail

/-- Whether the driver has made anything available. `more_available` is the same
question. -/
def hasWork (queue : Virtqueue) (memory : GuestMemory) : Bool :=
  queue.ready &&
    if queue.packed then
      (memory.readU16 (address (queue.descAt queue.nextAvail) 14)).any queue.isAvailable
    else (queue.availIdx memory).any (· != queue.nextAvail)

/-- Records that a head has been taken. One already taken stays so, and one outside
the ring is not recorded. -/
def markTaken (queue : Virtqueue) (head : UInt16) : Virtqueue :=
  let outstanding :=
    if queue.outstanding.length ≠ queue.size.toNat then List.replicate queue.size.toNat false
    else queue.outstanding
  { queue with outstanding := outstanding.set head.toNat true }

/-- Moves the read cursor on, flipping the lap counter on wrap. -/
def advanceAvail (queue : Virtqueue) (slots : UInt16) : Virtqueue :=
  let next := queue.nextAvail.toNat + slots.toNat
  { queue with
    availWrap := if next ≥ queue.size.toNat then !queue.availWrap else queue.availWrap
    nextAvail := UInt16.ofNat (next % queue.size.toNat) }

/-- Measures a packed chain from its entries' flags: how many slots it has, and the
id its last entry carries. It never has more slots than the ring. -/
def measure (queue : Virtqueue) (memory : GuestMemory) (start : UInt16) :
    (left : Nat) → (slots flags id : UInt16) → UInt16 × UInt16
  | 0, slots, _, id => (slots, id)
  | left + 1, slots, flags, id =>
      if flags &&& descNext = 0 then (slots, id)
      else if slots ≥ queue.size then (slots, id)
      else
        let entry := queue.descAt ((start + slots) % queue.size)
        match memory.readU16 (address entry 12), memory.readU16 (address entry 14) with
        | some id, some flags => queue.measure memory start left (slots + 1) flags id
        | _, _ => (slots, id)

/-- Takes the next chain from a packed ring. The flags are read first, and nothing
else until they say the descriptor is ours. -/
def popPacked (queue : Virtqueue) (memory : GuestMemory) :
    Virtqueue × Option DescriptorChain :=
  let start := queue.nextAvail
  let headAt := queue.descAt start
  match memory.readU16 (address headAt 14) with
  | none => (queue, none)
  | some flags =>
      if !queue.isAvailable flags then (queue, none)
      else
        match memory.readU64 headAt, memory.readU32 (address headAt 8),
            memory.readU16 (address headAt 12) with
        | some _, some _, some first =>
            let (slots, id) :=
              if flags &&& descIndirect != 0 then (1, first)
              else queue.measure memory start queue.size.toNat 1 flags first
            if id ≥ queue.size then (queue.advanceAvail slots, none)
            else
              let queue := (queue.advanceAvail slots).markTaken id
              let chainLen :=
                if queue.chainLen.length ≠ queue.size.toNat then
                  List.replicate queue.size.toNat 1
                else queue.chainLen
              ({ queue with chainLen := chainLen.set id.toNat slots },
                some (DescriptorChain.packed queue.descAddr queue.size start slots id))
        | _, _, _ => (queue, none)

/-- Takes the next chain from a split ring. An entry that names no descriptor is
consumed all the same. -/
def popSplit (queue : Virtqueue) (memory : GuestMemory) :
    Virtqueue × Option DescriptorChain :=
  match queue.availIdx memory with
  | none => (queue, none)
  | some idx =>
      if idx = queue.nextAvail then (queue, none)
      else
        let slot := (queue.nextAvail % queue.size).toNat
        match memory.readU16 (address queue.availAddr (4 + slot * 2)) with
        | none => (queue, none)
        | some head =>
            let queue := { queue with nextAvail := queue.nextAvail + 1 }
            if head ≥ queue.size then (queue, none)
            else
              (queue.markTaken head,
                some (DescriptorChain.new queue.descAddr queue.size head))

/-- Takes the next available descriptor chain, if there is one. -/
def pop (queue : Virtqueue) (memory : GuestMemory) : Virtqueue × Option DescriptorChain :=
  if !queue.ready then (queue, none)
  else if queue.packed then queue.popPacked memory
  else queue.popSplit memory

/-- Returns a chain to the driver in a packed ring: one entry at the device's own
cursor, its flags last, and the cursor moves on by the chain's length. -/
def pushUsedPacked (queue : Virtqueue) (memory : GuestMemory) (id : UInt16) (len : UInt32) :
    Virtqueue × GuestMemory :=
  let slots := max (queue.chainLen.getD id.toNat 1) 1
  let entry := queue.descAt queue.nextUsed
  let memory := memory.putU16 (address entry 12) id
  let memory := memory.putU32 (address entry 8) len
  let flags := if queue.usedWrap then descAvail ||| descUsed else 0
  let memory := memory.putU16 (address entry 14) flags
  let next := queue.nextUsed.toNat + slots.toNat
  ({ queue with
    usedWrap := if next ≥ queue.size.toNat then !queue.usedWrap else queue.usedWrap
    nextUsed := UInt16.ofNat (next % queue.size.toNat)
    usedTotal := queue.usedTotal + slots }, memory)

/-- The used entry first, then the index that makes it visible. -/
def pushUsedSplit (queue : Virtqueue) (memory : GuestMemory) (head : UInt16) (len : UInt32) :
    Virtqueue × GuestMemory :=
  let slot := (queue.nextUsed % queue.size).toNat
  let element := address queue.usedAddr (4 + slot * 8)
  let memory := memory.putU32 element (UInt32.ofNat head.toNat)
  let memory := memory.putU32 (address element 4) len
  let queue := { queue with nextUsed := queue.nextUsed + 1 }
  (queue, memory.putU16 (address queue.usedAddr 2) queue.nextUsed)

/-- Returns a consumed chain to the driver. A head that is not outstanding is
refused. -/
def pushUsed (queue : Virtqueue) (memory : GuestMemory) (head : UInt16) (len : UInt32) :
    Virtqueue × GuestMemory :=
  match queue.outstanding[head.toNat]? with
  | some true =>
      let queue := { queue with outstanding := queue.outstanding.set head.toNat false }
      if queue.packed then queue.pushUsedPacked memory head len
      else queue.pushUsedSplit memory head len
  | _ => (queue, memory)

/-- Writes the index we want to be kicked at, if it has moved. Half a ring away is
behind the driver from every direction that matters. -/
def publishAvailEvent (queue : Virtqueue) (memory : GuestMemory) : Virtqueue × GuestMemory :=
  let want := if queue.suppressed then queue.nextAvail + 32768 else queue.nextAvail
  if queue.publishedEvent = some want then (queue, memory)
  else
    ({ queue with publishedEvent := some want }, memory.putU16 queue.availEventAddr want)

/-- Tells the driver we want to hear about the next thing it publishes. -/
def armNotifications (queue : Virtqueue) (memory : GuestMemory) : Virtqueue × GuestMemory :=
  if queue.usedAddr = 0 then (queue, memory)
  else if queue.packed || !queue.eventIdx then (queue, memory)
  else queue.publishAvailEvent memory

/-- Tells the driver not to bother kicking us, or to do so again. -/
def suppressNotifications (queue : Virtqueue) (memory : GuestMemory) (suppress : Bool) :
    Virtqueue × GuestMemory :=
  if queue.usedAddr = 0 then (queue, memory)
  else
    let queue := { queue with suppressed := suppress }
    if queue.packed then
      (queue, memory.putU16 (address queue.usedAddr 2)
        (if suppress then eventDisable else eventEnable))
    else if queue.eventIdx then queue.publishAvailEvent memory
    else (queue, memory.putU16 queue.usedAddr (if suppress then 1 else 0))

/-- The packed layout's interrupt question: how far behind our cursor the driver's
position is, on a count of slots that does not wrap at the ring. -/
def needsInterruptPacked (queue : Virtqueue) (memory : GuestMemory) : Virtqueue × Bool :=
  let old := queue.signalledTotal
  let new := queue.usedTotal
  let queue := { queue with signalledTotal := new }
  match memory.readU16 (address queue.availAddr 2), memory.readU16 queue.availAddr with
  | some flags, some offWrap =>
      if flags = eventDisable then (queue, false)
      else if flags ≠ eventDesc then (queue, true)
      else
        let wrap := offWrap >>> 15 != 0
        let pos := offWrap &&& ~~~eventWrap
        let behind := (queue.nextUsed - pos) % queue.size
        let behind := if behind = 0 && wrap != queue.usedWrap then queue.size else behind
        (queue, needEvent (new - behind) new old)
  | _, _ => (queue, true)

/-- Whether the driver wants an interrupt for the work just completed. -/
def needsInterrupt (queue : Virtqueue) (memory : GuestMemory) : Virtqueue × Bool :=
  if queue.packed then queue.needsInterruptPacked memory
  else if !queue.eventIdx then
    (queue, ((memory.readU16 queue.availAddr).map fun flags => flags &&& 1 == 0).getD true)
  else
    match memory.readU16 queue.usedEventAddr with
    | none => (queue, true)
    | some wanted =>
        ({ queue with signalledUsed := queue.nextUsed },
          needEvent wanted queue.nextUsed queue.signalledUsed)

end Virtqueue
end Lighter.Virtio
