import Lighter.Virtio.QueueLaws

/-!
# The memory-mapped transport

What is true of every virtio device: the queues, the negotiation of features, the
device status and the interrupt, behind the registers a driver writes. The device
itself is a parameter, with the promise every device here keeps: it takes chains
from the queues and returns them, and leaves their geometry to the driver.

The loop that ends a service goes round as long as some queue moved, which may be
for ever; here it is given a number of turns, and a law of the transport is proved
for every number. Reads of registers, the shared memory regions they list, the
observers of kicks and the counters for diagnosis are left out. The interrupt line
follows the interrupt status, so the status stands for both.
-/

namespace Lighter.Virtio

/-- Which queues had descriptors returned to the driver: bit `n` for queue `n`. -/
structure Serviced where
  queues : UInt32
deriving DecidableEq, Repr

namespace Serviced

def none : Serviced := ⟨0⟩

def queue (index : UInt16) : Serviced := ⟨1 <<< index.toUInt32⟩

def and (first second : Serviced) : Serviced := ⟨first.queues ||| second.queues⟩

def any (serviced : Serviced) : Bool := serviced.queues != 0

def contains (serviced : Serviced) (index : UInt16) : Bool :=
  serviced.queues &&& (1 <<< index.toUInt32) != 0

end Serviced

/-- What a device leaves after a service. -/
structure Service (δ : Type) where
  device : δ
  queues : List Virtqueue
  memory : GuestMemory
  serviced : Serviced

/-- A device model, over a state of its own. -/
structure VirtioDevice (δ : Type) where
  features : δ → UInt64
  ackFeatures : δ → UInt64 → δ
  queueCount : Nat
  queueMaxSizeOf : UInt16 → UInt16
  configWrite : δ → Nat → List UInt8 → δ
  activate : δ → GuestMemory → δ
  notify : δ → UInt16 → List Virtqueue → GuestMemory → Service δ
  retryDeadline : δ → Option Nat
  retryDeferred : δ → List Virtqueue → GuestMemory → Nat → Service δ
  reset : δ → δ
  /-- A device works on the rings and leaves the registers to the driver. -/
  geometry_notify : ∀ device index queues memory,
    (notify device index queues memory).queues.map Virtqueue.geometry =
      queues.map Virtqueue.geometry
  geometry_retryDeferred : ∀ device queues memory now,
    (retryDeferred device queues memory now).queues.map Virtqueue.geometry =
      queues.map Virtqueue.geometry

/-- What a watcher of a queue sees without the transport's lock. -/
structure QueueSignal where
  ready : Bool
  /-- Split: the available ring. Packed: the descriptor ring. -/
  ringAddr : Nat
  nextAvail : UInt16
  packed : Bool
  availWrap : Bool
deriving DecidableEq, Repr

namespace QueueSignal

def default : QueueSignal := ⟨false, 0, 0, false, false⟩

def publish (queue : Virtqueue) : QueueSignal where
  ready := queue.ready
  ringAddr := if queue.packed then queue.descAddr else queue.availAddr
  nextAvail := queue.nextAvail
  packed := queue.packed
  availWrap := queue.availWrap

end QueueSignal

/-- The three areas of a ring whose addresses the driver writes in halves. -/
inductive Area where
  | desc
  | driver
  | device
deriving DecidableEq, Repr

/-- The registers a write has an effect on. -/
inductive Register where
  | deviceFeaturesSel
  | driverFeatures
  | driverFeaturesSel
  | queueSel
  | queueNum
  | queueReady
  | queueNotify
  | interruptAck
  | status
  | queueAddr (area : Area) (high : Bool)
  | shmSel
deriving DecidableEq, Repr

namespace Register

/-- The register at an offset, from the transport's table. -/
def ofOffset (offset : Nat) : Option Register :=
  match offset with
  | 0x014 => some .deviceFeaturesSel
  | 0x020 => some .driverFeatures
  | 0x024 => some .driverFeaturesSel
  | 0x030 => some .queueSel
  | 0x038 => some .queueNum
  | 0x044 => some .queueReady
  | 0x050 => some .queueNotify
  | 0x064 => some .interruptAck
  | 0x070 => some .status
  | 0x080 => some (.queueAddr .desc false)
  | 0x084 => some (.queueAddr .desc true)
  | 0x090 => some (.queueAddr .driver false)
  | 0x094 => some (.queueAddr .driver true)
  | 0x0a0 => some (.queueAddr .device false)
  | 0x0a4 => some (.queueAddr .device true)
  | 0x0ac => some .shmSel
  | _ => none

end Register

/-- Where the device's own configuration starts. -/
def configSpace : Nat := 0x100

/-- Interrupt causes. -/
def intVring : UInt32 := 1
def intConfig : UInt32 := 2

/-- The driver has finished setting the device up. -/
def driverOk : UInt32 := 4

/-- The features of the transport that change what a ring means. -/
def ringEventIdx : UInt64 := (1 : UInt64) <<< (29 : UInt64)
def ringPacked : UInt64 := (1 : UInt64) <<< (34 : UInt64)

namespace Virtqueue

/-- A ring address with one half replaced. -/
def half (addr : Nat) (value : UInt32) (high : Bool) : Nat :=
  if high then addr % 2 ^ 32 + value.toNat * 2 ^ 32
  else addr / 2 ^ 32 * 2 ^ 32 + value.toNat

/-- `set_queue_addr` on the queue selected. -/
def setAddr (queue : Virtqueue) (area : Area) (value : UInt32) (high : Bool) : Virtqueue :=
  match area with
  | .desc => { queue with descAddr := half queue.descAddr value high }
  | .driver => { queue with availAddr := half queue.availAddr value high }
  | .device => { queue with usedAddr := half queue.usedAddr value high }

end Virtqueue

/-- A device and the transport state that presents it to the guest. -/
structure VirtioMmio (δ : Type) where
  device : δ
  queues : List Virtqueue
  memory : GuestMemory
  deviceFeaturesSel : UInt32
  driverFeaturesSel : UInt32
  ackedFeatures : UInt64
  queueSel : UInt32
  shmSel : UInt32
  deviceStatus : UInt32
  interruptStatus : UInt32
  configGeneration : UInt32
  activated : Bool
  /-- Queues the driver notified before it was ready, a bit each. -/
  earlyKicks : UInt64
  signals : List QueueSignal

namespace VirtioMmio

variable {δ : Type} (model : VirtioDevice δ)

def new (device : δ) (memory : GuestMemory) : VirtioMmio δ where
  device := device
  queues := (List.range model.queueCount).map fun index =>
    Virtqueue.new (model.queueMaxSizeOf (UInt16.ofNat index))
  memory := memory
  deviceFeaturesSel := 0
  driverFeaturesSel := 0
  ackedFeatures := 0
  queueSel := 0
  shmSel := 0
  deviceStatus := 0
  interruptStatus := 0
  configGeneration := 0
  activated := false
  earlyKicks := 0
  signals := List.replicate model.queueCount QueueSignal.default

/-- The features both sides agreed on. -/
def negotiatedFeatures (mmio : VirtioMmio δ) : UInt64 :=
  model.features mmio.device &&& mmio.ackedFeatures

def publishSignals (mmio : VirtioMmio δ) : VirtioMmio δ :=
  { mmio with signals := mmio.queues.map QueueSignal.publish }

/-- Returns the device and its queues to power-on state. -/
def reset (mmio : VirtioMmio δ) : VirtioMmio δ :=
  { mmio with
    queues := mmio.queues.map Virtqueue.reset
    device := model.reset mmio.device
    deviceStatus := 0
    ackedFeatures := 0
    interruptStatus := 0
    queueSel := 0
    activated := false
    earlyKicks := 0 }

/-- Takes over what a service left. -/
def serviceDone (mmio : VirtioMmio δ) (service : Service δ) : VirtioMmio δ :=
  { mmio with
    device := service.device
    queues := service.queues
    memory := service.memory }

/-- Arms every queue in turn. -/
def armAll : List Virtqueue → GuestMemory → List Virtqueue × GuestMemory
  | [], memory => ([], memory)
  | queue :: rest, memory =>
      let (queue, memory) := queue.armNotifications memory
      let (rest, memory) := armAll rest memory
      (queue :: rest, memory)

/-- A turn of the loop so far. -/
structure Turn (δ : Type) where
  mmio : VirtioMmio δ
  serviced : Serviced
  moved : Bool

/-- Reads one ring once more, after it was armed. Only a cursor that advanced means
that there was something to take. -/
def look (turn : Turn δ) (index : Nat) : Turn δ :=
  match turn.mmio.queues[index]? with
  | none => turn
  | some queue =>
      if !queue.hasWork turn.mmio.memory then turn
      else
        let before := queue.nextAvail
        let service := model.notify turn.mmio.device (UInt16.ofNat index) turn.mmio.queues
          turn.mmio.memory
        let after := (service.queues[index]?).map Virtqueue.nextAvail
        { mmio := turn.mmio.serviceDone service
          serviced := turn.serviced.and service.serviced
          moved := turn.moved || after != some before }

/-- One turn: publish the cursors, arm every queue, and look at each again. -/
def turn (mmio : VirtioMmio δ) (serviced : Serviced) : Turn δ :=
  let mmio := mmio.publishSignals
  let (queues, memory) := armAll mmio.queues mmio.memory
  let mmio := { mmio with queues := queues, memory := memory }
  (List.range queues.length).foldl (look model) ⟨mmio, serviced, false⟩

/-- Turns until nothing moves. -/
def settle : Nat → VirtioMmio δ → Serviced → VirtioMmio δ × Serviced
  | 0, mmio, serviced => (mmio, serviced)
  | turns + 1, mmio, serviced =>
      let turn := turn model mmio serviced
      if turn.moved then settle turns turn.mmio turn.serviced
      else (turn.mmio, turn.serviced)

/-- Asks every queue that gained used entries whether the driver wants to hear. All
are asked, because asking records that the driver has been told. -/
def askAll (serviced : Serviced) (memory : GuestMemory) :
    Nat → List Virtqueue → List Virtqueue × Bool
  | _, [] => ([], false)
  | index, queue :: rest =>
      let (queue, wants) :=
        if serviced.contains (UInt16.ofNat index) then queue.needsInterrupt memory
        else (queue, false)
      let (rest, others) := askAll serviced memory (index + 1) rest
      (queue :: rest, wants || others)

def finishService (turns : Nat) (mmio : VirtioMmio δ) (serviced : Serviced) : VirtioMmio δ :=
  let (mmio, serviced) := settle model turns mmio serviced
  if !serviced.any then mmio
  else
    let (queues, wants) := askAll serviced mmio.memory 0 mmio.queues
    let mmio := { mmio with queues := queues }
    if wants then { mmio with interruptStatus := mmio.interruptStatus ||| intVring } else mmio

/-- Handles a queue notification. One that comes before the driver is ready is kept
for the activation. -/
def notifyQueue (turns : Nat) (mmio : VirtioMmio δ) (index : UInt16) : VirtioMmio δ :=
  if !mmio.activated then
    if index < 64 then
      { mmio with earlyKicks := mmio.earlyKicks ||| (1 <<< index.toUInt64) }
    else mmio
  else
    let service := model.notify mmio.device index mmio.queues mmio.memory
    finishService model turns (mmio.serviceDone service) service.serviced

/-- Handles the driver writing device status: zero resets, and the first
`DRIVER_OK` activates the device and services what was kicked early. -/
def setStatus (turns : Nat) (mmio : VirtioMmio δ) (value : UInt32) : VirtioMmio δ :=
  if value = 0 then mmio.reset model
  else
    let mmio := { mmio with deviceStatus := value }
    if value &&& driverOk != 0 && !mmio.activated then
      let early := mmio.earlyKicks
      let mmio :=
        { mmio with
          activated := true
          device := model.activate mmio.device mmio.memory
          earlyKicks := 0 }
      ((List.range 64).filter fun index => early &&& (1 <<< UInt64.ofNat index) != 0).foldl
        (fun mmio index => mmio.notifyQueue model turns (UInt16.ofNat index)) mmio
    else mmio

/-- Works on the queue the driver selected, if there is one. -/
def onSelected (mmio : VirtioMmio δ) (change : Virtqueue → Virtqueue) : VirtioMmio δ :=
  { mmio with queues := mmio.queues.modify mmio.queueSel.toNat change }

/-- Records what the driver accepted. The shift is the machine's, by its amount
modulo the width. -/
def accepted (mmio : VirtioMmio δ) (value : UInt32) : VirtioMmio δ :=
  let shifted := value.toUInt64 <<< (32 * mmio.driverFeaturesSel.toUInt64)
  let acked := mmio.ackedFeatures ||| shifted
  { mmio with
    ackedFeatures := acked
    device := model.ackFeatures mmio.device acked }

/-- Tells every queue what the features mean for its rings. -/
def ackFeatures (mmio : VirtioMmio δ) (value : UInt32) : VirtioMmio δ :=
  let mmio := mmio.accepted model value
  let negotiated := mmio.negotiatedFeatures model
  let eventIdx := negotiated &&& ringEventIdx != 0
  let packed := negotiated &&& ringPacked != 0
  { mmio with
    queues := mmio.queues.map fun queue => (queue.setEventIdx eventIdx).setPacked packed }

def writeRegisterInner (turns : Nat) (mmio : VirtioMmio δ) (register : Register)
    (value : UInt32) : VirtioMmio δ :=
  match register with
  | .deviceFeaturesSel => { mmio with deviceFeaturesSel := value }
  | .driverFeatures => mmio.ackFeatures model value
  | .driverFeaturesSel => { mmio with driverFeaturesSel := value }
  | .queueSel => { mmio with queueSel := value }
  | .queueNum => mmio.onSelected fun queue => queue.setSize value.toUInt16
  | .queueReady => mmio.onSelected fun queue => (queue.setReady (value == 1)).1
  | .queueNotify => mmio.notifyQueue model turns value.toUInt16
  | .interruptAck => { mmio with interruptStatus := mmio.interruptStatus &&& ~~~value }
  | .status => mmio.setStatus model turns value
  | .queueAddr area high => mmio.onSelected fun queue => queue.setAddr area value high
  | .shmSel => { mmio with shmSel := value }

/-- The first four bytes of a store, little-endian, with zeroes for those missing. -/
def storeValue (data : List UInt8) : UInt32 :=
  UInt32.ofNat (Fixed.fromLe (data.take 4))

/-- A store by the guest, to the device's configuration or to a register. -/
def write (turns : Nat) (mmio : VirtioMmio δ) (offset : Nat) (data : List UInt8) :
    VirtioMmio δ :=
  if offset ≥ configSpace then
    { mmio with
      device := model.configWrite mmio.device (offset - configSpace) data
      configGeneration := mmio.configGeneration + 1 }
  else
    match Register.ofOffset (offset / 4 * 4) with
    | some register =>
        (mmio.writeRegisterInner model turns register (storeValue data)).publishSignals
    | none => mmio.publishSignals

/-- Raises a configuration-change interrupt. -/
def notifyConfigChange (mmio : VirtioMmio δ) : VirtioMmio δ :=
  { mmio with
    configGeneration := mmio.configGeneration + 1
    interruptStatus := mmio.interruptStatus ||| intConfig }

/-- The host timer: lets a device with unfinished work go on, once its time has
come. -/
def retryDeferred (turns : Nat) (mmio : VirtioMmio δ) (now : Nat) : VirtioMmio δ :=
  if !mmio.activated || (model.retryDeadline mmio.device).all fun deadline => now < deadline then
    mmio
  else
    let service := model.retryDeferred mmio.device mmio.queues mmio.memory now
    finishService model turns (mmio.serviceDone service) service.serviced

/-- Services a queue if the driver has left anything on it, without having been
notified. -/
def pollQueue (turns : Nat) (mmio : VirtioMmio δ) (index : UInt16) : VirtioMmio δ :=
  match mmio.queues[index.toNat]? with
  | none => mmio
  | some queue =>
      if !queue.hasWork mmio.memory then mmio else mmio.notifyQueue model turns index

/-- Sets or clears the "do not kick us" flag of a queue. -/
def suppressNotifications (mmio : VirtioMmio δ) (index : UInt16) (suppress : Bool) :
    VirtioMmio δ :=
  match mmio.queues[index.toNat]? with
  | none => mmio
  | some queue =>
      let (queue, memory) := queue.suppressNotifications mmio.memory suppress
      { mmio with queues := mmio.queues.set index.toNat queue, memory := memory }

end VirtioMmio
end Lighter.Virtio
