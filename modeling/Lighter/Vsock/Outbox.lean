import Lighter.Vsock.Packet

/-!
# What waits to go to the guest

Two lanes: the control plane's connections first, then everything else. A
packet's lane is decided by its two ports alone, so all packets of one
connection travel in one lane and keep their order there, while between the
lanes the order is free.
-/

namespace Lighter.Vsock

open Packet List

/-- A connection: our port and the guest's. -/
abbrev ConnKey := UInt32 × UInt32

/-- How many packets of a lane may wait before senders are held back. -/
def outboxLimit : Nat := 1024

/-- The ports whose connections are the machine's control plane. -/
def controlPorts : List UInt32 := [2375, 2376, 2379, 2381, 2382]

/-- The connection a packet from the host belongs to. -/
def Packet.key (packet : Packet) : ConnKey := (packet.srcPort, packet.dstPort)

/-- The connection a packet from the guest is about: our port is its destination
and the guest's its source. -/
def guestKey (packet : Packet) : ConnKey := (packet.dstPort, packet.srcPort)

structure Outbox where
  control : List Packet
  bulk : List Packet
deriving DecidableEq, Repr

namespace Outbox

variable {outbox : Outbox} {packet : Packet}

def empty : Outbox := ⟨[], []⟩

def isControl (packet : Packet) : Bool :=
  controlPorts.contains packet.dstPort || controlPorts.contains packet.srcPort

def pushBack (outbox : Outbox) (packet : Packet) : Outbox :=
  if isControl packet then { outbox with control := outbox.control ++ [packet] }
  else { outbox with bulk := outbox.bulk ++ [packet] }

/-- Back at the head of its lane: the rest of a packet that did not fit. -/
def pushFront (outbox : Outbox) (packet : Packet) : Outbox :=
  if isControl packet then { outbox with control := packet :: outbox.control }
  else { outbox with bulk := packet :: outbox.bulk }

/-- The control lane goes first. -/
def popFront (outbox : Outbox) : Option (Packet × Outbox) :=
  match outbox.control with
  | packet :: rest => some (packet, { outbox with control := rest })
  | [] =>
      match outbox.bulk with
      | packet :: rest => some (packet, { outbox with bulk := rest })
      | [] => none

/-- Room for another packet in the connection's lane. -/
def room (outbox : Outbox) (key : ConnKey) : Nat :=
  outboxLimit -
    if isControl (Packet.control .rw key.1 key.2) then outbox.control.length
    else outbox.bulk.length

def retain (outbox : Outbox) (keep : Packet → Bool) : Outbox :=
  ⟨outbox.control.filter keep, outbox.bulk.filter keep⟩

/-- What waits for one connection, in the order it will be delivered. -/
def pending (outbox : Outbox) (key : ConnKey) : List Packet :=
  (outbox.control ++ outbox.bulk).filter fun packet => packet.key = key

attribute [local simp] pending

/-- Every packet stands in the lane its ports decide. -/
structure Sorted (outbox : Outbox) : Prop where
  control : ∀ packet ∈ outbox.control, isControl packet = true
  bulk : ∀ packet ∈ outbox.bulk, isControl packet = false

/-- The lane depends on nothing but the two ports. -/
theorem isControl_of_key {first second : Packet} (same : first.key = second.key) :
    isControl first = isControl second := by
  have source : first.srcPort = second.srcPort := congrArg Prod.fst same
  have destination : first.dstPort = second.dstPort := congrArg Prod.snd same
  simp [isControl, source, destination]

theorem empty_sorted : Sorted empty := ⟨by simp [empty], by simp [empty]⟩

theorem pushBack_sorted (outbox : Outbox) (packet : Packet) (sorted : outbox.Sorted) :
    (outbox.pushBack packet).Sorted := by
  unfold pushBack
  cases lane : isControl packet with
  | true =>
    refine ⟨?_, sorted.bulk⟩
    intro other member
    rcases mem_append.mp member with prior | last
    · exact sorted.control other prior
    · rw [mem_singleton.mp last]
      exact lane
  | false =>
    refine ⟨sorted.control, ?_⟩
    intro other member
    rcases mem_append.mp member with prior | last
    · exact sorted.bulk other prior
    · rw [mem_singleton.mp last]
      exact lane

theorem retain_sorted (outbox : Outbox) (keep : Packet → Bool) (sorted : outbox.Sorted) :
    (outbox.retain keep).Sorted :=
  ⟨fun packet member => sorted.control packet (mem_filter.mp member).1,
    fun packet member => sorted.bulk packet (mem_filter.mp member).1⟩

theorem pushFront_sorted (outbox : Outbox) (packet : Packet) (sorted : outbox.Sorted) :
    (outbox.pushFront packet).Sorted := by
  unfold pushFront
  cases lane : isControl packet with
  | true =>
    refine ⟨?_, sorted.bulk⟩
    intro other member
    rcases mem_cons.mp member with rfl | later
    · exact lane
    · exact sorted.control other later
  | false =>
    refine ⟨sorted.control, ?_⟩
    intro other member
    rcases mem_cons.mp member with rfl | later
    · exact lane
    · exact sorted.bulk other later

theorem popFront_sorted {rest : Outbox} (sorted : outbox.Sorted)
    (popped : outbox.popFront = some (packet, rest)) : rest.Sorted := by
  obtain ⟨control, bulk⟩ := outbox
  cases control with
  | cons first later =>
    obtain ⟨rfl, rfl⟩ := Prod.mk.inj (Option.some.inj popped)
    exact ⟨fun other member => sorted.control other (mem_cons_of_mem _ member), sorted.bulk⟩
  | nil =>
    cases bulk with
    | nil => cases popped
    | cons first later =>
      obtain ⟨rfl, rfl⟩ := Prod.mk.inj (Option.some.inj popped)
      exact ⟨sorted.control, fun other member => sorted.bulk other (mem_cons_of_mem _ member)⟩

/-- Nothing of a connection waits in the other lane. -/
theorem filter_other_lane {packets : List Packet}
    (other : ∀ waiting ∈ packets, isControl waiting = !isControl packet) :
    packets.filter (fun waiting => waiting.key = packet.key) = [] := by
  apply filter_eq_nil_iff.mpr
  intro waiting member
  have kind := other waiting member
  simp only [decide_eq_true_eq]
  intro mine
  rw [isControl_of_key mine] at kind
  exact Bool.not_ne_self _ kind.symm

theorem Sorted.filter_bulk (sorted : outbox.Sorted) (lane : isControl packet = true) :
    outbox.bulk.filter (fun waiting => waiting.key = packet.key) = [] :=
  filter_other_lane (lane ▸ sorted.bulk)

theorem Sorted.filter_control (sorted : outbox.Sorted) (lane : isControl packet = false) :
    outbox.control.filter (fun waiting => waiting.key = packet.key) = [] :=
  filter_other_lane (lane ▸ sorted.control)

/-- A packet queued last waits last for its own connection and changes nothing
for another. In a sorted outbox this does not depend on the lane. -/
theorem pending_pushBack (outbox : Outbox) (packet : Packet) (key : ConnKey)
    (sorted : outbox.Sorted) :
    (outbox.pushBack packet).pending key =
      outbox.pending key ++ if packet.key = key then [packet] else [] := by
  by_cases same : packet.key = key
  · subst same
    cases lane : isControl packet with
    | true => simp [pushBack, lane, sorted.filter_bulk lane]
    | false => simp [pushBack, lane]
  · cases lane : isControl packet <;> simp [pushBack, lane, same]

/-- A packet put back waits first for its own connection. -/
theorem pending_pushFront (outbox : Outbox) (packet : Packet) (key : ConnKey)
    (sorted : outbox.Sorted) :
    (outbox.pushFront packet).pending key =
      (if packet.key = key then [packet] else []) ++ outbox.pending key := by
  by_cases same : packet.key = key
  · subst same
    cases lane : isControl packet with
    | true => simp [pushFront, lane]
    | false => simp [pushFront, lane, sorted.filter_control lane]
  · cases lane : isControl packet <;> simp [pushFront, lane, same]

/-- The packet delivered next is the first of all that wait. -/
theorem popFront_packets {rest : Outbox} (popped : outbox.popFront = some (packet, rest)) :
    outbox.control ++ outbox.bulk = packet :: (rest.control ++ rest.bulk) := by
  obtain ⟨control, bulk⟩ := outbox
  cases control with
  | cons first later =>
    obtain ⟨rfl, rfl⟩ := Prod.mk.inj (Option.some.inj popped)
    rfl
  | nil =>
    cases bulk with
    | nil => cases popped
    | cons first later =>
      obtain ⟨rfl, rfl⟩ := Prod.mk.inj (Option.some.inj popped)
      rfl

/-- It is also the first of its own connection. -/
theorem pending_popFront {rest : Outbox} (popped : outbox.popFront = some (packet, rest))
    (key : ConnKey) :
    outbox.pending key = (if packet.key = key then [packet] else []) ++ rest.pending key := by
  rw [pending, popFront_packets popped]
  by_cases same : packet.key = key <;> simp [same]

theorem pending_retain (outbox : Outbox) (keep : Packet → Bool) (key : ConnKey) :
    (outbox.retain keep).pending key = (outbox.pending key).filter keep := by
  simp [retain, filter_filter, Bool.and_comm]

end Outbox
end Lighter.Vsock
