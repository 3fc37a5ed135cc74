import Lighter.Virtio.QueueLaws

/-!
# The network card and the buffers it is lent

Frames the guest transmits are copied out of its chains into an outbox, without the header
that the wire does not want. Frames that arrived wait in an inbox and are copied into the
chains the guest lends for them, behind a header. A turn of either loop takes one chain and
returns it.

A transmitted frame is whole exactly if no part of it is refused when some of it has been
taken and some is still to come: a part is refused if it makes the frame too long or is not
in memory, and what was taken before it is sent all the same. What is meant to happen to a
chain that is lent is that header and frame are laid into the buffers as they come, each
taking no more than it holds. That is what happens if the first buffer holds the header; if
it does not, the header is written there all the same.
-/

namespace Lighter.Virtio

open GuestMemory List Virtqueue

/-- Size of `struct virtio_net_hdr_v1`. -/
def netHdrLen : Nat := 12

/-- Largest frame that is moved in either direction. -/
def maxFrame : Nat := 65550

/-- How many bytes of frames are held before the device stops taking chains. -/
def outboxBytes : Nat := 8 * 2 ^ 20

/-- Frames the guest has transmitted, waiting for the backend's thread. -/
structure Outbox (Frame : Type) where
  frames : List Frame
  bytes : Nat
  /-- The device stopped taking chains because this was full. -/
  parked : Bool
deriving DecidableEq, Repr

namespace Outbox

variable {Frame : Type}

def hasRoom (outbox : Outbox Frame) : Bool := outbox.bytes < outboxBytes

/-- A frame of so many bytes. -/
def push (outbox : Outbox Frame) (frame : Frame) (len : Nat) : Outbox Frame :=
  { outbox with frames := outbox.frames ++ [frame], bytes := outbox.bytes + len }

def park (outbox : Outbox Frame) : Outbox Frame := { outbox with parked := true }

/-- What `take` leaves, once there are frames. It hands out the frames and whether the device
had parked. -/
def take (_ : Outbox Frame) : Outbox Frame := ⟨[], 0, false⟩

end Outbox

structure Net where
  outbox : Outbox (List UInt8)
  inbox : List (List UInt8)
  /-- Frames cut because the guest's buffer was too small. -/
  dropped : Nat

namespace Net

variable {memory : GuestMemory} {queue : Virtqueue}

/-! ### Transmitting -/

/-- The loop over the descriptors of a transmitted chain: so many bytes of header are still
to be skipped, and this is the frame as yet. -/
def gather (memory : GuestMemory) : List Descriptor → Nat → List UInt8 → List UInt8
  | [], _, frame => frame
  | desc :: rest, skip, frame =>
      if desc.isWriteOnly then gather memory rest skip frame
      else
        let drop := min skip desc.len.toNat
        let addr := address desc.addr drop
        let len := desc.len.toNat - drop
        if 0 < skip ∧ len = 0 then gather memory rest (skip - drop) frame
        else if frame.length + len > maxFrame then frame
        else
          match memory.read addr len with
          | none => frame
          | some bytes => gather memory rest (skip - drop) (frame ++ bytes)

/-- The card with one of its queues and the guest's memory. -/
structure Card where
  net : Net
  queue : Virtqueue
  memory : GuestMemory

/-- One turn of the transmit loop, and whether it took a chain. Without one the loop ends. -/
def transmitTurn (card : Card) : Card × Bool :=
  if !card.queue.hasWork card.memory then (card, false)
  else if !card.net.outbox.hasRoom then
    ({ card with net := { card.net with outbox := card.net.outbox.park } }, false)
  else
    match card.queue.pop card.memory with
    | (queue, none) => ({ card with queue := queue }, false)
    | (queue, some chain) =>
        let frame := gather card.memory (chain.descriptors card.memory) netHdrLen []
        -- A frame that was only a header carries nothing.
        let outbox :=
          if frame.isEmpty then card.net.outbox else card.net.outbox.push frame frame.length
        let after := queue.pushUsed card.memory chain.head 0
        (⟨{ card.net with outbox := outbox }, after.1, after.2⟩, true)

/-- `transmit`, for so many turns of its loop. -/
def transmit : Nat → Card → Card
  | 0, card => card
  | turns + 1, card =>
      match transmitTurn card with
      | (card, true) => transmit turns card
      | (card, false) => card

/-! ### Receiving -/

/-- All zero except `num_buffers`. -/
def header : List UInt8 := List.replicate 10 0 ++ [1, 0]

/-- What the loop over the descriptors of a lent chain has done. -/
structure Filling where
  memory : GuestMemory
  written : Nat
  headerWritten : Bool
  offset : Nat

/-- What is written to one device-writable descriptor. -/
def Filling.buf (filling : Filling) (frame : List UInt8) (desc : Descriptor) : List UInt8 :=
  let start := if filling.headerWritten then [] else header
  let room := desc.len.toNat - start.length
  let take := min room (frame.length - filling.offset)
  start ++ (frame.drop filling.offset).take take

/-- One device-writable descriptor, and whether the loop goes on. -/
def Filling.put (filling : Filling) (frame : List UInt8) (desc : Descriptor) : Filling × Bool :=
  let buf := filling.buf frame desc
  let offset := filling.offset + (buf.length - if filling.headerWritten then 0 else header.length)
  match filling.memory.write desc.addr buf with
  | none => ({ filling with headerWritten := true, offset := offset }, false)
  | some memory => (⟨memory, filling.written + buf.length, true, offset⟩, offset < frame.length)

/-- The loop over the descriptors. The iterator reads memory as the writes have left it. -/
def fill (frame : List UInt8) : Nat → DescriptorChain → Filling → Filling
  | 0, _, filling => filling
  | left + 1, chain, filling =>
      match chain.next filling.memory with
      | (_, none) => filling
      | (chain, some desc) =>
          if !desc.isWriteOnly then fill frame left chain filling
          else
            match filling.put frame desc with
            | (filling, true) => fill frame left chain filling
            | (filling, false) => filling

/-- One turn of the receive loop. -/
def receiveTurn (card : Card) : Card × Bool :=
  match card.net.inbox with
  | [] => (card, false)
  | frame :: inbox =>
      match card.queue.pop card.memory with
      | (queue, none) => ({ card with queue := queue }, false)
      | (queue, some chain) =>
          let filling := fill frame (DescriptorChain.bound + 2) chain ⟨card.memory, 0, false, 0⟩
          let dropped :=
            if filling.offset < frame.length then card.net.dropped + 1 else card.net.dropped
          let after := queue.pushUsed filling.memory chain.head (UInt32.ofNat filling.written)
          (⟨{ card.net with inbox := inbox, dropped := dropped }, after.1, after.2⟩, true)

/-- `receive`, for so many turns of its loop. -/
def receive : Nat → Card → Card
  | 0, card => card
  | turns + 1, card =>
      match receiveTurn card with
      | (card, true) => receive turns card
      | (card, false) => card

/-! ### The laws -/

/-- The bytes a descriptor names. -/
def span (memory : GuestMemory) (addr len : Nat) : List UInt8 :=
  (List.range len).map fun offset => memory.bytes (address addr offset)

/-- The readable bytes of a chain. -/
def readable (memory : GuestMemory) (descs : List Descriptor) : List UInt8 :=
  (descs.filter fun desc => !desc.isWriteOnly).flatMap fun desc =>
    span memory desc.addr desc.len.toNat

/-- The chain was outstanding when it was returned, which made one entry of the used ring,
and is not outstanding any more. -/
structure Returned (popped after : Virtqueue) (head : UInt16) : Prop where
  taken : popped.outstanding[head.toNat]? = some true
  given : after.outstanding[head.toNat]? = some false
  entry : if popped.packed then
      after.usedTotal = popped.usedTotal + max (popped.chainLen.getD head.toNat 1) 1
    else after.nextUsed = popped.nextUsed + 1

/-- The outbox has got the chain's readable bytes after the header, or nothing. -/
def Whole (memory : GuestMemory) (chain : DescriptorChain)
    (before after : Outbox (List UInt8)) : Prop :=
  after.frames = before.frames ∨ after.frames =
    before.frames ++ [(readable memory (chain.descriptors memory)).drop netHdrLen]

/-- Data that is laid into buffers: the memory then, how many bytes it took, and the buffers. -/
structure Laid where
  memory : GuestMemory
  count : Nat
  lent : List Descriptor

/-- What is meant to happen to data and a chain that is lent: the device-writable descriptors
take it as they come, each no more than it holds, until there is no more or one is not in
memory. -/
def lay : Nat → DescriptorChain → GuestMemory → List UInt8 → Laid
  | 0, _, memory, _ => ⟨memory, 0, []⟩
  | left + 1, chain, memory, data =>
      match chain.next memory with
      | (_, none) => ⟨memory, 0, []⟩
      | (chain, some desc) =>
          if !desc.isWriteOnly then lay left chain memory data
          else
            match memory.write desc.addr (data.take desc.len.toNat) with
            | none => ⟨memory, 0, [desc]⟩
            | some memory =>
                if desc.len.toNat < data.length then
                  let rest := lay left chain memory (data.drop desc.len.toNat)
                  ⟨rest.memory, desc.len.toNat + rest.count, desc :: rest.lent⟩
                else ⟨memory, data.length, [desc]⟩

/-- The bytes outside the buffers are as they were, and no more was taken than they hold. -/
structure Laid.Inside (laid : Laid) (before : GuestMemory) : Prop where
  kept : ∀ place, (∀ desc ∈ laid.lent,
      ¬ (desc.addr ≤ place ∧ place < desc.addr + desc.len.toNat)) →
    laid.memory.bytes place = before.bytes place
  bounded : laid.count ≤ (laid.lent.map fun desc => desc.len.toNat).sum

/-! ### When they hold -/

/-- The parts of a transmitted chain that are read: address and length. -/
def parts : Nat → List Descriptor → List (Nat × Nat)
  | _, [] => []
  | skip, desc :: rest =>
      if desc.isWriteOnly then parts skip rest
      else
        let drop := min skip desc.len.toNat
        let len := desc.len.toNat - drop
        if 0 < skip ∧ len = 0 then parts (skip - drop) rest
        else (address desc.addr drop, len) :: parts (skip - drop) rest

/-- A part that is refused comes before any byte was taken, or no byte is left. -/
def Uncut (memory : GuestMemory) : Nat → List (Nat × Nat) → Prop
  | _, [] => True
  | taken, (addr, len) :: rest =>
      if taken + len ≤ maxFrame ∧ memory.mapped addr len then Uncut memory (taken + len) rest
      else taken = 0 ∨ len + (rest.map (·.2)).sum = 0

/-- The first device-writable descriptor holds the header, or so much is not in memory. -/
def Roomy (memory : GuestMemory) (chain : DescriptorChain) : Prop :=
  ∀ desc, (chain.descriptors memory).find? Descriptor.isWriteOnly = some desc →
    netHdrLen ≤ desc.len.toNat ∨ memory.mapped desc.addr netHdrLen = false

/-! ### Transmitted frames -/

/-- The parts, read one after the other. -/
def gatherParts (memory : GuestMemory) : List (Nat × Nat) → List UInt8 → List UInt8
  | [], frame => frame
  | (addr, len) :: rest, frame =>
      if frame.length + len ≤ maxFrame ∧ memory.mapped addr len then
        gatherParts memory rest (frame ++ span memory addr len)
      else frame

theorem length_span (memory : GuestMemory) (addr len : Nat) :
    (span memory addr len).length = len := by
  simp [span]

theorem content_eq_span {addr len : Nat} (mapped : memory.mapped addr len = true) :
    memory.content addr len = span memory addr len := by
  simp only [GuestMemory.mapped, any_eq_true, Region.contains, Bool.and_eq_true,
    decide_eq_true_eq] at mapped
  obtain ⟨_, _, below, _⟩ := mapped
  refine map_congr_left fun offset inside => ?_
  rw [mem_range] at inside
  rw [address_eq (by omega)]

variable (memory)

/-- What is left of a descriptor's bytes after some. -/
theorem drop_span (addr len : Nat) {skip : Nat} (inside : skip ≤ len) :
    (span memory addr len).drop skip = span memory (address addr skip) (len - skip) := by
  obtain ⟨rest, rfl⟩ := Nat.exists_eq_add_of_le inside
  rw [Nat.add_sub_cancel_left, span, range_add, map_append, drop_left' (by simp), map_map]
  refine map_congr_left fun offset _ => ?_
  simp only [Function.comp_apply, address, Nat.mod_add_mod, Nat.add_assoc]

theorem gather_eq_gatherParts (descs : List Descriptor) (skip : Nat) (frame : List UInt8) :
    gather memory descs skip frame = gatherParts memory (parts skip descs) frame := by
  induction descs generalizing skip frame with
  | nil => rfl
  | cons desc rest ih =>
    simp only [gather, parts]
    split
    · exact ih skip frame
    split
    · exact ih _ frame
    rw [gatherParts, GuestMemory.read]
    by_cases mapped : memory.mapped (address desc.addr (min skip desc.len.toNat))
      (desc.len.toNat - min skip desc.len.toNat) = true
    · grind [content_eq_span]
    · simp [mapped]

/-- The parts are the readable bytes without the header. -/
theorem span_parts (descs : List Descriptor) (skip : Nat) :
    ((parts skip descs).flatMap fun part => span memory part.1 part.2) =
      (readable memory descs).drop skip := by
  induction descs generalizing skip with
  | nil => simp [parts, readable]
  | cons desc rest ih =>
    rw [parts]
    by_cases write : desc.isWriteOnly = true
    · simp only [write, if_true, ih]
      simp [readable, write]
    have shown : readable memory (desc :: rest) =
        span memory desc.addr desc.len.toNat ++ readable memory rest := by
      simp [readable, write]
    rw [shown, drop_append, length_span, if_neg write]
    dsimp only
    have left : skip - min skip desc.len.toNat = skip - desc.len.toNat := by omega
    split
    · have past : (span memory desc.addr desc.len.toNat).drop skip = [] :=
        drop_eq_nil_of_le (by rw [length_span]; omega)
      rw [ih, left, past, nil_append]
    · grind [drop_span, length_span]

/-- The loop takes all of the parts, or nothing, exactly if none is refused in between. -/
theorem gatherParts_whole_iff (list : List (Nat × Nat)) (frame : List UInt8) :
    (gatherParts memory list frame = [] ∨ gatherParts memory list frame =
        frame ++ list.flatMap fun part => span memory part.1 part.2) ↔
      Uncut memory frame.length list := by
  induction list generalizing frame with
  | nil => simp [gatherParts, Uncut]
  | cons part rest ih =>
    obtain ⟨addr, len⟩ := part
    rw [gatherParts, Uncut]
    split
    · grind [length_span]
    have none : ∀ list : List (Nat × Nat),
        (list.flatMap fun part => span memory part.1 part.2) = [] ↔ (list.map (·.2)).sum = 0 := by
      intro list
      rw [← length_eq_zero_iff, length_flatMap]
      simp [length_span]
    rw [length_eq_zero_iff, self_eq_append_right, none]
    simp

variable {memory}

/-- The frame that is gathered is all of the chain's, or empty, exactly if it is uncut. -/
theorem gather_whole_iff (chain : DescriptorChain) :
    (gather memory (chain.descriptors memory) netHdrLen [] = [] ∨
      gather memory (chain.descriptors memory) netHdrLen [] =
        (readable memory (chain.descriptors memory)).drop netHdrLen) ↔
      Uncut memory 0 (parts netHdrLen (chain.descriptors memory)) := by
  have whole := gatherParts_whole_iff memory (parts netHdrLen (chain.descriptors memory)) []
  rw [← gather_eq_gatherParts, span_parts, nil_append, length_nil] at whole
  exact whole

/-! ### Chains that are lent -/

/-- Nothing but the buffers is written, and they take no more than they hold. -/
theorem lay_inside (left : Nat) (chain : DescriptorChain) (memory : GuestMemory)
    (data : List UInt8) : (lay left chain memory data).Inside memory ∧
      (lay left chain memory data).count ≤ data.length := by
  induction left generalizing chain memory data with
  | zero => exact ⟨⟨fun _ _ => rfl, Nat.le_refl _⟩, Nat.zero_le _⟩
  | succ left ih =>
    unfold lay
    split
    · exact ⟨⟨fun _ _ => rfl, Nat.le_refl _⟩, Nat.zero_le _⟩
    rename_i chain desc _
    split
    · exact ih chain memory data
    split
    · exact ⟨⟨fun _ _ => rfl, Nat.zero_le _⟩, Nat.zero_le _⟩
    rename_i written stores
    have outside : ∀ place, ¬ (desc.addr ≤ place ∧ place < desc.addr + desc.len.toNat) →
        written.bytes place = memory.bytes place := by
      intro place apart
      unfold GuestMemory.write at stores
      grind
    split
    · rename_i more
      obtain ⟨⟨kept, bounded⟩, within⟩ := ih chain written (data.drop desc.len.toNat)
      refine ⟨⟨fun place apart => ?_, ?_⟩, ?_⟩
      · rw [kept place fun other inside => apart other (mem_cons_of_mem _ inside)]
        exact outside place (apart desc mem_cons_self)
      · simp only [map_cons, sum_cons]
        omega
      · rw [length_drop] at within
        dsimp only
        omega
    · rename_i all
      refine ⟨⟨fun place apart => outside place (apart desc mem_cons_self), ?_⟩, Nat.le_refl _⟩
      simp only [map_cons, map_nil, sum_cons, sum_nil]
      omega

/-- Behind the header a descriptor is given as much of the frame as it holds. -/
theorem Filling.put_headed {filling : Filling} (headed : filling.headerWritten = true)
    (frame : List UInt8) (desc : Descriptor) :
    filling.put frame desc =
      let rest := frame.drop filling.offset
      let offset := filling.offset + min desc.len.toNat rest.length
      match filling.memory.write desc.addr (rest.take desc.len.toNat) with
      | none => ({ filling with offset := offset }, false)
      | some memory => (⟨memory, filling.written + min desc.len.toNat rest.length, true, offset⟩,
          desc.len.toNat < rest.length) := by
  have piece : filling.buf frame desc = (frame.drop filling.offset).take desc.len.toNat := by
    simp [Filling.buf, headed, take_eq_take_iff]
  have more : filling.offset + min desc.len.toNat (frame.length - filling.offset) < frame.length ↔
      desc.len.toNat < frame.length - filling.offset := by omega
  unfold Filling.put
  rw [piece]
  simp only [headed, if_true, length_take, length_drop, Nat.sub_zero, more]

/-- Behind the header the loop lays the rest of the frame. -/
theorem fill_lay (frame : List UInt8) (left : Nat) (chain : DescriptorChain) {filling : Filling}
    (headed : filling.headerWritten = true) :
    (fill frame left chain filling).memory =
        (lay left chain filling.memory (frame.drop filling.offset)).memory ∧
      (fill frame left chain filling).written =
        filling.written + (lay left chain filling.memory (frame.drop filling.offset)).count := by
  induction left generalizing chain filling with
  | zero => exact ⟨rfl, rfl⟩
  | succ left ih =>
    unfold fill lay
    split
    · exact ⟨rfl, rfl⟩
    rename_i chain desc _
    split
    · exact ih chain headed
    rw [Filling.put_headed headed]
    dsimp only
    cases filling.memory.write desc.addr ((frame.drop filling.offset).take desc.len.toNat) with
    | none => exact ⟨rfl, rfl⟩
    | some written =>
      by_cases more : desc.len.toNat < (frame.drop filling.offset).length
      · have later := @ih chain ⟨written, filling.written + desc.len.toNat, true,
          filling.offset + desc.len.toNat⟩ rfl
        simp only [more, decide_true, if_true, Nat.min_eq_left (Nat.le_of_lt more), drop_drop]
        rw [Nat.add_assoc] at later
        exact later
      · simp only [more, decide_false, if_false, Nat.min_eq_right (Nat.le_of_not_lt more)]
        exact ⟨trivial, trivial⟩

/-- A descriptor that holds the header is given it, and as much of the frame as it holds then. -/
theorem Filling.put_first {desc : Descriptor} (holds : netHdrLen ≤ desc.len.toNat)
    (memory : GuestMemory) (frame : List UInt8) :
    (Filling.mk memory 0 false 0).put frame desc =
      let offset := min (desc.len.toNat - netHdrLen) frame.length
      match memory.write desc.addr ((header ++ frame).take desc.len.toNat) with
      | none => (⟨memory, 0, true, offset⟩, false)
      | some memory => (⟨memory, netHdrLen + offset, true, offset⟩,
          desc.len.toNat < (header ++ frame).length) := by
  have twelve : header.length = netHdrLen := rfl
  have piece : (Filling.mk memory 0 false 0).buf frame desc =
      (header ++ frame).take desc.len.toNat := by
    simp [Filling.buf, take_append, twelve, take_of_length_le (twelve ▸ holds), take_eq_take_iff]
  have length : min desc.len.toNat (netHdrLen + frame.length) =
      netHdrLen + min (desc.len.toNat - netHdrLen) frame.length := by omega
  have more : min (desc.len.toNat - netHdrLen) frame.length < frame.length ↔
      desc.len.toNat < netHdrLen + frame.length := by omega
  unfold Filling.put
  rw [piece]
  simp only [length_take, length_append, twelve, Bool.false_eq_true, if_false, Nat.zero_add,
    length, Nat.add_sub_cancel_left, more]

/-- A descriptor that does not hold the header is given it all the same, and nothing else. -/
theorem Filling.put_short {desc : Descriptor} (short : desc.len.toNat < netHdrLen)
    (memory : GuestMemory) (frame : List UInt8) :
    (Filling.mk memory 0 false 0).put frame desc =
      match memory.write desc.addr header with
      | none => (⟨memory, 0, true, 0⟩, false)
      | some memory => (⟨memory, netHdrLen, true, 0⟩, 0 < frame.length) := by
  have twelve : header.length = netHdrLen := rfl
  have piece : (Filling.mk memory 0 false 0).buf frame desc = header := by
    simp [Filling.buf, twelve, Nat.sub_eq_zero_of_le (Nat.le_of_lt short)]
  unfold Filling.put
  rw [piece]
  simp only [twelve, Bool.false_eq_true, if_false, Nat.zero_add, Nat.sub_self]

/-- What the loop leaves of a chain whose first device-writable descriptor holds the header is
what was meant. -/
theorem fill_holds (frame : List UInt8) (left : Nat) (chain : DescriptorChain)
    (holds : ∀ desc, (chain.descriptorsWithin memory left).find? Descriptor.isWriteOnly =
      some desc → netHdrLen ≤ desc.len.toNat) :
    (fill frame left chain ⟨memory, 0, false, 0⟩).memory =
        (lay left chain memory (header ++ frame)).memory ∧
      (fill frame left chain ⟨memory, 0, false, 0⟩).written =
        (lay left chain memory (header ++ frame)).count := by
  induction left generalizing chain with
  | zero => exact ⟨rfl, rfl⟩
  | succ left ih =>
    unfold DescriptorChain.descriptorsWithin at holds
    unfold fill lay
    dsimp only
    split
    · exact ⟨rfl, rfl⟩
    rename_i chain desc next
    rw [next] at holds
    split
    · rename_i read
      exact ih chain fun other first => holds other (by simp_all)
    have room := holds desc (by simp_all)
    have twelve : (header ++ frame).length = netHdrLen + frame.length := by
      rw [length_append]
      rfl
    rw [Filling.put_first room]
    dsimp only
    cases memory.write desc.addr ((header ++ frame).take desc.len.toNat) with
    | none => exact ⟨rfl, rfl⟩
    | some written =>
      by_cases more : desc.len.toNat < (header ++ frame).length
      · have offset : min (desc.len.toNat - netHdrLen) frame.length =
            desc.len.toNat - netHdrLen := by omega
        have later := @fill_lay frame left chain ⟨written, desc.len.toNat, true,
          desc.len.toNat - netHdrLen⟩ rfl
        have rest : (header ++ frame).drop desc.len.toNat =
            frame.drop (desc.len.toNat - netHdrLen) := by
          rw [drop_append, drop_of_length_le room]
          rfl
        simp only [more, decide_true, if_true, offset, Nat.add_sub_cancel' room, rest]
        exact later
      · simp only [more, decide_false, if_false]
        refine ⟨trivial, ?_⟩
        omega

/-- What it leaves of one whose first does not: the header has been written there. -/
theorem fill_short (frame : List UInt8) (left : Nat) (chain : DescriptorChain) {desc : Descriptor}
    (first : (chain.descriptorsWithin memory left).find? Descriptor.isWriteOnly = some desc)
    (short : desc.len.toNat < netHdrLen) :
    match memory.write desc.addr header with
    | none => (fill frame left chain ⟨memory, 0, false, 0⟩).memory = memory ∧
        (fill frame left chain ⟨memory, 0, false, 0⟩).written = 0
    | some written => ∃ turns rest,
        (fill frame left chain ⟨memory, 0, false, 0⟩).memory =
          (lay turns rest written frame).memory ∧
        (fill frame left chain ⟨memory, 0, false, 0⟩).written =
          netHdrLen + (lay turns rest written frame).count := by
  induction left generalizing chain with
  | zero => cases first
  | succ left ih =>
    unfold DescriptorChain.descriptorsWithin at first
    unfold fill
    dsimp only
    split at first
    · rename_i chain other next
      rw [next]
      dsimp only
      by_cases write : other.isWriteOnly = true
      · have same : other = desc := by simp_all
        subst same
        rw [if_neg (by simp [write]), Filling.put_short short]
        cases memory.write other.addr header with
        | none => exact ⟨rfl, rfl⟩
        | some written =>
          by_cases some : 0 < frame.length
          · have later := @fill_lay frame left chain ⟨written, netHdrLen, true, 0⟩ rfl
            rw [drop_zero] at later
            simp only [some, decide_true]
            exact ⟨left, chain, later⟩
          · simp only [some, decide_false]
            exact ⟨0, chain, rfl, rfl⟩
      · rw [if_pos (by simp [write])]
        exact ih chain (by simp_all)
    · cases first

/-! ### The loops -/

/-- A chain that was taken is outstanding, and its return makes one entry. -/
theorem returned {popped : Virtqueue} {now : GuestMemory} {chain : DescriptorChain}
    (taken : queue.pop memory = (popped, some chain)) (len : UInt32) :
    Returned popped (popped.pushUsed now chain.head len).1 chain.head := by
  have outstanding := pop_outstanding taken
  have inside := (List.getElem?_eq_some_iff.mp outstanding).1
  rw [pushUsed_outstanding outstanding]
  refine ⟨outstanding, ?_, ?_⟩ <;> dsimp only <;> split <;> simp [pushUsedPacked, pushUsedSplit, *]

/-- A turn of the transmit loop that takes a chain. -/
theorem transmitTurn_spec {card : Card} {chain : DescriptorChain}
    (work : card.queue.hasWork card.memory = true) (room : card.net.outbox.hasRoom = true)
    (taken : card.queue.pop card.memory = (queue, some chain)) :
    Returned queue (transmitTurn card).1.queue chain.head ∧
      (Whole card.memory chain card.net.outbox (transmitTurn card).1.net.outbox ↔
        Uncut card.memory 0 (parts netHdrLen (chain.descriptors card.memory))) := by
  rw [← gather_whole_iff]
  unfold transmitTurn Whole
  rw [work, room, taken]
  refine ⟨returned taken 0, ?_⟩
  dsimp only [Bool.not_true, Bool.false_eq_true, if_false]
  by_cases empty : gather card.memory (chain.descriptors card.memory) netHdrLen [] = []
  · simp [empty]
  · simp [empty, Outbox.push]

/-- What a turn of the receive loop leaves that takes a chain: the chain is returned with the
length it says. If the chain is roomy, and the length of the frame is one that the ring can
tell, header and frame were laid into its buffers, or nothing was written because the first is
short and not in memory, and the length is how many bytes that took. If it is not, the header was
written to a buffer that does not hold it, before the frame was laid into those behind. -/
structure Received (card : Card) (frame : List UInt8) (popped : Virtqueue)
    (chain : DescriptorChain) (left : GuestMemory) (used : UInt32) : Prop where
  returned : Returned popped (popped.pushUsed left chain.head used).1 chain.head
  inside : Roomy card.memory chain → frame.length + netHdrLen < 2 ^ 32 →
    ∃ laid : Laid, laid.Inside card.memory ∧ left = laid.memory ∧ used.toNat = laid.count ∧
      (laid = lay (DescriptorChain.bound + 2) chain card.memory (header ++ frame) ∨
        (∃ desc, (chain.descriptors card.memory).find? Descriptor.isWriteOnly = some desc ∧
          desc.len.toNat < netHdrLen) ∧ laid = ⟨card.memory, 0, []⟩)
  overrun : ¬ Roomy card.memory chain → ∃ desc written turns rest,
    (chain.descriptors card.memory).find? Descriptor.isWriteOnly = some desc ∧
      desc.len.toNat < netHdrLen ∧ card.memory.write desc.addr header = some written ∧
      left = (lay turns rest written frame).memory ∧
      used = UInt32.ofNat (netHdrLen + (lay turns rest written frame).count)

/-- A turn of the receive loop that takes a chain for a frame. -/
theorem receiveTurn_spec {card : Card} {frame : List UInt8} {inbox : List (List UInt8)}
    {chain : DescriptorChain} (waiting : card.net.inbox = frame :: inbox)
    (taken : card.queue.pop card.memory = (queue, some chain)) :
    ∃ left used, ((receiveTurn card).1.queue, (receiveTurn card).1.memory) =
        queue.pushUsed left chain.head used ∧
      Received card frame queue chain left used := by
  unfold receiveTurn
  rw [waiting, taken]
  refine ⟨_, _, rfl, returned taken _, fun roomy short => ?_, fun narrow => ?_⟩
  · by_cases holds : ∀ desc, (chain.descriptors card.memory).find? Descriptor.isWriteOnly =
        some desc → netHdrLen ≤ desc.len.toNat
    · obtain ⟨memory, written⟩ := fill_holds frame _ chain holds
      obtain ⟨inside, within⟩ := lay_inside (DescriptorChain.bound + 2) chain card.memory
        (header ++ frame)
      refine ⟨_, inside, memory, ?_, .inl rfl⟩
      have twelve : header.length = netHdrLen := rfl
      rw [length_append, twelve] at within
      rw [written, UInt32.toNat_ofNat']
      exact Nat.mod_eq_of_lt (by omega)
    · push Not at holds
      obtain ⟨desc, first, less⟩ := holds
      have outside := (roomy desc first).resolve_left (Nat.not_le.mpr less)
      have refused : card.memory.write desc.addr header = none :=
        if_neg (by rw [show header.length = netHdrLen from rfl, outside]; exact nofun)
      have filled := fill_short frame _ chain first less
      rw [refused] at filled
      refine ⟨⟨card.memory, 0, []⟩, ⟨fun _ _ => rfl, Nat.le_refl _⟩, filled.1, ?_,
        .inr ⟨⟨desc, first, less⟩, rfl⟩⟩
      dsimp only
      rw [filled.2]
      rfl
  · unfold Roomy at narrow
    push Not at narrow
    obtain ⟨desc, first, less, mapped⟩ := narrow
    have stores : card.memory.write desc.addr header = some _ :=
      if_pos (by simpa [show header.length = netHdrLen from rfl] using mapped)
    have filled := fill_short frame _ chain first less
    rw [stores] at filled
    obtain ⟨turns, rest, memory, written⟩ := filled
    exact ⟨desc, _, turns, rest, first, less, stores, memory, congrArg UInt32.ofNat written⟩

/-- At every turn of either loop: a chain that is taken is returned once, a transmitted frame is
whole or not sent exactly if no part is refused in its middle, and a chain that is lent is left
as was meant if its first buffer holds the header, and overrun by the header if not. -/
theorem buffers_kept (turns : Nat) (start : Card) :
    (∀ queue chain, (transmit turns start).queue.hasWork (transmit turns start).memory = true →
      (transmit turns start).net.outbox.hasRoom = true →
      (transmit turns start).queue.pop (transmit turns start).memory = (queue, some chain) →
        Returned queue (transmitTurn (transmit turns start)).1.queue chain.head ∧
        (Whole (transmit turns start).memory chain (transmit turns start).net.outbox
            (transmitTurn (transmit turns start)).1.net.outbox ↔
          Uncut (transmit turns start).memory 0
            (parts netHdrLen (chain.descriptors (transmit turns start).memory)))) ∧
    ∀ frame inbox queue chain, (receive turns start).net.inbox = frame :: inbox →
      (receive turns start).queue.pop (receive turns start).memory = (queue, some chain) →
        ∃ left used, ((receiveTurn (receive turns start)).1.queue,
            (receiveTurn (receive turns start)).1.memory) = queue.pushUsed left chain.head used ∧
          Received (receive turns start) frame queue chain left used :=
  ⟨fun _ _ => transmitTurn_spec, fun _ _ _ _ => receiveTurn_spec⟩

/-! ### A frame that is cut and a header that is too long -/

/-- A kilobyte of memory, zero but for these bytes. -/
def kilobyte (cells : List (Nat × UInt8)) : GuestMemory :=
  ⟨[⟨0, 1024⟩], fun place => (cells.lookup place).getD 0⟩

/-- A ring of four whose tables are in that kilobyte. -/
def small : Virtqueue :=
  { Virtqueue.new 4 with
    size := 4, descAddr := 256, availAddr := 384, usedAddr := 448, ready := true }

/-- A chain of a header, four bytes, and four bytes that are not in memory. -/
def reaching : GuestMemory :=
  kilobyte [(257, 2), (264, 12), (268, 1), (270, 1), (272, 16), (273, 2), (280, 4), (284, 1),
    (286, 2), (290, 1), (296, 4), (386, 1)]

/-- A chain of one writable descriptor of four bytes. -/
def tiny : GuestMemory := kilobyte [(257, 2), (264, 4), (268, 2), (386, 1)]

/-- A card that has this queue and memory, and these frames for the guest. -/
def lent (memory : GuestMemory) (inbox : List (List UInt8)) : Card :=
  ⟨⟨⟨[], 0, false⟩, inbox, 0⟩, small, memory⟩

/-- The four bytes in memory are sent as a frame, though the chain has eight. A header of twelve
is written to a buffer of four: the byte at 522 belongs to no buffer and is changed, and the
length that the ring tells is twelve. -/
theorem buffers_overrun :
    ((small.pop reaching).2.map fun chain =>
        ((readable reaching (chain.descriptors reaching)).drop netHdrLen).length) = some 8 ∧
    (transmit 1 (lent reaching [])).net.outbox.frames = [[0, 0, 0, 0]] ∧
    ((small.pop tiny).2.map fun chain => (chain.descriptors tiny).map fun desc =>
        (desc.isWriteOnly, desc.addr, desc.len)) = some [(true, 512, 4)] ∧
    tiny.bytes 522 = 0 ∧ (receive 1 (lent tiny [[7]])).memory.bytes 522 = 1 ∧
    (receive 1 (lent tiny [[7]])).memory.readU32 456 = some 12 := by
  decide +kernel

end Net
end Lighter.Virtio
