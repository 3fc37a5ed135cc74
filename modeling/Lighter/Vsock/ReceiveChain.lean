import Lighter.Vsock.Sections

/-!
# What a receive chain holds

A packet is written into the device-writable buffers of a chain: the header
first, wherever buffer boundaries fall, and the payload right behind it. Taken
together the buffers are one list of addresses. In mapped memory the fill stores
the packet's bytes at the first of these addresses in order, and the used entry
counts exactly those bytes. When no two buffers overlap the chain afterwards
holds the packet.
-/

namespace Lighter.Vsock

open Packet Virtio GuestMemory List

theorem zip_append_left {α β : Type*} (first second : List α) (data : List β) :
    (first ++ second).zip data = first.zip data ++ second.zip (data.drop first.length) := by
  induction first generalizing data with
  | nil => simp
  | cons item rest ih =>
    cases data with
    | nil => simp
    | cons byte more => simp [ih]

/-- Only as many addresses are used as there are bytes that fit. -/
theorem zip_range'_take {β : Type*} (addr room : Nat) (data : List β) :
    (range' addr (data.take room).length).zip (data.take room) =
      (range' addr room).zip data := by
  induction room generalizing addr data with
  | zero => simp
  | succ room ih =>
    cases data with
    | nil => simp
    | cons byte more =>
      rw [take_succ_cons, length_cons, range'_succ, range'_succ, zip_cons_cons, zip_cons_cons, ih]

namespace Device

/-- The addresses of a chain's buffers, in order. -/
def slots (descs : List Descriptor) : List Nat :=
  descs.flatMap fun desc => List.range' desc.addr desc.len.toNat

theorem length_slots (descs : List Descriptor) :
    (slots descs).length = (descs.map fun desc => desc.len.toNat).sum := by
  simp [slots, length_flatMap]

/-- Every buffer lies in mapped memory. -/
def Mapped (memory : GuestMemory) (descs : List Descriptor) : Prop :=
  ∀ desc ∈ descs, memory.mapped desc.addr desc.len.toNat = true

/-- A stretch of filling: from where it stood, the data goes into the slots in
order until one or the other runs out. -/
structure Filled (data : List UInt8) (slots : List Nat) (before after : Fill) : Prop where
  live : after.live = true
  offset : after.offset = min (before.offset + slots.length) data.length
  regions : after.memory.regions = before.memory.regions
  bytes : after.memory.bytes =
    deposit before.memory.bytes (slots.zip (data.drop before.offset))

namespace Filled

variable {data : List UInt8} {before middle after : Fill} {early late : List Nat}

theorem trans (first : Filled data early before middle)
    (second : Filled data late middle after) : Filled data (early ++ late) before after := by
  have stood : data.drop middle.offset = data.drop (before.offset + early.length) := by
    rw [first.offset]
    by_cases short : before.offset + early.length ≤ data.length
    · rw [Nat.min_eq_left short]
    · rw [Nat.min_eq_right (by omega), drop_of_length_le (Nat.le_refl _),
        drop_of_length_le (by omega)]
  constructor
  · exact second.live
  · rw [second.offset, first.offset, length_append]
    omega
  · exact second.regions.trans first.regions
  · rw [second.bytes, first.bytes, zip_append_left, deposit_append, stood, drop_drop]

/-- Nothing is written where no room is left or everything is written. -/
theorem idle {fill : Fill} (live : fill.live = true) (within : fill.offset ≤ data.length)
    (done : early = [] ∨ fill.offset = data.length) : Filled data early fill fill := by
  have nothing : early.zip (data.drop fill.offset) = [] := by grind
  constructor
  · exact live
  · grind
  · rfl
  · rw [nothing]
    rfl

/-- One copy of the next bytes, as many as fit. -/
theorem place {fill : Fill} (live : fill.live = true) (addr room : Nat) (piece : List UInt8)
    (next : piece = (data.drop fill.offset).take room) (within : fill.offset ≤ data.length)
    (mapped : fill.memory.mapped addr room = true) :
    Filled data (range' addr room) fill (fill.place addr piece) := by
  have length : piece.length = min room (data.length - fill.offset) := by
    rw [next, length_take, length_drop]
  have backed : fill.memory.mapped addr piece.length = true :=
    fill.memory.mapped_part 0 piece.length mapped (by omega)
  have placed : fill.place addr piece = { fill with
      memory := { fill.memory with
        bytes := deposit fill.memory.bytes ((range' addr piece.length).zip piece) }
      offset := fill.offset + piece.length } := by
    rw [Fill.place, write_of_mapped _ _ _ backed]
  have same : (range' addr piece.length).zip piece =
      (range' addr room).zip (data.drop fill.offset) := by
    rw [next]
    exact zip_range'_take addr room _
  rw [placed]
  constructor
  · exact live
  · rw [length_range']
    simp only
    omega
  · rfl
  · rw [← same]

end Filled

/-- One buffer takes the next bytes of the packet, as many as it has room for.

Proof: the header's part and the payload's part are each one copy of the next
bytes; a part that is skipped has no room left or nothing left to write. -/
theorem fillDescriptor_filled {header payload : List UInt8} {fill : Fill} {desc : Descriptor}
    (whole : header.length = hdrLen) (live : fill.live = true)
    (within : fill.offset ≤ (header ++ payload).length)
    (mapped : fill.memory.mapped desc.addr desc.len.toNat = true) :
    Filled (header ++ payload) (range' desc.addr desc.len.toNat) fill
      (fillDescriptor header payload fill desc) := by
  have total : (header ++ payload).length = hdrLen + payload.length := by
    rw [length_append, whole]
  unfold fillDescriptor
  generalize desc.len.toNat = len at mapped
  generalize desc.addr = addr at mapped
  simp only
  -- The second copy, from wherever the first one ended.
  have rest (part : Nat) (middle : Fill) (inside : part ≤ len)
      (first : Filled (header ++ payload) (range' addr part) fill middle)
      (reached : part < len → hdrLen ≤ middle.offset) :
      Filled (header ++ payload) (range' addr len) fill
        (if middle.live ∧ 0 < len - part ∧ hdrLen ≤ middle.offset ∧
            middle.offset < hdrLen + payload.length then
          middle.place (addr + part) ((payload.drop (middle.offset - hdrLen)).take
            (min (len - part) (hdrLen + payload.length - middle.offset)))
        else middle) := by
    have stands : middle.offset ≤ (header ++ payload).length := by
      rw [first.offset]
      exact Nat.min_le_right _ _
    have joined : range' addr len = range' addr part ++ range' (addr + part) (len - part) := by
      rw [range'_append_1, Nat.add_sub_cancel' inside]
    rw [joined]
    refine first.trans ?_
    split
    · next writes =>
      obtain ⟨_, _, past, _⟩ := writes
      refine Filled.place first.live (addr + part) (len - part) _ ?_ stands ?_
      · have tail : (header ++ payload).drop middle.offset =
            payload.drop (middle.offset - hdrLen) := by
          have behind : header.length ≤ middle.offset := by omega
          rw [drop_append, drop_of_length_le behind, nil_append, whole]
        rw [tail]
        by_cases fits : len - part ≤ hdrLen + payload.length - middle.offset
        · rw [Nat.min_eq_left fits]
        · rw [Nat.min_eq_right (by omega),
            take_of_length_le (by rw [length_drop]; omega),
            take_of_length_le (by rw [length_drop]; omega)]
      · have backed : middle.memory.mapped addr len = true := by
          rw [GuestMemory.mapped, first.regions]
          exact mapped
        exact middle.memory.mapped_part part (len - part) backed (by omega)
    · have live := first.live
      grind [Filled.idle]
  by_cases early : fill.offset < hdrLen
  · simp only [if_pos early]
    have piece : (header.drop fill.offset).take (min len (hdrLen - fill.offset)) =
        ((header ++ payload).drop fill.offset).take (min len (hdrLen - fill.offset)) := by grind
    have backed := fill.memory.mapped_part 0 (min len (hdrLen - fill.offset)) mapped (by omega)
    have first := Filled.place live addr (min len (hdrLen - fill.offset)) _ piece within backed
    refine rest _ _ (Nat.min_le_left _ _) first fun more => ?_
    rw [first.offset, length_range']
    omega
  · grind [Filled.idle]

/-- The buffers of a chain take the packet's bytes in order. -/
theorem fillChain_filled {header payload : List UInt8} {fill : Fill} {descs : List Descriptor}
    (whole : header.length = hdrLen) (live : fill.live = true)
    (within : fill.offset ≤ (header ++ payload).length) (mapped : Mapped fill.memory descs) :
    Filled (header ++ payload) (slots descs) fill (fillChain header payload fill descs) := by
  induction descs generalizing fill with
  | nil => exact Filled.idle live within (Or.inl rfl)
  | cons desc rest ih =>
    rw [fillChain]
    split
    · grind [Filled.idle]
    have first := fillDescriptor_filled whole live within (mapped desc (mem_cons_self ..))
    refine first.trans (ih first.live ?_ ?_)
    · rw [first.offset]
      exact Nat.min_le_right _ _
    · intro other member
      rw [GuestMemory.mapped, first.regions]
      exact mapped other (mem_cons_of_mem _ member)

/-- A packet cut to a chain fits behind its header. -/
theorem length_cut (packet : Packet) (room : Nat) :
    (cut packet room).1.payload.length ≤ min packet.payload.length room := by
  unfold cut
  split
  · simp only [length_take]
    omega
  · simp only
    omega

/-- A chain that takes a packet: the used entry counts the header and the payload,
whose length the header declares, and the chain's addresses hold them in order
when no two of them are the same.

Proof: the packet is cut to what the chain has room for, so the fill runs out of
data and not of slots. -/
theorem fillRx_writes (pass : RxPass) (chain : Chain) {packet : Packet} {rest : Outbox}
    (room : hdrLen < capacity chain) (popped : pass.outbox.popFront = some (packet, rest))
    (fits : packet.payload.length ≤ maxPayload) (mapped : Mapped pass.memory (writable chain)) :
    let written := (cut packet (capacity chain - hdrLen)).1
    let data := written.headerBytes ++ written.payload
    (fillRx pass chain).delivered = pass.delivered ++ [written] ∧
      (fillRx pass chain).used =
        pass.used ++ [⟨chain.1, UInt32.ofNat (hdrLen + written.payload.length)⟩] ∧
      (UInt32.ofNat (hdrLen + written.payload.length)).toNat =
        hdrLen + written.payload.length ∧
      declared written.headerBytes = written.payload.length ∧
      (fillRx pass chain).memory.bytes =
        deposit pass.memory.bytes ((slots (writable chain)).zip data) ∧
      ((slots (writable chain)).Nodup →
        ((slots (writable chain)).take (hdrLen + written.payload.length)).map
          (fillRx pass chain).memory.bytes = data) := by
  set places := slots (writable chain)
  intro written data
  have short : written.payload.length ≤ min packet.payload.length (capacity chain - hdrLen) :=
    length_cut packet (capacity chain - hdrLen)
  have total : data.length = hdrLen + written.payload.length := by
    rw [length_append, length_headerBytes]
  have narrow : hdrLen + written.payload.length < 2 ^ 32 := by
    have limit : hdrLen + maxPayload < 2 ^ 32 := by decide
    omega
  have enough : data.length ≤ places.length := by
    rw [length_slots, total]
    change _ ≤ capacity chain
    omega
  have filled : Filled data places ⟨pass.memory, 0, true⟩
      (fillChain written.headerBytes written.payload ⟨pass.memory, 0, true⟩ (writable chain)) :=
    fillChain_filled (length_headerBytes written) rfl (Nat.zero_le _) mapped
  have offset := filled.offset
  rw [Nat.zero_add, Nat.min_eq_right enough, total] at offset
  have bytes := filled.bytes
  rw [drop_zero] at bytes
  simp only [fillRx, if_neg (Nat.not_le.mpr room), popped]
  refine ⟨rfl, ?_, ?_, ?_, bytes, ?_⟩
  · rw [offset]
  · rw [UInt32.toNat_ofNat', Nat.mod_eq_of_lt narrow]
  · rw [declared_headerBytes, Nat.mod_eq_of_lt (by omega)]
  intro distinct
  have taken : places.zip data = (places.take data.length).zip data := by
    conv_lhs => rw [← take_append_drop data.length places]
    rw [zip_append_left, length_take, Nat.min_eq_left enough, drop_length,
      zip_nil_right, append_nil]
  rw [← total]
  rw [bytes, taken]
  refine map_deposit _ _ _ (distinct.sublist (take_sublist _ _)) ?_
  rw [length_take, Nat.min_eq_left enough]

end Device
end Lighter.Vsock
