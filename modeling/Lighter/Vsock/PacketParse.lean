import Lighter.Vsock.TransmitChain

/-!
# A packet and the buffers it comes in

`Packet::parse` reads a packet from one byte string. The device never makes that string: it reads
the header across the buffers of a chain and leaves the payload in them. What it acts on is all the
same the packet that the parser finds in the buffers' bytes, if they lie in guest memory.
-/

namespace Lighter.Vsock

open Packet Device Virtio Fixed List

namespace Packet

def parse (bytes : List UInt8) : Option Packet :=
  if bytes.length < hdrLen then none
  else if field bytes 24 4 > maxPayload ∨ bytes.length < hdrLen + field bytes 24 4 then none
  else some {
    srcCid := UInt64.ofNat (field bytes 0 8)
    dstCid := UInt64.ofNat (field bytes 8 8)
    srcPort := UInt32.ofNat (field bytes 16 4)
    dstPort := UInt32.ofNat (field bytes 20 4)
    op := Op.fromRaw (field bytes 30 2)
    flags := UInt32.ofNat (field bytes 32 4)
    bufAlloc := UInt32.ofNat (field bytes 36 4)
    fwdCnt := UInt32.ofNat (field bytes 40 4)
    payload := (bytes.drop hdrLen).take (field bytes 24 4) }

def toBytes (packet : Packet) : List UInt8 := packet.headerBytes ++ packet.payload

theorem field_append {header : List UInt8} {offset width : Nat}
    (inside : offset + width ≤ header.length) (rest : List UInt8) :
    field (header ++ rest) offset width = field header offset width := by
  have first : offset ≤ header.length := by omega
  have enough : width ≤ (header.drop offset).length := by
    rw [length_drop]
    omega
  rw [field, drop_append_of_le_length first, take_append_of_le_length enough]
  rfl

section

variable {header : List UInt8} (size : header.length = hdrLen)
include size

/-- Behind a whole header the parser finds what the header and the payload give. -/
theorem parse_append (rest : List UInt8) :
    parse (header ++ rest) = fromParts header (rest.take (declared header)) := by
  have fields : ∀ offset width, offset + width ≤ hdrLen →
      field (header ++ rest) offset width = field header offset width := fun offset width inside =>
    field_append (by omega) rest
  have long : ¬ (header ++ rest).length < hdrLen := by
    rw [length_append]
    omega
  have behind : (header ++ rest).drop hdrLen = rest := by
    rw [← size]
    exact drop_left
  have short : (header ++ rest).length < hdrLen + declared header ↔
      (rest.take (declared header)).length ≠ declared header := by
    rw [length_append, length_take, size]
    omega
  unfold parse fromParts
  rw [if_neg long, behind, fields 24 4 (by decide), ← declared]
  simp (disch := decide) only [short, fields]

theorem length_front : (header.take 24).length = 24 := by
  rw [length_take, size]
  rfl

/-- The other fields of a header whose length is zeroed. -/
theorem field_zeroed {offset width : Nat} (outside : offset + width ≤ 24 ∨ 28 ≤ offset) :
    field (header.take 24 ++ leBytes 4 0 ++ header.drop 28) offset width =
      field header offset width := by
  have front := length_front size
  rcases outside with before | after
  · rw [append_assoc, field_append (by omega), ← field_append (by omega) (header.drop 24),
      take_append_drop]
  have through : (header.take 24 ++ leBytes 4 0).length = 28 := by
    rw [length_append, front, length_leBytes]
  rw [field, drop_append, drop_of_length_le (by omega), nil_append, through, drop_drop,
    Nat.add_sub_cancel' after]
  rfl

/-- A header read alone, and the payload put to it. -/
theorem fromParts_eq {payload : List UInt8} (whole : payload.length = declared header) :
    fromParts header payload = (headerOnly header).map ({ · with payload := payload }) := by
  unfold headerOnly
  by_cases large : declared header > maxPayload
  · rw [if_pos large, fromParts, if_pos (Or.inl large)]
    rfl
  have zero : declared (header.take 24 ++ leBytes 4 0 ++ header.drop 28) = 0 := by
    have front := length_front size
    rw [declared, field, append_assoc, drop_append, front, drop_of_length_le front.le]
    rfl
  have kept : ¬ (declared header > maxPayload ∨ payload.length ≠ declared header) :=
    not_or.mpr ⟨large, not_not_intro whole⟩
  rw [fromParts, if_neg kept, if_neg large, fromParts, zero, if_neg (by decide), Option.map_some]
  simp (disch := decide) only [field_zeroed size]

end

/-- A string without its whole packet. -/
theorem parse_short {bytes : List UInt8}
    (lacks : bytes.length < hdrLen + declared (bytes.take hdrLen)) : parse bytes = none := by
  by_cases headless : bytes.length < hdrLen
  · exact if_pos headless
  rw [← take_append_drop hdrLen bytes, parse_append (length_take_of_le (Nat.le_of_not_lt headless))]
  refine if_pos (Or.inr ?_)
  rw [length_take, length_drop]
  omega

theorem fromParts_headerBytes (packet : Packet) (fits : packet.payload.length ≤ maxPayload) :
    fromParts packet.headerBytes packet.payload = some packet := by
  have length : declared packet.headerBytes = packet.payload.length := by
    rw [declared_headerBytes]
    exact Nat.mod_eq_of_lt (fits.trans_lt (by decide))
  have operation : Op.fromRaw (packet.op.raw % 65536) = packet.op := by cases packet.op <;> rfl
  rw [fromParts, length, if_neg (by omega)]
  simp [field, headerBytes, drop_append, drop_of_length_le, take_of_length_le, fromLe_leBytes,
    operation]

end Packet

/-- The packet an entry stands for, its payload read where it lies. -/
def acted (memory : GuestMemory) (entry : TxEntry) : Packet :=
  match entry.2 with
  | some (_, spans) => { entry.1 with payload := payloadAt memory spans }
  | none => entry.1

/-- A chain that lies in guest memory is read as the bytes of its buffers are parsed, and it is
malformed exactly when they are. A packet of any permitted size is parsed from its bytes, and a
header and a payload that are apart give what they give together. -/
theorem packet_however_cut (memory : GuestMemory) :
    (∀ chain, Mapped memory (readable chain) →
      (parseChain memory chain).map (acted memory) = parse (contents memory (readable chain))) ∧
    (∀ packet : Packet, packet.payload.length ≤ maxPayload → parse packet.toBytes = some packet) ∧
    ∀ header payload : List UInt8, header.length = hdrLen → payload.length = declared header →
      parse (header ++ payload) = fromParts header payload ∧
        parse (header ++ payload) = (headerOnly header).map ({ · with payload := payload }) := by
  refine ⟨fun chain mapped => ?_, fun packet fits => ?_, fun header payload size whole => ?_⟩
  · have found := parseChain_cases mapped
    dsimp only at found
    generalize contents memory (readable chain) = bytes at found ⊢
    by_cases lacks : bytes.length < hdrLen + declared (bytes.take hdrLen)
    · rw [parse_short lacks]
      rcases found with ⟨none, _⟩ | ⟨_, _, _, room, _⟩
      · rw [none]
        rfl
      · omega
    have size : (bytes.take hdrLen).length = hdrLen := length_take_of_le (by omega)
    have whole : declared (bytes.take hdrLen) ≤ (bytes.drop hdrLen).length := by
      rw [length_drop]
      omega
    have parsed := parse_append size (bytes.drop hdrLen)
    rw [take_append_drop, fromParts_eq size (length_take_of_le whole)] at parsed
    rw [parsed]
    rcases found with ⟨none, why⟩ | ⟨packet, spans, read, _, _, payload, result⟩
    · rw [none, why.resolve_right lacks]
      rfl
    rw [read, result, Option.map_some, ← payload]
    split_ifs with copied left
    · rfl
    · rfl
    have bare : payloadAt memory spans = packet.payload := by
      rw [payload, Nat.eq_zero_of_not_pos left, (headerOnly_some read).2]
      rfl
    rw [bare]
    rfl
  · have size := length_headerBytes packet
    have length : declared packet.headerBytes = packet.payload.length := by
      rw [declared_headerBytes]
      exact Nat.mod_eq_of_lt (fits.trans_lt (by decide))
    rw [toBytes, parse_append size, length, take_length]
    exact fromParts_headerBytes packet fits
  · have same : parse (header ++ payload) = fromParts header payload := by
      rw [parse_append size, ← whole, take_length]
    rw [same]
    exact ⟨rfl, fromParts_eq size whole⟩

namespace Cut

def memory : GuestMemory := ⟨[⟨0, 4096⟩], fun _ => 0⟩

/-- An empty buffer somewhere, and a header in two parts. -/
def chain (place : Nat) : Chain := (0, [⟨place, 0, 0, 0⟩, ⟨0, 20, 0, 0⟩, ⟨100, 24, 0, 0⟩])

/-- An empty buffer outside memory brings no bytes, but the chain is refused for it. -/
theorem empty_buffer_refused : parseChain memory (chain 8192) = none ∧
    (parse (contents memory (readable (chain 8192)))).isSome = true := by decide

theorem packet_however_cut_inside : (parseChain memory (chain 200)).map (acted memory) =
      parse (contents memory (readable (chain 200))) ∧
    parse (control .request 1 2).toBytes = some (control .request 1 2) :=
  ⟨(packet_however_cut memory).1 (chain 200) (by unfold Mapped; decide),
    (packet_however_cut memory).2.1 _ (by decide)⟩

end Cut

end Lighter.Vsock
