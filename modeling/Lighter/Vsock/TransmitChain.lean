import Lighter.Vsock.ReceiveChain

/-!
# What a transmit chain carries

The guest writes a packet into the device-readable buffers of a chain, header and
payload one after the other wherever buffer boundaries fall. The device copies
the header out and keeps the payload as spans of guest memory. Read as one byte
string, the buffers hold the header in the first 44 bytes and the declared
number of payload bytes right behind it; `parseChain_carries` says the spans
name exactly those, and that a chain too short for them, or one that declares
more than a packet may carry, yields nothing.
-/

namespace Lighter.Vsock

open Packet Virtio GuestMemory List

/-- The bytes of a payload where they lie. -/
def payloadAt (memory : GuestMemory) (spans : List (Nat × Nat)) : List UInt8 :=
  spans.flatMap fun span => memory.content span.1 span.2

/-- Every span of a payload lies in mapped memory. -/
def Backed (memory : GuestMemory) (spans : List (Nat × Nat)) : Prop :=
  ∀ span ∈ spans, memory.mapped span.1 span.2 = true

theorem length_payloadAt (memory : GuestMemory) (spans : List (Nat × Nat)) :
    (payloadAt memory spans).length = (spans.map Prod.snd).sum := by
  simp [payloadAt, length_flatMap]

/-- A copy of a backed payload is the payload. -/
theorem copyOut_backed {memory : GuestMemory} {spans : List (Nat × Nat)}
    (backed : Backed memory spans) : Inner.copyOut memory spans = payloadAt memory spans := by
  apply flatMap_congr
  intro span member
  rw [read_of_mapped memory span.1 span.2 (backed span member)]
  rfl

/-- A reader finds a backed payload where it lies. -/
theorem bytes_backed {memory : GuestMemory} {spans : List (Nat × Nat)}
    (backed : Backed memory spans) (head : UInt16) :
    (Chunk.guest head spans).bytes (some memory) = payloadAt memory spans := by
  apply flatMap_congr
  intro span member
  rw [read_of_mapped memory span.1 span.2 (backed span member)]
  rfl

namespace Device

/-- The device-readable buffers of a chain. -/
def readable (chain : Chain) : List Descriptor :=
  chain.2.filter fun desc => !desc.isWriteOnly

/-- The buffers as one byte string. -/
def contents (memory : GuestMemory) (descs : List Descriptor) : List UInt8 :=
  descs.flatMap fun desc => memory.content desc.addr desc.len.toNat

/-- The stream bytes the guest put into a chain for a connection: what stands
behind the header of a complete RW packet. -/
def guestPayload (memory : GuestMemory) (key : ConnKey) (chain : Chain) : List UInt8 :=
  let bytes := contents memory (readable chain)
  let header := bytes.take hdrLen
  match headerOnly header with
  | none => []
  | some packet =>
      if packet.op = .rw ∧ guestKey packet = key ∧
          hdrLen + declared header ≤ bytes.length then
        (bytes.drop hdrLen).take (declared header)
      else []

/-- The stream bytes an entry brings a connection. -/
def brings (memory : GuestMemory) (key : ConnKey) (entry : TxEntry) : List UInt8 :=
  if guestKey entry.1 = key then
    match entry.2 with
    | some (_, spans) => payloadAt memory spans
    | none => if entry.1.op = .rw then entry.1.payload else []
  else []

/-- What a scan has made of the bytes it has passed: the header is their start, and
once it is complete the spans name what follows it, up to the declared length. -/
structure Scanned (memory : GuestMemory) (bytes : List UInt8) (scan : Scan) : Prop where
  header : scan.header = bytes.take hdrLen
  backed : Backed memory scan.spans
  early : bytes.length < hdrLen → scan.declared = 0 ∧ scan.spans = []
  sized : hdrLen ≤ bytes.length →
    scan.declared = declared scan.header ∧ scan.declared ≤ maxPayload
  payload : hdrLen ≤ bytes.length →
    payloadAt memory scan.spans = (bytes.drop hdrLen).take scan.declared

theorem Scan.total_eq (memory : GuestMemory) (scan : Scan) :
    scan.total = (payloadAt memory scan.spans).length :=
  (length_payloadAt memory scan.spans).symm

variable {memory : GuestMemory} {bytes : List UInt8} {scan : Scan}

/-- Behind a complete header the rest of a buffer is payload, as far as some is
still missing. -/
theorem scanPayload_scanned (scanned : Scanned memory bytes scan)
    (complete : hdrLen ≤ bytes.length) (addr len : Nat) (mapped : memory.mapped addr len = true) :
    ∃ next, scanPayload memory scan addr len = some next ∧
      Scanned memory (bytes ++ memory.content addr len) next := by
  obtain ⟨header, backed, _, sized, payload⟩ := scanned
  have start : (bytes ++ memory.content addr len).take hdrLen = bytes.take hdrLen :=
    take_append_of_le_length complete
  have rest : (bytes ++ memory.content addr len).drop hdrLen =
      bytes.drop hdrLen ++ memory.content addr len :=
    drop_append_of_le_length complete
  have filled := payload complete
  have total : scan.total = min scan.declared (bytes.drop hdrLen).length := by
    rw [Scan.total_eq memory, filled, length_take]
  unfold scanPayload
  by_cases enough : len = 0 ∨ scan.total ≥ scan.declared
  · refine ⟨scan, if_pos enough, ?_⟩
    have unchanged : (bytes.drop hdrLen ++ memory.content addr len).take scan.declared =
        (bytes.drop hdrLen).take scan.declared := by
      rcases enough with none | all
      · rw [none]
        simp [content]
      · exact take_append_of_le_length (by omega)
    constructor
    · rw [start, header]
    · exact backed
    · intro short
      rw [length_append] at short
      omega
    · exact fun _ => sized complete
    · intro _
      rw [rest, unchanged]
      exact filled
  · obtain ⟨some_left, missing⟩ := not_or.mp enough
    let take := min len (scan.declared - scan.total)
    have part : memory.mapped addr take = true := memory.mapped_part 0 take mapped (by omega)
    have all : scan.total = (bytes.drop hdrLen).length := by omega
    refine ⟨{ scan with spans := scan.spans ++ [(addr, take)] }, ?_, ?_⟩
    · rw [if_neg enough]
      exact if_pos part
    constructor
    · rw [start]
      exact header
    · intro span member
      rcases mem_append.mp member with prior | last
      · exact backed span prior
      · rw [mem_singleton.mp last]
        exact part
    · grind
    · exact fun _ => sized complete
    intro _
    have piece : (memory.content addr len).take (scan.declared - scan.total) =
        memory.content addr take := by
      have split : len = take + (len - take) := by omega
      rw [split, content_add]
      by_cases fits : len ≤ scan.declared - scan.total
      · have whole : take = len := Nat.min_eq_left fits
        rw [whole, Nat.sub_self]
        simp only [content, range_zero, map_nil, append_nil]
        exact take_of_length_le (by simpa using fits)
      · grind [length_content]
    rw [rest, take_append, ← all, piece]
    simp only [payloadAt, flatMap_append, flatMap_cons, flatMap_nil, append_nil]
    exact congrArg (· ++ _) filled

/-- A complete header that declares more than a packet may carry. -/
def Oversized (bytes : List UInt8) : Prop :=
  hdrLen ≤ bytes.length ∧ declared (bytes.take hdrLen) > maxPayload

theorem Oversized.append (oversized : Oversized bytes) (more : List UInt8) :
    Oversized (bytes ++ more) := by
  constructor
  · rw [length_append]
    exact oversized.1.trans (Nat.le_add_right _ _)
  · rw [take_append_of_le_length oversized.1]
    exact oversized.2

/-- One readable buffer. The scan ends only at a header that declares too much. -/
theorem scanDescriptor_scanned (scanned : Scanned memory bytes scan) (desc : Descriptor)
    (mapped : memory.mapped desc.addr desc.len.toNat = true) :
    match scanDescriptor memory scan desc with
    | some next => Scanned memory (bytes ++ memory.content desc.addr desc.len.toNat) next
    | none => Oversized (bytes ++ memory.content desc.addr desc.len.toNat) := by
  have length : scan.header.length = min hdrLen bytes.length := by
    rw [scanned.header, length_take]
  unfold scanDescriptor
  by_cases complete : hdrLen ≤ bytes.length
  · grind [scanPayload_scanned]
  rw [if_pos (by omega)]
  obtain ⟨none, empty⟩ := scanned.early (by omega)
  let take := min desc.len.toNat (hdrLen - scan.header.length)
  let part := memory.content desc.addr take
  let full := scan.header ++ part
  have start : memory.read desc.addr take = some part := read_of_mapped memory desc.addr take
      (memory.mapped_part 0 take mapped (by omega))
  have split : memory.content desc.addr desc.len.toNat =
      part ++ memory.content (desc.addr + take) (desc.len.toNat - take) := by
    rw [← content_add]
    congr 1
    omega
  have whole : scan.header = bytes := by
    rw [scanned.header]
    exact take_of_length_le (by omega)
  have header : full = (bytes ++ part).take hdrLen := by
    rw [show full = bytes ++ part by rw [← whole], take_of_length_le]
    rw [length_append, length_content]
    omega
  have size : full.length = bytes.length + take := by
    rw [length_append, length_content, whole]
  simp only
  rw [start]
  simp only
  rw [split, ← append_assoc]
  by_cases ends : bytes.length + take = hdrLen
  · have enough : hdrLen ≤ (bytes ++ part).length := by
      rw [length_append, length_content]
      omega
    rw [if_pos (size.trans ends)]
    by_cases large : declared full > maxPayload
    · rw [if_pos large]
      exact Oversized.append ⟨enough, header ▸ large⟩ _
    rw [if_neg large]
    have read : Scanned memory (bytes ++ part)
        { scan with header := full, declared := declared full } := by
      constructor
      · exact header
      · exact scanned.backed
      · intro short
        omega
      · exact fun _ => ⟨rfl, Nat.le_of_not_lt large⟩
      intro _
      have nothing : (bytes ++ part).drop hdrLen = [] := by grind
      rw [nothing]
      simp [payloadAt, empty]
    obtain ⟨next, found, after⟩ := scanPayload_scanned read enough (desc.addr + take)
      (desc.len.toNat - take) (memory.mapped_part take _ mapped (by omega))
    rw [found]
    exact after
  · rw [if_neg (fun same => ends (size.symm.trans same))]
    have used : desc.len.toNat - take = 0 := by omega
    have nothing : memory.content (desc.addr + take) (desc.len.toNat - take) = [] := by
      simp [content, used]
    have still : scanPayload memory { scan with header := full } (desc.addr + take)
        (desc.len.toNat - take) = some { scan with header := full } :=
      if_pos (Or.inl used)
    rw [still, nothing, append_nil]
    constructor
    · exact header
    · exact scanned.backed
    · exact fun _ => ⟨none, empty⟩
    · grind
    · grind

/-- A whole chain, its device-writable buffers passed over. -/
theorem scanChain_scanned (scanned : Scanned memory bytes scan) (descs : List Descriptor)
    (mapped : Mapped memory (descs.filter fun desc => !desc.isWriteOnly)) :
    match scanChain memory scan descs with
    | some result =>
        Scanned memory
          (bytes ++ contents memory (descs.filter fun desc => !desc.isWriteOnly)) result
    | none =>
      Oversized (bytes ++ contents memory (descs.filter fun desc => !desc.isWriteOnly)) := by
  induction descs generalizing bytes scan with
  | nil => simpa [scanChain, contents] using scanned
  | cons desc rest ih =>
    rw [scanChain]
    cases kind : desc.isWriteOnly with
    | true => grind
    | false =>
      simp only [kind, Bool.false_eq_true, if_false, Bool.not_false, filter_cons_of_pos] at mapped ⊢
      have step := scanDescriptor_scanned scanned desc (mapped desc (mem_cons_self ..))
      simp only [contents, flatMap_cons]
      rw [← append_assoc]
      cases found : scanDescriptor memory scan desc with
      | none =>
        rw [found] at step
        exact Oversized.append step _
      | some next =>
        rw [found] at step
        exact ih step fun other member => mapped other (mem_cons_of_mem _ member)

/-- A header declares no more than a packet may carry exactly when it is read. -/
theorem headerOnly_some {header : List UInt8} {packet : Packet}
    (read : headerOnly header = some packet) :
    declared header ≤ maxPayload ∧ packet.payload = [] := by
  unfold headerOnly fromParts at read
  split at read
  · cases read
  · grind

theorem Scanned.start (memory : GuestMemory) : Scanned memory [] ⟨[], 0, []⟩ where
  header := rfl
  backed := by
    intro span member
    cases member
  early := fun _ => ⟨rfl, rfl⟩
  sized := by
    intro long
    cases long
  payload := by
    intro long
    cases long

/-- A scan of a whole chain that ends well has found as much payload as was
declared exactly when the chain holds it. -/
theorem Scanned.complete_iff (scanned : Scanned memory bytes scan) :
    scan.header.length = hdrLen ∧ scan.total = scan.declared ↔
      hdrLen + declared (bytes.take hdrLen) ≤ bytes.length := by
  have length : scan.header.length = min hdrLen bytes.length := by
    rw [scanned.header, length_take]
  constructor
  · have sized := scanned.sized
    have payload := scanned.payload
    have header := scanned.header
    grind [Scan.total_eq]
  · have sized := scanned.sized
    have header := scanned.header
    have payload := scanned.payload
    grind [Scan.total_eq]

section

variable {chain : Chain} (mapped : Mapped memory (readable chain))
include chain mapped

/-- A chain in mapped memory yields its packet when it holds all of it, with the
payload as spans that name its bytes; otherwise it yields nothing. -/
theorem parseChain_cases :
    let bytes := contents memory (readable chain)
    let header := bytes.take hdrLen
    (parseChain memory chain = none ∧
      (headerOnly header = none ∨ bytes.length < hdrLen + declared header)) ∨
    ∃ packet spans, headerOnly header = some packet ∧
      hdrLen + declared header ≤ bytes.length ∧ Backed memory spans ∧
      payloadAt memory spans = (bytes.drop hdrLen).take (declared header) ∧
      parseChain memory chain =
        if packet.op ≠ .rw ∧ declared header > 0 then
          some ({ packet with payload := payloadAt memory spans }, none)
        else if declared header > 0 then some (packet, some (chain.1, spans))
        else some (packet, none) := by
  intro bytes header
  have scanned := scanChain_scanned (Scanned.start memory) chain.2 mapped
  rw [nil_append] at scanned
  change match scanChain memory ⟨[], 0, []⟩ chain.2 with
    | some result => Scanned memory bytes result
    | none => Oversized bytes at scanned
  unfold parseChain
  cases found : scanChain memory ⟨[], 0, []⟩ chain.2 with
  | none =>
    rw [found] at scanned
    refine Or.inl ⟨rfl, Or.inl ?_⟩
    exact if_pos scanned.2
  | some scan =>
    rw [found] at scanned
    simp only [scanned.complete_iff]
    by_cases room : hdrLen + declared header ≤ bytes.length
    · have long : hdrLen ≤ bytes.length := by omega
      rw [if_pos room]
      have size : scan.declared = declared header := by
        rw [(scanned.sized long).1, scanned.header]
      rw [scanned.header, size]
      cases read : headerOnly header with
      | none => exact Or.inl ⟨rfl, Or.inl rfl⟩
      | some packet =>
        refine Or.inr ⟨packet, scan.spans, rfl, room, scanned.backed, ?_, ?_⟩
        · rw [scanned.payload long, size]
        · rw [bytes_backed scanned.backed, Option.map_some]
          split_ifs <;> rfl
    · grind

/-- A payload left in place is its chain's, and lies in mapped memory. -/
theorem parseChain_place {packet : Packet} {head : UInt16} {spans : List (Nat × Nat)}
    (parsed : parseChain memory chain = some (packet, some (head, spans))) :
    head = chain.1 ∧ packet.op = .rw ∧ Backed memory spans := by
  rcases parseChain_cases mapped with ⟨none, _⟩ | ⟨read, places, _, _, backed, _, outcome⟩
  · rw [none] at parsed
    cases parsed
  · grind

/-- The entry of a chain brings a connection the stream bytes the guest put into
the chain for it. -/
theorem parseChain_brings (key : ConnKey) :
    ((parseChain memory chain).map (brings memory key)).getD [] =
      guestPayload memory key chain := by
  have rejected (outcome : headerOnly ((contents memory (readable chain)).take hdrLen) = none ∨
      (contents memory (readable chain)).length <
        hdrLen + declared ((contents memory (readable chain)).take hdrLen)) :
      guestPayload memory key chain = [] := by
    unfold guestPayload
    rcases outcome with unread | short
    · simp [unread]
    · grind
  rcases parseChain_cases mapped with ⟨none, why⟩ | ⟨packet, spans, read, room, _, payload, outcome⟩
  · rw [none, rejected why]
    rfl
  have bare := (headerOnly_some read).2
  have sent : guestPayload memory key chain =
      if packet.op = .rw ∧ guestKey packet = key then payloadAt memory spans else [] := by
    unfold guestPayload
    simp [read, room, payload]
  rw [outcome, sent]
  by_cases mine : guestKey packet = key
  · by_cases stream : packet.op = .rw
    · by_cases long : declared ((contents memory (readable chain)).take hdrLen) > 0
      · simp [brings, mine, stream, long]
      · have nothing : payloadAt memory spans = [] := by
          rw [payload, Nat.eq_zero_of_not_pos long, take_zero]
        simp [brings, mine, stream, long, bare, nothing]
    · by_cases long : declared ((contents memory (readable chain)).take hdrLen) > 0
      · simp [brings, stream, long]
      · simp [brings, stream, long]
  · have elsewhere : guestKey { packet with payload := payloadAt memory spans } ≠ key := mine
    rw [if_neg (show ¬(packet.op = .rw ∧ guestKey packet = key) from fun both => mine both.2)]
    split_ifs
    · simp [brings, elsewhere]
    · simp [brings, mine]
    · simp [brings, mine]

end

end Device
end Lighter.Vsock
