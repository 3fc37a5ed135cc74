import Lighter.Lib.Frames
import Lighter.Vsock.Shared
import Mathlib.Data.UInt

/-!
# Frames from the guest

What the guest sends on a framed stream is taken in whatever pieces it has arrived, each
still in the guest's buffers or copied, and appended to what was left of the piece before.
Whole frames are handled in order and an incomplete one at the end is kept.

The two UDP streams and the DNS stream read the same way. What is done with a frame is a
parameter, an arbitrary function of everything done before it. The reactor has the guest's
memory before it serves any stream; what a chunk in it holds is what it held when taken.
-/

namespace Lighter.Reactor

open Vsock Frames List

universe u

/-- Two bytes, the first the more significant. -/
def be16 (first second : UInt8) : UInt16 := first.toUInt16 <<< 8 ||| second.toUInt16

def be32 (first second third fourth : UInt8) : UInt32 :=
  first.toUInt32 <<< 24 ||| second.toUInt32 <<< 16 ||| third.toUInt32 <<< 8 ||| fourth.toUInt32

/-- The UDP frame: length, flow, kind; then the payload. -/
def udpHeader : Nat := 7

/-- The DNS frame: length, id; then the query. -/
def dnsHeader : Nat := 4

/-- Both begin with the payload's length. -/
def sizeOf (header : List UInt8) : Nat := (be16 (header.getD 0 0) (header.getD 1 0)).toNat

def udpFraming : Framing := ⟨udpHeader, sizeOf, by decide⟩

def dnsFraming : Framing := ⟨dnsHeader, sizeOf, by decide⟩

def flowOf (header : List UInt8) : UInt32 :=
  be32 (header.getD 2 0) (header.getD 3 0) (header.getD 4 0) (header.getD 5 0)

def kindOf (header : List UInt8) : UInt8 := header.getD 6 0

def idOf (header : List UInt8) : UInt16 := be16 (header.getD 2 0) (header.getD 3 0)

/-- A framed stream's reader. `state` is what handling frames changes. -/
structure Reader (σ : Type u) where
  partialBytes : List UInt8
  state : σ
  /-- Counts given to `acknowledge`, in order. -/
  acknowledged : List UInt32
  completed : List UInt16
  live : Bool

/-- The loop over whole frames, from a place in what has been gathered. -/
def frameLoop {σ : Type u} (framing : Framing) (handle : σ → Frame → σ) (bytes : List UInt8) :
    Nat → Nat → σ → σ × Nat
  | 0, place, state => (state, place)
  | fuel + 1, place, state =>
      if bytes.length - place ≥ framing.header then
        let header := (bytes.drop place).take framing.header
        let len := framing.size header
        if bytes.length - place - framing.header < len then (state, place)
        else
          let payload := (bytes.drop (place + framing.header)).take len
          frameLoop framing handle bytes fuel (place + (framing.header + len))
            (handle state ⟨header, payload⟩)
      else (state, place)

/-- `gather`: what has arrived is appended and credited. `none` when there was nothing, or
the stream has ended and is closed. -/
def gather {σ : Type u} (memory : GuestMemory) (reader : Reader σ) : Outbound → Reader σ × Bool
  | .empty => (reader, false)
  | .finished | .gone => ({ reader with live := false }, false)
  | .chunks chunks =>
      let arrived := chunks.flatMap (Chunk.bytes (some memory))
      let count := (chunks.map fun chunk => UInt32.ofNat chunk.len).sum
      ({ reader with
        partialBytes := reader.partialBytes ++ arrived
        completed := reader.completed ++ heads chunks
        acknowledged :=
          if count > 0 then reader.acknowledged ++ [count] else reader.acknowledged }, true)

/-- What a framed stream does when the guest has sent something. The loop cannot take more
turns than there are bytes. -/
def progress {σ : Type u} (framing : Framing) (handle : σ → Frame → σ) (memory : GuestMemory)
    (reader : Reader σ) (taken : Outbound) : Reader σ :=
  if reader.live then
    match gather memory reader taken with
    | (reader, false) => reader
    | (reader, true) =>
        let (state, place) := frameLoop framing handle reader.partialBytes
          reader.partialBytes.length 0 reader.state
        { reader with state := state, partialBytes := reader.partialBytes.drop place }
  else reader

/-- Frames of the guest's UDP stream: flow, kind and payload. -/
def udpProgress {σ : Type u} (handle : σ → UInt32 × UInt8 × List UInt8 → σ) :
    GuestMemory → Reader σ → Outbound → Reader σ :=
  progress udpFraming fun state frame =>
    handle state (flowOf frame.header, kindOf frame.header, frame.payload)

/-- Frames of the agent's inbound UDP stream. -/
def udpInboundProgress {σ : Type u} (handle : σ → UInt32 × UInt8 × List UInt8 → σ) :
    GuestMemory → Reader σ → Outbound → Reader σ :=
  progress udpFraming fun state frame =>
    handle state (flowOf frame.header, kindOf frame.header, frame.payload)

/-- Queries of a DNS stream: id and query. -/
def dnsProgress {σ : Type u} (handle : σ → UInt16 × List UInt8 → σ) :
    GuestMemory → Reader σ → Outbound → Reader σ :=
  progress dnsFraming fun state frame => handle state (idOf frame.header, frame.payload)

variable {σ : Type u} {framing : Framing}

variable {handle : σ → Frame → σ} {first : σ} {stream : List UInt8} {returned : List UInt16}
variable {reader : Reader σ}

/-- The loop handles the whole frames from its place on, and stops at the incomplete one. -/
theorem frameLoop_parsed (framing : Framing) (handle : σ → Frame → σ) (bytes : List UInt8)
    (fuel place : Nat) (state : σ) (enough : bytes.length - place ≤ fuel)
    (within : place ≤ bytes.length) : ∃ frames, Parsed framing (bytes.drop place) frames
        (bytes.drop (frameLoop framing handle bytes fuel place state).2) ∧
      (frameLoop framing handle bytes fuel place state).1 = frames.foldl handle state := by
  have positive := framing.positive
  have stops : ∀ rest : List UInt8, rest.length < framing.header ∨
      rest.length - framing.header < framing.size (rest.take framing.header) →
        ¬ Complete framing rest := by
    rintro rest short ⟨header, payload⟩
    omega
  induction fuel generalizing place state with
  | zero =>
    refine ⟨[], Parsed.nil (stops _ (Or.inl ?_)), rfl⟩
    rw [length_drop]
    omega
  | succ fuel ih =>
    unfold frameLoop
    split
    · rename_i header
      dsimp only
      split
      · rename_i short
        refine ⟨[], Parsed.nil (stops _ (Or.inr ?_)), rfl⟩
        rw [length_drop]
        exact short
      rename_i long
      rw [Nat.not_lt] at long
      let len := framing.size ((bytes.drop place).take framing.header)
      have size : len ≤ bytes.length - place - framing.header := long
      let frame : Frame := ⟨(bytes.drop place).take framing.header,
        (bytes.drop (place + framing.header)).take len⟩
      obtain ⟨frames, parsed, handled⟩ := ih (place + (framing.header + len))
        (handle state frame) (by omega) (by omega)
      refine ⟨frame :: frames, ?_, handled⟩
      have fits : frame.Fits framing := by
        constructor
        · grind
        · grind
      have whole := Parsed.cons fits parsed
      have parts : frame.bytes ++ bytes.drop (place + (framing.header + len)) =
          bytes.drop place := by
        have after : bytes.drop (place + framing.header) = (bytes.drop place).drop framing.header :=
          drop_drop.symm
        have beyond : bytes.drop (place + (framing.header + len)) =
            (bytes.drop (place + framing.header)).drop len := by
          rw [drop_drop, Nat.add_assoc]
        rw [Frame.bytes, append_assoc, beyond, take_append_drop, after, take_append_drop]
      rw [parts] at whole
      exact whole
    · rename_i short
      refine ⟨[], Parsed.nil (stops _ (Or.inl ?_)), rfl⟩
      rw [length_drop]
      omega

/-- One piece of a stream: the guest's memory when it was taken, and what was. -/
abbrev Take := GuestMemory × Outbound

def Take.bytes (taken : Take) : List UInt8 :=
  match taken.2 with
  | .chunks chunks => chunks.flatMap (Chunk.bytes (some taken.1))
  | _ => []

def Take.heads (taken : Take) : List UInt16 :=
  match taken.2 with
  | .chunks chunks => Vsock.heads chunks
  | _ => []

/-- The pieces up to the end of the stream. -/
def untilEnd : List Take → List Take
  | [] => []
  | taken :: rest =>
      match taken.2 with
      | .finished | .gone => []
      | _ => taken :: untilEnd rest

/-- A stream is what its pieces hold, back to back. -/
def streamOf (takes : List Take) : List UInt8 := (untilEnd takes).flatMap Take.bytes

def Reader.start (state : σ) : Reader σ := ⟨[], state, [], [], true⟩

/-- A stream read piece by piece. -/
def readAll (step : GuestMemory → Reader σ → Outbound → Reader σ) (reader : Reader σ)
    (takes : List Take) : Reader σ :=
  takes.foldl (fun reader taken => step taken.1 reader taken.2) reader

theorem length_chunk (memory : GuestMemory) (chunk : Chunk) :
    (chunk.bytes (some memory)).length = chunk.len := by
  cases chunk with
  | owned bytes => rfl
  | guest head spans =>
    simp only [Chunk.bytes, Chunk.len, length_flatMap]
    refine congrArg List.sum (map_congr_left fun span _ => ?_)
    unfold GuestMemory.read
    split
    · exact GuestMemory.length_content memory span.1 span.2
    · exact length_replicate

theorem count_chunks (memory : GuestMemory) (chunks : List Chunk) :
    (chunks.map fun chunk => UInt32.ofNat chunk.len).sum =
      UInt32.ofNat (chunks.flatMap (Chunk.bytes (some memory))).length := by
  induction chunks with
  | nil => rfl
  | cons chunk rest ih => grind [length_chunk, UInt32.ofNat_add]

/-- What a reader has made of the stream so far. -/
structure Reads (framing : Framing) (handle : σ → Frame → σ) (first : σ) (stream : List UInt8)
    (returned : List UInt16) (reader : Reader σ) : Prop where
  parsed : ∃ frames, Parsed framing stream frames reader.partialBytes ∧
    reader.state = frames.foldl handle first
  acknowledged : reader.acknowledged.sum = UInt32.ofNat stream.length
  completed : reader.completed = returned

theorem Reads.start (framing : Framing) (handle : σ → Frame → σ) (first : σ) :
    Reads framing handle first [] [] (Reader.start first) := by
  refine ⟨⟨[], Parsed.nil ?_, rfl⟩, rfl, rfl⟩
  rintro ⟨header, _⟩
  exact absurd header (Nat.not_le.mpr framing.positive)

/-- One more piece. -/
theorem Reads.next (reads : Reads framing handle first stream returned reader)
    (live : reader.live = true) (memory : GuestMemory) (chunks : List Chunk) :
    Reads framing handle first (stream ++ chunks.flatMap (Chunk.bytes (some memory)))
      (returned ++ Vsock.heads chunks)
      (progress framing handle memory reader (.chunks chunks)) := by
  obtain ⟨frames, parsed, state⟩ := reads.parsed
  obtain ⟨more, after, handled⟩ := frameLoop_parsed framing handle
    (reader.partialBytes ++ chunks.flatMap (Chunk.bytes (some memory))) _ 0 reader.state
    (Nat.le_refl _) (Nat.zero_le _)
  unfold progress gather
  rw [if_pos live]
  refine ⟨⟨frames ++ more, parsed.append after, ?_⟩, ?_, ?_⟩
  · rw [foldl_append, ← state]
    exact handled
  · have counted := count_chunks memory chunks
    have sum : (reader.acknowledged ++ [(chunks.map fun chunk => UInt32.ofNat chunk.len).sum]).sum =
          UInt32.ofNat (stream ++ chunks.flatMap (Chunk.bytes (some memory))).length := by
      rw [sum_append, sum_singleton, reads.acknowledged, counted, length_append, UInt32.ofNat_add]
    dsimp only
    split
    · exact sum
    · grind
  · rw [← reads.completed]

theorem readAll_closed (framing : Framing) (handle : σ → Frame → σ) (closed : reader.live = false)
    (takes : List Take) : readAll (progress framing handle) reader takes = reader := by
  induction takes with
  | nil => rfl
  | cons taken rest ih =>
    have same : progress framing handle taken.1 reader taken.2 = reader := by
      unfold progress
      rw [closed]
      rfl
    rw [readAll, foldl_cons, same]
    exact ih

/-- The chains of the pieces up to the end of the stream. -/
def headsOf (takes : List Take) : List UInt16 := (untilEnd takes).flatMap Take.heads

theorem Reads.all (reads : Reads framing handle first stream returned reader)
    (live : reader.live = true) (takes : List Take) :
    Reads framing handle first (stream ++ streamOf takes) (returned ++ headsOf takes)
      (readAll (progress framing handle) reader takes) := by
  induction takes generalizing stream returned reader with
  | nil =>
    rw [show streamOf [] = [] from rfl, show headsOf [] = [] from rfl, append_nil, append_nil]
    exact reads
  | cons taken rest ih =>
    obtain ⟨memory, outcome⟩ := taken
    rw [readAll, foldl_cons]
    -- A stream that ends is closed, and nothing is read from it any more.
    have ends : untilEnd ((memory, outcome) :: rest) = [] →
        progress framing handle memory reader outcome = { reader with live := false } →
        Reads framing handle first (stream ++ streamOf ((memory, outcome) :: rest))
          (returned ++ headsOf ((memory, outcome) :: rest))
          (rest.foldl (fun reader taken => progress framing handle taken.1 reader taken.2)
            (progress framing handle memory reader outcome)) := by
      intro none closes
      have stays : readAll (progress framing handle) { reader with live := false } rest =
          { reader with live := false } := readAll_closed framing handle rfl rest
      unfold readAll at stays
      rw [streamOf, headsOf, none, closes, stays, flatMap_nil, flatMap_nil, append_nil, append_nil]
      exact ⟨reads.parsed, reads.acknowledged, reads.completed⟩
    cases outcome with
    | chunks chunks =>
      have next := ih (reads.next live memory chunks) (by
        unfold progress gather
        rw [if_pos live]
        exact live)
      rw [append_assoc, append_assoc] at next
      exact next
    | empty =>
      have same : progress framing handle memory reader .empty = reader := by
        unfold progress gather
        rw [if_pos live]
      rw [same]
      exact ih reads live
    | finished | gone =>
      refine ends rfl ?_
      unfold progress gather
      rw [if_pos live]

/-- Readers that have made the same of a stream. -/
structure SameReading (one other : Reader σ) : Prop where
  state : one.state = other.state
  partialBytes : one.partialBytes = other.partialBytes
  acknowledged : one.acknowledged.sum = other.acknowledged.sum

theorem Reads.same {returned' : List UInt16} {one other : Reader σ}
    (reads : Reads framing handle first stream returned one)
    (again : Reads framing handle first stream returned' other) : SameReading one other := by
  obtain ⟨frames, parsed, state⟩ := reads.parsed
  obtain ⟨frames', parsed', state'⟩ := again.parsed
  obtain ⟨rfl, rest⟩ := parsed.unique parsed'
  exact ⟨state.trans state'.symm, rest, reads.acknowledged.trans again.acknowledged.symm⟩

/-- For the two UDP streams and for DNS: whatever pieces a stream comes in, the frames handled
are the whole frames of the stream, what is kept is the incomplete one at its end, what is
acknowledged is what was received, and every chain is returned; so two ways of cutting the
same stream come to the same. -/
theorem parsing_ignores_cuts (udp : σ → UInt32 × UInt8 × List UInt8 → σ)
    (dns : σ → UInt16 × List UInt8 → σ) (first : σ) (takes : List Take) :
    (Reads udpFraming
        (fun state frame => udp state (flowOf frame.header, kindOf frame.header, frame.payload))
        first (streamOf takes) (headsOf takes)
        (readAll (udpProgress udp) (Reader.start first) takes) ∧
      Reads udpFraming
        (fun state frame => udp state (flowOf frame.header, kindOf frame.header, frame.payload))
        first (streamOf takes) (headsOf takes)
        (readAll (udpInboundProgress udp) (Reader.start first) takes) ∧
      Reads dnsFraming (fun state frame => dns state (idOf frame.header, frame.payload))
        first (streamOf takes) (headsOf takes)
        (readAll (dnsProgress dns) (Reader.start first) takes)) ∧
    ∀ others, streamOf others = streamOf takes →
      SameReading (readAll (udpProgress udp) (Reader.start first) takes)
        (readAll (udpProgress udp) (Reader.start first) others) ∧
      SameReading (readAll (udpInboundProgress udp) (Reader.start first) takes)
        (readAll (udpInboundProgress udp) (Reader.start first) others) ∧
      SameReading (readAll (dnsProgress dns) (Reader.start first) takes)
        (readAll (dnsProgress dns) (Reader.start first) others) := by
  have udpReads := fun takes => (Reads.start udpFraming
    (fun state frame => udp state (flowOf frame.header, kindOf frame.header, frame.payload))
    first).all rfl takes
  have dnsReads := fun takes => (Reads.start dnsFraming
    (fun state frame => dns state (idOf frame.header, frame.payload)) first).all rfl takes
  refine ⟨⟨udpReads takes, udpReads takes, dnsReads takes⟩, fun others same => ?_⟩
  have udpOthers := udpReads others
  have dnsOthers := dnsReads others
  rw [nil_append, same] at udpOthers dnsOthers
  exact ⟨(udpReads takes).same udpOthers, (udpReads takes).same udpOthers,
    (dnsReads takes).same dnsOthers⟩

/-- A datagram cut inside its header, its second part still in the guest's memory, and whole. -/
theorem parsing_ignores_cuts_datagram :
    SameReading
      (readAll (udpProgress fun log frame => log ++ [frame]) (Reader.start [])
        [(⟨[], fun _ => 0⟩, .chunks [.owned [0, 2, 0]]),
          (⟨[⟨0, 16⟩], fun address => UInt8.ofNat (address + 1)⟩,
            .chunks [.guest 3 [(0, 3)], .owned [0, 8, 9]])])
      (readAll (udpProgress fun log frame => log ++ [frame]) (Reader.start [])
        [(⟨[], fun _ => 0⟩, .chunks [.owned [0, 2, 0, 1, 2, 3, 0, 8, 9]])]) :=
  ((parsing_ignores_cuts (fun log frame => log ++ [frame])
    (fun log _ => log) [] _).2 _ (by decide)).1

end Lighter.Reactor
