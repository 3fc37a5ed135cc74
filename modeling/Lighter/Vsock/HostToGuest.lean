import Lighter.Vsock.Delivery
import Lighter.Vsock.ReceiveChain

/-!
# Host bytes reach the guest once and in order

What senders were told was accepted for a connection is what was written into
receive chains for it, followed by what still waits, as long as the guest has not
closed its receive side: packets are cut to whatever chain turns up, other
connections and the other lane overtake, and chains too small for a header come
back unused. Every chain that was written holds one packet behind a header that
declares its length.
-/

namespace Lighter.Vsock

open Packet Transition Stamped List Feed Outbox

/-- No packet carries more than the format allows. -/
def Outbox.Fits (outbox : Outbox) : Prop :=
  ∀ packet ∈ outbox.control ++ outbox.bulk, packet.payload.length ≤ maxPayload

namespace Outbox

variable (outbox : Outbox)

theorem pushBack_fits (packet : Packet)
    (small : packet.payload.length ≤ maxPayload) (fits : outbox.Fits) :
    (outbox.pushBack packet).Fits := by
  intro other member
  have cases : other = packet ∨ other ∈ outbox.control ++ outbox.bulk := by
    unfold pushBack at member
    split at member <;> simp only [mem_append, mem_singleton] at member ⊢ <;> tauto
  rcases cases with rfl | prior
  · exact small
  · exact fits other prior

theorem pushFront_fits (packet : Packet)
    (small : packet.payload.length ≤ maxPayload) (fits : outbox.Fits) :
    (outbox.pushFront packet).Fits := by
  intro other member
  have cases : other = packet ∨ other ∈ outbox.control ++ outbox.bulk := by
    unfold pushFront at member
    split at member <;> simp only [mem_append, mem_cons] at member ⊢ <;> tauto
  rcases cases with rfl | later
  · exact small
  · exact fits other later

theorem retain_fits (keep : Packet → Bool) (fits : outbox.Fits) : (outbox.retain keep).Fits := by
  intro packet member
  refine fits packet ?_
  rw [retain, ← filter_append] at member
  exact (mem_filter.mp member).1

/-- The packet taken and those left all waited before. -/
theorem popFront_fits {outbox rest : Outbox} {packet : Packet} (fits : outbox.Fits)
    (popped : outbox.popFront = some (packet, rest)) :
    packet.payload.length ≤ maxPayload ∧ rest.Fits := by
  have waited := popFront_packets popped
  refine ⟨fits packet ?_, fun other member => fits other ?_⟩
  · rw [waited]
    exact mem_cons_self ..
  · rw [waited]
    exact mem_cons_of_mem _ member

end Outbox

theorem Inner.deliverNext_fits {inner : Inner} (room : Nat) (fits : inner.outbox.Fits) :
    (inner.deliverNext room).outbox.Fits := by
  unfold deliverNext
  cases popped : inner.outbox.popFront with
  | none => exact fits
  | some pair => grind [popFront_fits, Device.cut, pushFront_fits]

/-- Every section keeps the packets within the format. -/
theorem step_fits (settings : Settings) (inner : Inner) (keyed : Keyed inner)
    (fits : inner.outbox.Fits) (act : Act) : (step settings inner act).outbox.Fits := by
  refine (step_does settings inner keyed act).invariant (fun state => state.outbox.Fits) ?_ fits
  intro state move before ⟨sound, _⟩
  exact Inner.outbox_apply sound pushBack_fits retain_fits
    (fun room => Inner.deliverNext_fits room) (by simp [Fits, empty]) before

namespace Feed

/-- The stream bytes handed to the guest for a connection. -/
def deliveredTo (feed : Feed) (id : Nat) : List UInt8 :=
  feed.line.delivered.flatMap fun entry => if entry.2.id = id then streamed entry.1 else []

/-- The stream bytes that still wait for a connection. -/
def queuedFor (feed : Feed) (id : Nat) : List UInt8 :=
  feed.line.waiting.flatMap fun entry => if entry.2.id = id then streamed entry.1 else []

/-- The bytes senders were told were accepted for a connection. -/
def acceptedBy (feed : Feed) (id : Nat) : List UInt8 :=
  feed.accepted.flatMap fun entry => if entry.1 = id then entry.2 else []

/-- The stream bytes of a connection, delivered and waiting. -/
def streamOf (feed : Feed) (id : Nat) : List UInt8 :=
  feed.line.content (fun stamp => stamp.id = id) streamed

theorem streamOf_eq (feed : Feed) (id : Nat) :
    feed.streamOf id = feed.deliveredTo id ++ feed.queuedFor id := by
  simp [streamOf, Line.content, Line.entries, deliveredTo, queuedFor]

/-- Nothing accepted for a connection opened since the last close is lost, doubled
or out of place. -/
structure Whole (key : ConnKey) (feed : Feed) : Prop where
  bytes : ∀ id, feed.closed < id → feed.streamOf id = feed.acceptedBy id
  closed : feed.closed ≤ feed.stamp.id
  receiving : ∀ conn, feed.inner.conns.lookup key = some conn →
    conn.guestReceiveClosed = false → feed.closed < conn.id

/-- A cut loses none of a stream's bytes. -/
theorem cutTo_streamed (chain : Chain) (packet : Packet) :
    ((cutTo chain packet).1 :: (cutTo chain packet).2.toList).flatMap streamed =
      streamed packet := by
  unfold cutTo Device.cut
  split
  · by_cases kind : packet.op = .rw
    · simp [streamed, kind, Packet.control]
    · simp [streamed, kind, Packet.control]
  · simp

theorem rx_whole (settings : Settings) {key : ConnKey} {feed : Feed} (whole : Whole key feed)
    (memory : GuestMemory) (chain : Chain) :
    Whole key (feed.step settings key (.rx memory chain)) := by
  refine ⟨fun id later => ?_, whole.closed, whole.receiving⟩
  refine Eq.trans ?_ (whole.bytes id later)
  simp only [streamOf, step]
  split
  · rfl
  · exact feed.line.content_hand (cutTo_streamed chain)

/-- Every section keeps the streams whole.

Proof: a section that closes nothing adds what it accepted to the end of the
present connection's stream. One that closes leaves no stream to speak of: every
stamp is at most the present one. -/
theorem step_whole (settings : Settings) {key : ConnKey} {feed : Feed}
    (tracked : Tracked key feed) (whole : Whole key feed) (act : Act) :
    Whole key (feed.step settings key act) := by
  by_cases delivery : ∃ memory chain, act = .rx memory chain
  · grind [rx_whole]
  have kind (memory : GuestMemory) (chain : Chain) : act ≠ .rx memory chain :=
    fun same => delivery ⟨memory, chain, same⟩
  obtain ⟨fresh, advance⟩ := step_advance settings tracked act kind
  have fields : (feed.step settings key act).closed =
        (if closing feed.inner key act then feed.stamp.id else feed.closed) ∧
      (feed.step settings key act).accepted = feed.accepted ++
        [((feed.step settings key act).stamp.id, accepts feed.inner key act)] := by
    cases act with
    | rx memory chain => exact absurd rfl (kind memory chain)
    | _ => exact ⟨rfl, rfl⟩
  generalize feed.step settings key act = next at advance fields
  obtain ⟨closed, accepted⟩ := fields
  have grown (id : Nat) : next.acceptedBy id = feed.acceptedBy id ++
      if next.stamp.id = id then accepts feed.inner key act else [] := by
    simp [acceptedBy, accepted]
  have stream (id : Nat) : next.streamOf id =
      (feed.line.keep (keeps feed.inner key act)).content (fun stamp => stamp.id = id)
        streamed ++ if next.stamp.id = id then accepts feed.inner key act else [] := by
    rw [streamOf, advance.line, Line.content_push, advance.content]
    simp
  have nondecreasing : feed.stamp.id ≤ next.stamp.id := by
    rcases Stamp.le_iff.mp advance.later with older | ⟨same, _⟩
    · exact older.le
    · exact same.le
  cases closes : closing feed.inner key act with
  | false =>
    rw [closes] at closed
    have kept : feed.line.keep (keeps feed.inner key act) = feed.line :=
      feed.line.keep_all fun packet => keeps_of_receiving closes packet
    constructor
    · intro id later
      rw [closed] at later
      rw [stream, grown, kept]
      exact congrArg (· ++ _) (whole.bytes id later)
    · rw [closed]
      exact whole.closed.trans nondecreasing
    · intro conn found receives
      rw [closed]
      rcases advance.receiving conn found receives with newer | ⟨_, prior, before, id, was⟩
      · exact whole.closed.trans_lt newer
      · exact id ▸ whole.receiving prior before was
  | true =>
    rw [closes] at closed
    constructor
    · intro id later
      rw [closed, if_pos rfl] at later
      have past : ∀ entry ∈ feed.line.entries, decide (entry.2.id = id) = false := by
        intro entry member
        rcases Stamp.le_iff.mp (tracked.ordered.past entry member) with older | ⟨same, _⟩
        · exact decide_eq_false (by omega)
        · exact decide_eq_false (by omega)
      have before : feed.acceptedBy id = [] := by
        rw [← whole.bytes id (whole.closed.trans_lt later)]
        exact Line.content_eq_nil past
      have after : (feed.line.keep (keeps feed.inner key act)).content
          (fun stamp => decide (stamp.id = id)) streamed = [] :=
        Line.content_eq_nil fun entry member =>
          past entry ((feed.line.entries_keep_sublist _).subset member)
      rw [stream, grown, before, after]
    · rw [closed]
      exact nondecreasing
    · have receiving := advance.receiving
      grind

theorem start_whole (key : ConnKey) (now ring : Nat) : Whole key (start now ring) where
  bytes := fun _ _ => rfl
  closed := Nat.le_refl _
  receiving := by
    intro conn found
    simp [start, Inner.new] at found

end Feed

/-- What a pass over one chain left: the chain unused, or one packet in it behind a
header that declares the payload's length, with the used entry counting both. The
packet's bytes were stored at the chain's addresses in order, and stand there when
no two of them are the same. -/
def Device.Holds (memory : GuestMemory) (chain : Chain) (pass : RxPass) : Prop :=
  (pass.delivered = [] ∧ pass.memory = memory ∧ ∀ used ∈ pass.used, used = ⟨chain.1, 0⟩) ∨
  ∃ written len, pass.delivered = [written] ∧ pass.used = [⟨chain.1, len⟩] ∧
    len.toNat = hdrLen + written.payload.length ∧
    written.headerBytes.length = hdrLen ∧
    declared written.headerBytes = written.payload.length ∧
    pass.memory.bytes = GuestMemory.deposit memory.bytes
      ((slots (writable chain)).zip (written.headerBytes ++ written.payload)) ∧
    ((slots (writable chain)).Nodup →
      ((slots (writable chain)).take (hdrLen + written.payload.length)).map
        pass.memory.bytes = written.headerBytes ++ written.payload)

/-- Over mapped buffers one pass leaves a chain so. -/
theorem Device.drainRx_holds {outbox : Outbox} (fits : outbox.Fits) {memory : GuestMemory}
    {chain : Chain} (mapped : Mapped memory (writable chain)) :
    Holds memory chain (drainRx ⟨outbox, memory, [], []⟩ [chain]) := by
  rw [drainRx]
  cases popped : outbox.popFront with
  | none => exact Or.inl ⟨rfl, rfl, by simp⟩
  | some pair =>
    obtain ⟨packet, rest⟩ := pair
    simp only [drainRx]
    by_cases small : capacity chain ≤ hdrLen
    · refine Or.inl ?_
      simp [fillRx, small]
    obtain ⟨delivered, used, width, length, bytes, stands⟩ :=
      fillRx_writes ⟨outbox, memory, [], []⟩ chain (Nat.lt_of_not_le small) popped
        (popFront_fits fits popped).1 mapped
    exact Or.inr ⟨_, _, delivered, used, width, length_headerBytes _, length, bytes, stands⟩

/-- In every run, of any sections in any order, and for every key: the packets
written for the key are `received` and those that wait are the outbox's; for every
connection opened under the key since a guest last closed its receive side there,
the stream bytes written into receive chains followed by those that wait are the
bytes senders were told were accepted; that includes the connection in the table
when its guest still receives. And whatever chain is offered next, its buffers in
mapped memory, is left unused or holds one packet.

Proof: stamps tell the connections of a key apart, a cut loses nothing, and what
a section queues for a stream is what it says it accepted. -/
theorem host_bytes_in_order (settings : Settings) (key : ConnKey) (now ring : Nat)
    (acts : List Act) :
    let feed := run (Feed.step settings key) (Feed.start now ring) acts
    feed.line.delivered.map Prod.fst = feed.received ∧
      feed.line.waiting.map Prod.fst = feed.inner.outbox.pending key ∧
      (∀ id, feed.closed < id →
        feed.deliveredTo id ++ feed.queuedFor id = feed.acceptedBy id) ∧
      (∀ conn, feed.inner.conns.lookup key = some conn → conn.id = feed.stamp.id ∧
        (conn.guestReceiveClosed = false → feed.closed < conn.id)) ∧
      ∀ memory chain, Device.Mapped memory (Device.writable chain) →
        Device.Holds memory chain
          (Device.drainRx ⟨feed.inner.outbox, memory, [], []⟩ [chain]) := by
  intro feed
  have all : Tracked key feed ∧ Whole key feed ∧ feed.inner.outbox.Fits := by
    refine run_preserves (Feed.step settings key)
      (fun feed => Tracked key feed ∧ Whole key feed ∧ feed.inner.outbox.Fits) ?_
      (Feed.start now ring) acts ⟨start_tracked key now ring,
        start_whole key now ring, by simp [Fits, Feed.start, Inner.new, empty]⟩
    rintro state act ⟨tracked, whole, fits⟩
    refine ⟨step_tracked settings tracked act, step_whole settings tracked whole act, ?_⟩
    have inner : (state.step settings key act).inner = Vsock.step settings state.inner act := by
      cases act <;> rfl
    rw [inner]
    exact step_fits settings state.inner tracked.keyed fits act
  obtain ⟨tracked, whole, fits⟩ := all
  refine ⟨tracked.handed, tracked.waiting, ?_, ?_, ?_⟩
  · intro id later
    rw [← streamOf_eq]
    exact whole.bytes id later
  · intro conn present
    exact ⟨(tracked.current conn present).1, whole.receiving conn present⟩
  · intro memory chain mapped
    exact Device.drainRx_holds fits mapped

/-- A guest connects with room for more than is sent, and what waits is delivered
into chains with room for two bytes of payload. -/
def sentInParts : List Act :=
  [.listen 5000,
    .handle { Packet.control .request 7 5000 with bufAlloc := 65536 } 0,
    .trySend (5000, 7) [1, 2, 3, 4, 5],
    .rx ⟨[⟨0, 4096⟩], fun _ => 0⟩ (9, [⟨0, 46, Virtio.descWrite, 0⟩]),
    .rx ⟨[⟨0, 4096⟩], fun _ => 0⟩ (9, [⟨0, 40, Virtio.descWrite, 0⟩]),
    .rx ⟨[⟨0, 4096⟩], fun _ => 0⟩ (9, [⟨0, 46, Virtio.descWrite, 0⟩]),
    .rx ⟨[⟨0, 4096⟩], fun _ => 0⟩
      (9, [⟨0, 10, Virtio.descWrite, 0⟩, ⟨100, 36, Virtio.descWrite, 0⟩])]

/-- Four bytes have arrived in two pieces and one waits. -/
theorem host_bytes_in_order_parts :
    let feed := run (Feed.step ⟨false, false⟩ (5000, 7)) (Feed.start 0 256) sentInParts
    feed.deliveredTo 1 = [1, 2, 3, 4] ∧ feed.queuedFor 1 = [5] ∧
      feed.acceptedBy 1 = [1, 2, 3, 4, 5] := by
  intro feed
  have law := host_bytes_in_order ⟨false, false⟩ (5000, 7) 0 256 sentInParts
  have delivered : feed.deliveredTo 1 = [1, 2, 3, 4] := by decide
  have queued : feed.queuedFor 1 = [5] := by decide
  refine ⟨delivered, queued, ?_⟩
  rw [← law.2.2.1 1 (by decide)]
  change feed.deliveredTo 1 ++ feed.queuedFor 1 = _
  rw [delivered, queued]
  rfl

end Lighter.Vsock
