import Lighter.Vsock.DeviceReset
import Lighter.Vsock.Queue
import Lighter.Vsock.TransmitChain

/-!
# Guest bytes reach the host once and in order

A payload is held in the guest's buffers or copied out of them, several of one
notification are handled in one batch, and a read may cut across the boundaries
between them. What readers took from a connection, followed by what is queued, is
what the guest sent on it, as long as the guest leaves the memory under a chain
alone until it has the chain back.

A blocking exact read takes what it finds at each look and keeps it between
looks. When the guest finishes sending first it returns nothing, and what it took
is gone. `Stream` keeps apart what was taken and what calls returned.
-/

namespace Lighter.Vsock

open Packet Transition List

/-- The bytes of a queue. -/
def bytesOf (memory : Option GuestMemory) (chunks : List Chunk) : List UInt8 :=
  chunks.flatMap (Chunk.bytes memory)

section

variable (memory : Option GuestMemory)
include memory

@[simp] theorem bytesOf_nil : bytesOf memory [] = [] := rfl

@[simp] theorem bytesOf_append (first second : List Chunk) :
    bytesOf memory (first ++ second) = bytesOf memory first ++ bytesOf memory second :=
  flatMap_append

@[simp] theorem bytesOf_one (chunk : Chunk) : bytesOf memory [chunk] = chunk.bytes memory := by
  simp [bytesOf]

/-- A read takes bytes off the front, wherever it cuts. -/
theorem readChunks_bytes (want : Nat) (chunks : List Chunk) :
    (readChunks memory want chunks).1 ++ bytesOf memory (readChunks memory want chunks).2.1 =
      bytesOf memory chunks := by
  induction chunks generalizing want with
  | nil => cases want <;> rfl
  | cons chunk rest ih =>
    cases want with
    | zero => rfl
    | succ want =>
      rw [readChunks]
      by_cases short : want + 1 < (chunk.bytes memory).length
      · simp only [if_pos short]
        change (chunk.bytes memory).take (want + 1) ++
          ((chunk.bytes memory).drop (want + 1) ++ bytesOf memory rest) = _
        rw [← append_assoc, take_append_drop]
        rfl
      · have tail := ih (want + 1 - (chunk.bytes memory).length)
        simp only [if_neg short]
        rw [append_assoc, tail]
        rfl

/-- What a read leaves in the guest's buffers was there. -/
theorem mem_readChunks (want : Nat) (chunks : List Chunk) {head : UInt16} {spans : List (Nat × Nat)}
    (member : Chunk.guest head spans ∈ (readChunks memory want chunks).2.1) :
    Chunk.guest head spans ∈ chunks := by
  induction chunks generalizing want with
  | nil => cases want <;> exact member
  | cons chunk rest ih =>
    cases want with
    | zero => exact member
    | succ want =>
      rw [readChunks] at member
      by_cases short : want + 1 < (chunk.bytes memory).length
      · grind
      · grind

end

/-- One span of guest memory as a reader finds it. -/
def peek (memory : Option GuestMemory) (span : Nat × Nat) : Option (List UInt8) :=
  memory.bind fun memory => memory.read span.1 span.2

/-- Every span can be read. -/
def Readable (memory : Option GuestMemory) (spans : List (Nat × Nat)) : Prop :=
  ∀ span ∈ spans, (peek memory span).isSome

theorem Readable.of_backed {memory : GuestMemory} {spans : List (Nat × Nat)}
    (backed : Backed memory spans) : Readable (some memory) spans := by
  intro span member
  simp [peek, GuestMemory.read_of_mapped memory span.1 span.2 (backed span member)]

/-- A readable chunk is what its spans hold. -/
theorem Readable.bytes {memory : Option GuestMemory} {spans : List (Nat × Nat)}
    (readable : Readable memory spans) (head : UInt16) :
    (Chunk.guest head spans).bytes memory =
      spans.flatMap fun span => (peek memory span).getD [] := by
  cases memory with
  | none =>
    cases spans with
    | nil => rfl
    | cons span rest => cases readable span (mem_cons_self ..)
  | some memory =>
    apply flatMap_congr
    intro span member
    obtain ⟨found, read⟩ := Option.isSome_iff_exists.mp (readable span member)
    have held : memory.read span.1 span.2 = some found := read
    simp [peek, held]

/-- Chains with the spans of their payloads. -/
abbrev Payloads := List (UInt16 × List (Nat × Nat))

/-- The memory under the chains is as it was. -/
def Unchanged (chains : Payloads) (before after : Option GuestMemory) : Prop :=
  ∀ chain ∈ chains, ∀ span ∈ chain.2, peek after span = peek before span

/-- Every chunk in the guest's buffers belongs to a chain held. -/
def Recorded (chains : Payloads) (chunks : List Chunk) : Prop :=
  ∀ head spans, Chunk.guest head spans ∈ chunks → (head, spans) ∈ chains

/-- The chains can all be read. -/
def AllReadable (memory : Option GuestMemory) (chains : Payloads) : Prop :=
  ∀ chain ∈ chains, Readable memory chain.2

section Unchanged

variable {chains : Payloads} {before after : Option GuestMemory}

theorem AllReadable.unchanged (readable : AllReadable before chains)
    (unchanged : Unchanged chains before after) : AllReadable after chains := by
  intro chain member span inside
  rw [unchanged chain member span inside]
  exact readable chain member span inside

theorem bytes_unchanged {chunk : Chunk} (readable : AllReadable before chains)
    (unchanged : Unchanged chains before after) (recorded : Recorded chains [chunk]) :
    chunk.bytes after = chunk.bytes before := by
  cases chunk with
  | owned bytes => rfl
  | guest head spans =>
    have member := recorded head spans (mem_singleton_self _)
    rw [(readable.unchanged unchanged _ member).bytes, (readable _ member).bytes]
    apply flatMap_congr
    intro span inside
    rw [unchanged _ member span inside]

theorem bytesOf_unchanged {chunks : List Chunk} (readable : AllReadable before chains)
    (unchanged : Unchanged chains before after) (recorded : Recorded chains chunks) :
    bytesOf after chunks = bytesOf before chunks := by
  apply flatMap_congr
  intro chunk member
  refine bytes_unchanged readable unchanged ?_
  intro head spans same
  rw [mem_singleton] at same
  exact recorded head spans (same ▸ member)

end Unchanged

/-- What a section took off a key's queue. -/
inductive Reading where
  | nothing
  /-- A call that returned the bytes, or handed out the chunks that hold them. -/
  | call (bytes : List UInt8)
  /-- One look of an exact read that had `out` before and took `more`. -/
  | look (out more : List UInt8) (pass : ExactPass)

def Reading.taken : Reading → List UInt8
  | .nothing => []
  | .call bytes => bytes
  | .look _ more _ => more

/-- The memory the reader of a section sees. -/
def seen (memory : Option GuestMemory) : Act → Option GuestMemory
  | .guestRw memory _ _ _ _ => some memory
  | .read memory _ _ | .readExact memory _ _ _ => memory
  | _ => memory

def reading (key : ConnKey) (memory : Option GuestMemory) (inner : Inner) : Act → Reading
  | .take reader =>
      if reader = key then
        match (inner.tryTakeOutbound key).2 with
        | .chunks chunks => .call (bytesOf memory chunks)
        | _ => .nothing
      else .nothing
  | .read memory reader want =>
      if reader = key then
        match (inner.tryReadOutbound memory key want).2 with
        | .ok (some out) => .call out
        | _ => .nothing
      else .nothing
  | .readExact memory reader want out =>
      if reader = key then
        .look out
          (match inner.conns.lookup key with
          | none => []
          | some conn => (readChunks memory (want - out.length) conn.outbound).1)
          (inner.readExactPass memory key want out).2
      else .nothing
  | _ => .nothing

/-- The stream bytes the guest sends a connection. -/
def sends (key : ConnKey) : Act → List UInt8
  | .handle packet _ =>
      if guestKey packet = key then if packet.op = .rw then packet.payload else [] else []
  | .guestRw memory packet _ spans _ =>
      if guestKey packet = key then payloadAt memory spans else []
  | _ => []

attribute [local simp] reading Reading.taken queueAfter sends

/-- A payload left in place lies in mapped memory. -/
def Placed : Act → Prop
  | .guestRw memory _ _ spans _ => Backed memory spans
  | _ => True

/-- What was queued and what the guest sends is what a section takes and what it
leaves. -/
theorem reading_conserves (settings : Settings) {inner : Inner} {key : ConnKey} {conn : Conn}
    (present : inner.conns.lookup key = some conn) (memory : Option GuestMemory) (act : Act)
    (placed : Placed act) : (reading key (seen memory act) inner act).taken ++
        bytesOf (seen memory act) (queueAfter settings inner key act conn.outbound) =
      bytesOf (seen memory act) conn.outbound ++ sends key act := by
  cases act with
  | handle packet now =>
    by_cases mine : guestKey packet = key
    · by_cases kind : packet.op = .rw
      · simp [mine, kind, Chunk.bytes]
      · simp [mine, kind]
    · simp [mine]
  | guestRw place packet head spans now =>
    by_cases mine : guestKey packet = key
    · have whole : Chunk.bytes (some place)
          (if (inner.handleGuestRw settings place packet head spans now).2 then
            .guest head spans else .owned (Inner.copyOut place spans)) =
          payloadAt place spans := by
        split
        · exact bytes_backed placed head
        · exact copyOut_backed placed
      simp only [reading, Reading.taken, queueAfter, sends, seen, if_pos mine, bytesOf_append,
        bytesOf_one, whole, nil_append]
    · simp [mine]
  | take reader =>
    by_cases mine : reader = key
    · subst mine
      by_cases empty : conn.outbound = []
      · have none : (inner.tryTakeOutbound reader).2 = .finished ∨
            (inner.tryTakeOutbound reader).2 = .empty := by
          simp only [Inner.tryTakeOutbound, present, empty, ne_eq, not_true_eq_false, if_false]
          split_ifs <;> simp
        rcases none with found | found <;> simp [found, empty]
      · have found : (inner.tryTakeOutbound reader).2 = .chunks conn.outbound := by
          simp [Inner.tryTakeOutbound, present, empty]
        simp [found]
    · simp [mine]
  | read place reader want =>
    by_cases mine : reader = key
    · subst mine
      by_cases enough : want ≤ (conn.outbound.map Chunk.len).sum
      · have found : (inner.tryReadOutbound place reader want).2 =
            .ok (some (readChunks place want conn.outbound).1) := by
          simp [Inner.tryReadOutbound, present, Nat.not_lt.mpr enough]
        simp only [reading, if_true, found, Reading.taken, queueAfter, enough, and_self, sends,
          append_nil, seen]
        exact readChunks_bytes place want conn.outbound
      · have short : (conn.outbound.map Chunk.len).sum < want := Nat.lt_of_not_le enough
        have none : (reading reader (seen memory (.read place reader want)) inner
            (.read place reader want)).taken = [] := by
          simp only [reading, if_true, Inner.tryReadOutbound, present, if_pos short]
          split_ifs <;> rfl
        rw [none]
        simp [enough]
    · simp [mine]
  | readExact place reader want out =>
    by_cases mine : reader = key
    · subst mine
      simp only [reading, if_true, present, Reading.taken, queueAfter, sends, seen, append_nil]
      exact readChunks_bytes place (want - out.length) conn.outbound
    · simp [mine]
  | _ => simp

/-- One connection's stream: what the guest sent, what readers took of it, what
calls returned, and what an exact read between two looks has. It is orderly while
an exact read goes on before anything else takes from the stream, and none gives
up with bytes in hand. -/
structure Stream where
  sent : List UInt8
  taken : List UInt8
  returned : List UInt8
  started : List UInt8
  orderly : Bool
deriving DecidableEq, Repr

namespace Stream

def new : Stream := ⟨[], [], [], [], true⟩

def after (stream : Stream) (arrived : List UInt8) : Reading → Stream
  | .nothing => { stream with sent := stream.sent ++ arrived }
  | .call bytes =>
      { sent := stream.sent ++ arrived
        taken := stream.taken ++ bytes
        returned := stream.returned ++ bytes
        started := stream.started
        orderly := stream.orderly && (stream.started = [] || bytes = []) }
  | .look out more pass =>
      { sent := stream.sent ++ arrived
        taken := stream.taken ++ more
        returned := stream.returned ++ (match pass with | .done all => all | _ => [])
        started := match pass with | .waits all => all | _ => []
        orderly := stream.orderly && out = stream.started &&
          (match pass with | .ended => out ++ more = [] | _ => true) }

theorem sent_after (stream : Stream) (arrived : List UInt8) (reading : Reading) :
    (stream.after arrived reading).sent = stream.sent ++ arrived := by
  cases reading <;> rfl

theorem taken_after (stream : Stream) (arrived : List UInt8) (reading : Reading) :
    (stream.after arrived reading).taken = stream.taken ++ reading.taken := by
  cases reading with
  | nothing => exact (append_nil _).symm
  | call bytes => rfl
  | look out more pass => rfl

/-- In an orderly stream what was taken was returned or is with the read under way. -/
def Joined (stream : Stream) : Prop :=
  stream.orderly = true → stream.returned ++ stream.started = stream.taken

/-- An exact read has what it had and what it took. -/
def Exact : Reading → Prop
  | .look out more (.done all) | .look out more (.waits all) => all = out ++ more
  | _ => True

theorem Joined.after {stream : Stream} (joined : Joined stream) (arrived : List UInt8)
    {reading : Reading} (exact : Exact reading) : Joined (stream.after arrived reading) := by
  intro orderly
  cases reading with
  | nothing => exact joined orderly
  | call bytes =>
    simp only [Stream.after, Bool.and_eq_true, Bool.or_eq_true, decide_eq_true_eq] at orderly ⊢
    rw [← joined orderly.1]
    rcases orderly.2 with idle | none
    · simp [idle]
    · simp [none]
  | look out more pass =>
    cases pass with
    | ended =>
      simp only [Stream.after, Bool.and_eq_true, decide_eq_true_eq] at orderly ⊢
      obtain ⟨⟨was, same⟩, lost⟩ := orderly
      obtain ⟨none, nothing⟩ := append_eq_nil_iff.mp lost
      rw [← joined was, ← same, none, nothing]
    | waits all | done all =>
      simp only [Stream.after, Bool.and_eq_true, decide_eq_true_eq, and_true] at orderly ⊢
      obtain ⟨was, same⟩ := orderly
      have whole : all = out ++ more := exact
      rw [← joined was, whole, ← same]
      simp

end Stream

theorem reading_exact (key : ConnKey) (memory : Option GuestMemory) (inner : Inner)
    (act : Act) : Stream.Exact (reading key memory inner act) := by
  cases act with
  | take reader | read place reader want =>
    simp only [reading]
    split
    · split <;> trivial
    · trivial
  | readExact place reader want out =>
    simp only [reading]
    split
    · unfold Inner.readExactPass
      cases inner.conns.lookup key with
      | none => trivial
      | some conn =>
        simp only
        split_ifs <;> trivial
    · trivial
  | _ => trivial

/-- The device's custody of chains beside one key's stream: guest memory as last
seen, the chains held and not handed back, and the chunks of the key in writers'
hands with the bytes they stood for when they were handed out. -/
structure Intake where
  custody : Custody
  memory : Option GuestMemory
  kept : Payloads
  hands : List (Chunk × List UInt8)
  stream : Stream

namespace Intake

/-- A fresh device over a transmit ring of the given size; memory is not known
before the driver activates it. -/
def start (now ring : Nat) : Intake := ⟨Custody.start now ring, none, [], [], Stream.new⟩

def keptAfter (settings : Settings) (inner : Inner) (kept : Payloads) : Act → Payloads
  | .guestRw memory packet head spans now =>
      if (inner.handleGuestRw settings memory packet head spans now).2 then
        kept ++ [(head, spans)]
      else kept
  | .finishDone _ => kept.filter fun chain => !inner.done.contains chain.1
  | _ => kept

def handsAfter (key : ConnKey) (memory : Option GuestMemory) (inner : Inner)
    (hands : List (Chunk × List UInt8)) : Act → List (Chunk × List UInt8)
  | .take reader =>
      if reader = key then
        match (inner.tryTakeOutbound key).2 with
        | .chunks chunks => hands ++ chunks.map fun chunk => (chunk, chunk.bytes memory)
        | _ => hands
      else hands
  | .complete heads => hands.filter fun entry => entry.1.heads.all fun head => !heads.contains head
  | _ => hands

/-- A connection under the key that was not there before. -/
def opens (key : ConnKey) (before after : Inner) : Bool :=
  (after.conns.lookup key).any fun conn => before.nextId < conn.id

def step (settings : Settings) (key : ConnKey) (intake : Intake) (act : Act) : Intake :=
  let inner := intake.custody.inner
  let memory := seen intake.memory act
  let custody := intake.custody.step settings act
  { custody := custody
    memory := memory
    kept := keptAfter settings inner intake.kept act
    hands := handsAfter key memory inner intake.hands act
    stream :=
      if opens key inner custody.inner then Stream.new
      else intake.stream.after (sends key act) (reading key memory inner act) }

/-- The driver and the writers keep their promises about chains, and a device reset
comes while none is held. -/
def Promised (custody : Custody) : Act → Prop
  | .reset => custody.inner.held = 0
  | act => custody.Allowed act

/-- Besides, guest memory under a chain is unchanged until the chain is handed back,
and a payload the device leaves in place lies in mapped memory. -/
structure Allowed (intake : Intake) (act : Act) : Prop where
  promised : Promised intake.custody act
  unchanged : Unchanged intake.kept intake.memory (seen intake.memory act)
  placed : Placed act

/-- The stream of the key's connection is whole. -/
structure Intact (key : ConnKey) (intake : Intake) : Prop where
  balanced : intake.custody.Balanced
  readable : AllReadable intake.memory intake.kept
  recorded : ∀ conn, intake.custody.inner.conns.lookup key = some conn →
    Recorded intake.kept conn.outbound
  whole : ∀ conn, intake.custody.inner.conns.lookup key = some conn → conn.state ≠ .closed →
    intake.stream.taken ++ bytesOf intake.memory conn.outbound = intake.stream.sent
  joined : intake.stream.Joined
  inHands : ∀ entry ∈ intake.hands, Recorded intake.kept [entry.1] ∧
    (∀ head ∈ entry.1.heads, head ∈ intake.custody.hands) ∧
    entry.1.bytes intake.memory = entry.2

theorem start_intact (key : ConnKey) (now ring : Nat) : Intact key (start now ring) where
  balanced := Custody.start_balanced now ring
  readable := by
    intro chain member
    cases member
  recorded := by
    intro conn found
    simp [start, Custody.start, Inner.new] at found
  whole := by
    intro conn found
    simp [start, Custody.start, Inner.new] at found
  joined := fun _ => rfl
  inHands := by
    intro entry member
    cases member

variable {settings : Settings} {key : ConnKey} {intake : Intake} {act : Act} {inner : Inner}
  {kept : Payloads}

theorem step_balanced (balanced : intake.custody.Balanced)
    (promised : Promised intake.custody act) : (intake.custody.step settings act).Balanced := by
  by_cases resets : act = .reset
  · subst resets
    exact ⟨Session.reset_keyed _, Session.reset_accounted balanced promised, balanced.history⟩
  · refine Custody.step_balanced settings intake.custody act balanced ?_
    cases act <;> first | exact promised | exact absurd rfl resets

/-- Only what is handed back is no longer kept. -/
theorem mem_keptAfter {chain : UInt16 × List (Nat × Nat)} (member : chain ∈ kept)
    (held : chain.1 ∉ inner.done) : chain ∈ keptAfter settings inner kept act := by
  cases act with
  | guestRw memory packet head spans now =>
    simp only [keptAfter]
    split
    · exact mem_append_left _ member
    · exact member
  | finishDone now => simp [keptAfter, member, held]
  | _ => exact member

theorem kept_readable {memory : Option GuestMemory} (readable : AllReadable memory kept)
    (unchanged : Unchanged kept memory (seen memory act)) (placed : Placed act) :
    AllReadable (seen memory act) (keptAfter settings inner kept act) := by
  have still := readable.unchanged unchanged
  cases act with
  | guestRw place packet head spans now =>
    simp only [keptAfter]
    split
    · intro chain member
      rcases mem_append.mp member with prior | last
      · exact still chain prior
      · rw [mem_singleton.mp last]
        exact Readable.of_backed placed
    · exact still
  | finishDone now => exact fun chain member => still chain (mem_filter.mp member).1
  | _ => exact still

/-- A chunk of the queue after a section was in it before, or is held now. -/
theorem queueAfter_recorded {queue : List Chunk} {head : UInt16} {spans : List (Nat × Nat)}
    (member : Chunk.guest head spans ∈ queueAfter settings inner key act queue) :
    Chunk.guest head spans ∈ queue ∨ (head, spans) ∈ keptAfter settings inner kept act := by
  cases act with
  | handle packet now =>
    simp only [queueAfter] at member
    split at member
    · grind
    · exact Or.inl member
  | guestRw memory packet offered places now =>
    simp only [queueAfter] at member
    split at member
    · rcases mem_append.mp member with prior | last
      · exact Or.inl prior
      rw [mem_singleton] at last
      split at last
      · next held =>
        obtain ⟨rfl, rfl⟩ := Chunk.guest.inj last
        refine Or.inr ?_
        simp [keptAfter, held]
      · cases last
    · exact Or.inl member
  | take reader =>
    simp only [queueAfter] at member
    split at member
    · cases member
    · exact Or.inl member
  | read memory reader want =>
    simp only [queueAfter] at member
    split at member
    · exact Or.inl (mem_readChunks memory want queue member)
    · exact Or.inl member
  | readExact memory reader want out =>
    simp only [queueAfter] at member
    split at member
    · exact Or.inl (mem_readChunks memory _ queue member)
    · exact Or.inl member
  | _ => exact Or.inl member

section

variable (intact : Intact key intake)
include intact

variable {conn : Conn}

/-- A chain queued or in a writer's hands is not done. -/
theorem queued_not_done (found : intake.custody.inner.conns.lookup key = some conn)
    {head : UInt16} {spans : List (Nat × Nat)} (member : Chunk.guest head spans ∈ conn.outbound) :
    head ∉ intake.custody.inner.done := by
  have distinct := intact.balanced.accounted.nodup
  rw [heldHeads, append_assoc, nodup_append] at distinct
  intro finished
  refine distinct.2.2 head ?_ head (mem_append_right _ finished) rfl
  have queued : head ∈ heads conn.outbound := mem_flatMap.mpr ⟨_, member, mem_singleton_self _⟩
  have gathered := Table.gather_of_lookup (fun _ conn => heads conn.outbound) key conn
    intake.custody.inner.conns found
  exact gathered.mem_iff.mpr (mem_append_left _ queued)

theorem hands_not_done {head : UInt16}
    (member : head ∈ intake.custody.hands) : head ∉ intake.custody.inner.done := by
  have distinct := intact.balanced.accounted.nodup
  rw [heldHeads, nodup_append] at distinct
  intro finished
  exact distinct.2.2 head (mem_append_right _ member) head finished rfl

theorem step_recorded
    (found : (intake.step settings key act).custody.inner.conns.lookup key = some conn) :
    Recorded (intake.step settings key act).kept conn.outbound := by
  intro head spans member
  rcases step_follows settings intake.custody.inner intact.balanced.keyed key act conn found with
    ⟨_, empty⟩ | ⟨prior, present, _, _, queue⟩
  · rw [empty] at member
    cases member
  have was (before : Chunk.guest head spans ∈ prior.outbound) :
      (head, spans) ∈ (intake.step settings key act).kept :=
    mem_keptAfter (intact.recorded prior present head spans before)
      (queued_not_done intact present before)
  rcases queue with same | ⟨_, part⟩
  · rw [same] at member
    rcases queueAfter_recorded member with before | held
    · exact was before
    · exact held
  · exact was (part member)

/-- The stream stays whole.

Proof: a connection that was there before is not a new one, so its stream goes on;
what it took and left is what it had and got, and what it had reads the same in
the memory the section sees. -/
theorem step_whole (allowed : intake.Allowed act)
    (found : (intake.step settings key act).custody.inner.conns.lookup key = some conn)
    (living : conn.state ≠ .closed) : (intake.step settings key act).stream.taken ++
        bytesOf (intake.step settings key act).memory conn.outbound =
      (intake.step settings key act).stream.sent := by
  have new : opens key intake.custody.inner (intake.custody.step settings act).inner =
      decide (intake.custody.inner.nextId < conn.id) := by
    have table : (intake.custody.step settings act).inner.conns.lookup key = some conn := found
    simp [opens, table]
  simp only [step]
  rcases step_follows settings intake.custody.inner intact.balanced.keyed key act conn found with
    ⟨fresh, empty⟩ | ⟨prior, present, id, closed, queue⟩
  · rw [new, decide_eq_true fresh, if_pos rfl, empty]
    rfl
  have old : ¬intake.custody.inner.nextId < conn.id := by
    rw [id]
    exact Nat.not_lt.mpr (intact.balanced.accounted.connIds key prior present)
  have alive : prior.state ≠ .closed := fun was => living (closed was)
  have left : conn.outbound =
      queueAfter settings intake.custody.inner key act prior.outbound := by grind
  rw [new, decide_eq_false old, if_neg Bool.false_ne_true, Stream.taken_after,
    Stream.sent_after, left, append_assoc,
    reading_conserves settings present intake.memory act allowed.placed,
    bytesOf_unchanged intact.readable allowed.unchanged (intact.recorded prior present),
    ← append_assoc, intact.whole prior present alive]

/-- What is in writers' hands stays recorded and reads the same. -/
theorem step_inHands (allowed : intake.Allowed act)
    {entry : Chunk × List UInt8} (member : entry ∈ (intake.step settings key act).hands) :
    Recorded (intake.step settings key act).kept [entry.1] ∧
      (∀ head ∈ entry.1.heads, head ∈ (intake.step settings key act).custody.hands) ∧
      entry.1.bytes (intake.step settings key act).memory = entry.2 := by
  have stays (before : entry ∈ intake.hands)
      (still : ∀ head ∈ entry.1.heads, head ∈ intake.custody.hands →
        head ∈ (intake.step settings key act).custody.hands) :
      Recorded (intake.step settings key act).kept [entry.1] ∧
        (∀ head ∈ entry.1.heads, head ∈ (intake.step settings key act).custody.hands) ∧
        entry.1.bytes (intake.step settings key act).memory = entry.2 := by
    obtain ⟨recorded, inHands, bytes⟩ := intact.inHands entry before
    refine ⟨?_, fun head owned => still head owned (inHands head owned), ?_⟩
    · intro head spans same
      have owned : head ∈ entry.1.heads := by
        rw [← mem_singleton.mp same]
        exact mem_singleton_self _
      exact mem_keptAfter (recorded head spans same) (hands_not_done intact (inHands head owned))
    · exact (bytes_unchanged intact.readable allowed.unchanged recorded).trans bytes
  cases act with
  | take reader =>
    have grown (head : UInt16) (owned : head ∈ intake.custody.hands) :
        head ∈ (intake.step settings key (.take reader)).custody.hands :=
      mem_append_left _ owned
    simp only [step, handsAfter] at member
    split at member
    · next mine =>
      subst mine
      rcases intake.custody.inner.tryTakeOutbound_cases reader with
        ⟨conn, found, outcome⟩ | ⟨_, none⟩
      · rw [outcome] at member
        rcases mem_append.mp member with before | handed
        · exact stays before fun head _ => grown head
        obtain ⟨chunk, queued, rfl⟩ := mem_map.mp handed
        refine ⟨?_, ?_, rfl⟩
        · intro head spans same
          rw [mem_singleton] at same
          exact intact.recorded conn found head spans (same ▸ queued)
        · intro head owned
          refine mem_append_right _ ?_
          rw [outcome]
          exact mem_flatMap.mpr ⟨chunk, queued, owned⟩
      · grind
    · exact stays member fun head _ => grown head
  | complete finished =>
    obtain ⟨before, others⟩ := mem_filter.mp member
    refine stays before ?_
    intro head owned inHands
    have apart : head ∉ finished := by
      simpa using all_eq_true.mp others head owned
    exact mem_diff_of_mem inHands apart
  | _ => exact stays member fun head _ owned => owned

end

/-- Every allowed section keeps the stream whole. -/
theorem step_intact (settings : Settings) (key : ConnKey) (intake : Intake) (act : Act)
    (intact : Intact key intake) (allowed : intake.Allowed act) :
    Intact key (intake.step settings key act) where
  balanced := step_balanced intact.balanced allowed.promised
  readable := kept_readable intact.readable allowed.unchanged allowed.placed
  recorded := fun _ found => step_recorded intact found
  whole := fun _ found living => step_whole intact allowed found living
  joined := by
    simp only [step]
    split
    · exact fun _ => rfl
    · exact intact.joined.after _ (reading_exact key _ _ act)
  inHands := fun _ member => step_inHands intact allowed member

end Intake

/-- In every run of any sections in any order, over a driver and writers that keep
their promises about chains and memory: what was taken from a connection we have
not closed, followed by what is queued, is what the guest sent on it; while the
stream is orderly, what calls returned and what an exact read under way has is
what was taken; and the chunks in writers' hands still read as the bytes they
stood for. What a chain brings a connection is what the guest put into it behind
the header.

Proof: each section's take and rest is its queue and arrival, and the memory under
a queued or handed-out chunk is that of a chain not handed back. -/
theorem guest_bytes_in_order (settings : Settings) (key : ConnKey) (now ring : Nat)
    (acts : List Act)
    (legal : Legal Intake.Allowed (Intake.step settings key) (Intake.start now ring) acts) :
    let intake := run (Intake.step settings key) (Intake.start now ring) acts
    (∀ conn, intake.custody.inner.conns.lookup key = some conn → conn.state ≠ .closed →
      intake.stream.taken ++ bytesOf intake.memory conn.outbound = intake.stream.sent ∧
      (intake.stream.orderly = true →
        intake.stream.returned ++ intake.stream.started ++
          bytesOf intake.memory conn.outbound = intake.stream.sent)) ∧
      (∀ memory, Unchanged intake.kept intake.memory memory →
        (∀ conn, intake.custody.inner.conns.lookup key = some conn →
          bytesOf memory conn.outbound = bytesOf intake.memory conn.outbound) ∧
        ∀ entry ∈ intake.hands, entry.1.bytes memory = entry.2) ∧
      ∀ memory chain time, Device.Mapped memory (Device.readable chain) →
        ((Device.parseChain memory chain).map fun entry =>
          sends key (Device.entryAct memory time entry)).getD [] =
            Device.guestPayload memory key chain ∧
        ∀ entry, Device.parseChain memory chain = some entry →
          Placed (Device.entryAct memory time entry) := by
  intro intake
  have intact : intake.Intact key :=
    run_invariant Intake.Allowed (Intake.step settings key) (Intake.Intact key)
      (Intake.step_intact settings key) (Intake.start now ring) acts
      (Intake.start_intact key now ring) legal
  refine ⟨?_, ?_, ?_⟩
  · intro conn present living
    have whole := intact.whole conn present living
    refine ⟨whole, ?_⟩
    intro orderly
    rw [intact.joined orderly]
    exact whole
  · have readable := intact.readable
    have recorded := intact.recorded
    have inHands := intact.inHands
    grind [bytesOf_unchanged, bytes_unchanged]
  intro memory chain time mapped
  constructor
  · rw [← Device.parseChain_brings mapped key]
    congr 1
    apply Option.map_congr
    intro entry _
    obtain ⟨packet, place⟩ := entry
    cases place <;> rfl
  · intro entry parsed
    obtain ⟨packet, place⟩ := entry
    cases place with
    | none => trivial
    | some place => exact (Device.parseChain_place mapped parsed).2.2

/-- A page of memory in which every byte is its own address. -/
def countingPage : GuestMemory := ⟨[⟨0, 256⟩], fun address => UInt8.ofNat address⟩

/-- Two payloads are held, which is the connection's share, and the third is copied
out; a read of four bytes cuts into the second, and a take has the rest. -/
def readAcross : List Act :=
  [.listen 5000,
    .handle (Packet.control .request 7 5000) 0,
    .guestRw countingPage (Packet.control .rw 7 5000) 1 [(100, 3)] 0,
    .guestRw countingPage (Packet.control .rw 7 5000) 2 [(200, 1), (210, 1)] 0,
    .guestRw countingPage (Packet.control .rw 7 5000) 3 [(50, 2)] 0,
    .read (some countingPage) (5000, 7) 4,
    .take (5000, 7)]

/-- All seven bytes were returned in order. -/
theorem guest_bytes_in_order_across :
    Legal Intake.Allowed (Intake.step ⟨false, false⟩ (5000, 7)) (Intake.start 0 8) readAcross ∧
      let intake := run (Intake.step ⟨false, false⟩ (5000, 7)) (Intake.start 0 8) readAcross
      intake.stream.returned = [100, 101, 102, 200, 210, 50, 51] ∧
        intake.stream.sent = intake.stream.returned := by
  have idle (intake : Intake) : Unchanged intake.kept intake.memory intake.memory :=
    fun _ _ _ _ => rfl
  have placed (spans : List (Nat × Nat))
      (inside : (spans.all fun span => countingPage.mapped span.1 span.2) = true) :
      Backed countingPage spans := fun span member => all_eq_true.mp inside span member
  have offered (custody : Custody) (head : UInt16) (first : head ∉ custody.taken)
      (never : head ∉ custody.returned) :
      custody.taken.count head = custody.returned.count head := by
    rw [count_eq_zero.mpr first, count_eq_zero.mpr never]
  have legal : Legal Intake.Allowed (Intake.step ⟨false, false⟩ (5000, 7)) (Intake.start 0 8)
      readAcross := by
    refine ⟨⟨trivial, idle _, trivial⟩, ⟨trivial, idle _, trivial⟩,
      ⟨offered _ 1 (by decide) (by decide), ?_, placed _ (by decide)⟩,
      ⟨offered _ 2 (by decide) (by decide), idle _, placed _ (by decide)⟩,
      ⟨offered _ 3 (by decide) (by decide), idle _, placed _ (by decide)⟩,
      ⟨trivial, idle _, trivial⟩, ⟨trivial, idle _, trivial⟩, trivial⟩
    intro chain member
    exact absurd member not_mem_nil
  refine ⟨legal, by decide, ?_⟩
  have left : ((run (Intake.step ⟨false, false⟩ (5000, 7)) (Intake.start 0 8)
      readAcross).custody.inner.conns.lookup (5000, 7)).map
        (fun conn => (conn.state, conn.outbound)) = some (.established, []) := by decide
  obtain ⟨conn, present, view⟩ := Option.map_eq_some_iff.mp left
  obtain ⟨living, empty⟩ := Prod.mk.inj view
  have whole := (guest_bytes_in_order ⟨false, false⟩ (5000, 7) 0 8 readAcross legal).1 conn
    present (by simp [living])
  rw [← whole.2 (by decide), empty, bytesOf_nil, append_nil]
  decide

/-- The guest sends three bytes and finishes sending; a reader wants five. -/
def headerCutShort : List Act :=
  [.listen 5000,
    .handle (Packet.control .request 7 5000) 0,
    .guestRw countingPage (Packet.control .rw 7 5000) 1 [(100, 3)] 0,
    .handle { Packet.control .shutdown 7 5000 with flags := shutdownSend } 0,
    .readExact (some countingPage) (5000, 7) 5 []]

/-- The exact read returned nothing and its three bytes are neither returned nor
queued, though the connection stands. -/
theorem exact_read_drops_bytes :
    Legal Intake.Allowed (Intake.step ⟨false, false⟩ (5000, 7)) (Intake.start 0 8)
        headerCutShort ∧
      let intake := run (Intake.step ⟨false, false⟩ (5000, 7)) (Intake.start 0 8) headerCutShort
      ∃ conn, intake.custody.inner.conns.lookup (5000, 7) = some conn ∧
        conn.state = .established ∧ intake.stream.sent = [100, 101, 102] ∧
        intake.stream.returned = [] ∧ intake.stream.started = [] ∧
        bytesOf intake.memory conn.outbound = [] := by
  have idle (intake : Intake) : Unchanged intake.kept intake.memory intake.memory :=
    fun _ _ _ _ => rfl
  constructor
  · refine ⟨⟨trivial, idle _, trivial⟩, ⟨trivial, idle _, trivial⟩, ⟨?_, ?_, ?_⟩,
      ⟨trivial, idle _, trivial⟩, ⟨trivial, idle _, trivial⟩, trivial⟩
    · change count _ _ = count _ _
      decide
    · intro chain member
      exact absurd member not_mem_nil
    · intro span member
      rw [mem_singleton.mp member]
      decide
  · have left : ((run (Intake.step ⟨false, false⟩ (5000, 7)) (Intake.start 0 8)
        headerCutShort).custody.inner.conns.lookup (5000, 7)).map
          (fun conn => (conn.state, conn.outbound)) = some (.established, []) := by decide
    obtain ⟨conn, present, view⟩ := Option.map_eq_some_iff.mp left
    obtain ⟨living, empty⟩ := Prod.mk.inj view
    refine ⟨conn, present, living, by decide, by decide, by decide, ?_⟩
    rw [empty, bytesOf_nil]

end Lighter.Vsock
