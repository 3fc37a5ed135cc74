import Lighter.Vsock.Moves

/-!
# Every locked section is made of moves

`Act` lists the sections: what the guest sends, what host threads call, what the
warden and the transport do. For each, the moves it makes beyond the routine
ones are named, and `step_does` says that it makes no others. The passes over
the two rings are runs of such acts, one for each entry or chain.
-/

namespace Lighter.Vsock

open Packet Transition Vsock.Inner
open Vsock.Inner (apply)
open Reaches (one)
attribute [local simp] Packet.control

/-- One receive chain, offered while packets wait. -/
def Inner.rx (inner : Inner) (memory : GuestMemory) (chain : Chain) : Inner :=
  { inner with outbox := (Device.drainRx ⟨inner.outbox, memory, [], []⟩ [chain]).outbox }

inductive Act where
  | openConn (guestPort : UInt32) (now : Nat)
  | listen (hostPort : UInt32)
  | hangUp (hostPort : UInt32)
  | handle (packet : Packet) (now : Nat)
  | guestRw (memory : GuestMemory) (packet : Packet) (head : UInt16)
      (spans : List (Nat × Nat)) (now : Nat)
  | trySend (key : ConnKey) (data : List UInt8)
  | trySendOwned (key : ConnKey) (data : List UInt8)
  | sendPass (key : ConnKey) (data : List UInt8)
  | take (key : ConnKey)
  | read (memory : Option GuestMemory) (key : ConnKey) (want : Nat)
  | readExact (memory : Option GuestMemory) (key : ConnKey) (want : Nat) (out : List UInt8)
  | complete (heads : List UInt16)
  | acknowledge (key : ConnKey) (bytes : UInt32) (now : Nat)
  | shutdownWrite (key : ConnKey)
  | shutdown (key : ConnKey) (now : Nat)
  | abandon (key : ConnKey)
  | label (key : ConnKey) (label : String)
  | sweep (now : Nat) (order : List ConnKey)
  | takeTouched
  | finishDone (now : Nat)
  | rx (memory : GuestMemory) (chain : Chain)
  | reset

/-- One section. -/
def step (settings : Settings) (inner : Inner) : Act → Inner
  | .openConn guestPort now => (inner.openConn guestPort now).1
  | .listen hostPort => inner.listen hostPort
  | .hangUp hostPort => inner.hangUp hostPort
  | .handle packet now => inner.handle packet now
  | .guestRw memory packet head spans now =>
      (inner.handleGuestRw settings memory packet head spans now).1
  | .trySend key data => (inner.trySend key data).1
  | .trySendOwned key data => (inner.trySendOwned key data).1
  | .sendPass key data => (inner.sendPass key data).1
  | .take key => (inner.tryTakeOutbound key).1
  | .read memory key want => (inner.tryReadOutbound memory key want).1
  | .readExact memory key want out => (inner.readExactPass memory key want out).1
  | .complete heads => inner.complete heads
  | .acknowledge key bytes now => inner.acknowledge settings key bytes now
  | .shutdownWrite key => inner.shutdownWrite key
  | .shutdown key now => inner.shutdown key now
  | .abandon key => inner.abandon key
  | .label key label => inner.label key label
  | .sweep now order => inner.sweep now order
  | .takeTouched => inner.takeTouched.1
  | .finishDone now => (inner.finishDone now).1
  | .rx memory chain => inner.rx memory chain
  | .reset => inner.reset

/-- The moves beyond the routine that a section may make. -/
def Act.extra : Act → Move → Prop
  | .openConn guestPort _, .insert _ port _ _ => port = guestPort
  | .handle packet _, .insert key _ _ _ => packet.op = .request ∧ key = guestKey packet
  | .handle packet _, .dropInput key => packet.op = .shutdown ∧ key = guestKey packet
  | .handle packet _, .arrive key bytes =>
      packet.op = .rw ∧ key = guestKey packet ∧ bytes = packet.payload
  | .handle packet _, .edit key _ =>
      (packet.op = .shutdown ∨ packet.op = .rw) ∧ key = guestKey packet
  | .handle packet _, .remove key =>
      (packet.op = .rst ∨ packet.op = .shutdown) ∧ key = guestKey packet
  | .handle packet _, .queue reply =>
      (packet.op = .shutdown ∨ packet.op = .rw ∨ packet.op = .request) ∧
        reply.op = .rst ∧ reply.key = guestKey packet
  | .guestRw _ packet head spans _, .hold key held places =>
      key = guestKey packet ∧ held = head ∧ places = spans
  | .guestRw memory packet _ spans _, .arrive key bytes =>
      key = guestKey packet ∧ bytes = Inner.copyOut memory spans
  | .guestRw _ packet _ _ _, .edit key _ => key = guestKey packet
  | .guestRw _ packet _ _ _, .queue reply => reply.op = .rst ∧ reply.key = guestKey packet
  | .trySend key _, .send sender _ => sender = key
  | .trySendOwned key _, .send sender _ => sender = key
  | .sendPass key _, .send sender _ => sender = key
  | .take key, .leave source left finished _ => source = key ∧ left = [] ∧ finished = []
  | .read _ key _, .leave source _ _ taken => source = key ∧ taken = []
  | .readExact _ key _ _, .leave source _ _ taken => source = key ∧ taken = []
  | .complete heads, .complete completed => completed = heads
  | .acknowledge key bytes _, .consume reader count => reader = key ∧ count = bytes
  | .acknowledge key _ _, .remove reader => reader = key
  | .acknowledge key _ _, .queue reply => reply.op = .rst ∧ reply.key = key
  | .shutdownWrite key, .halfClose closing => closing = key
  | .shutdown key _, .edit closing _ => closing = key
  | .abandon key, .remove given => given = key
  | .abandon key, .queue reply => reply.op = .rst ∧ reply.key = key
  | .sweep _ _, .remove _ => True
  | .sweep _ _, .queue reply => reply.op = .rst
  | .finishDone now, .finish time => time = now
  | .rx _ _, .deliver _ => True
  | .reset, .reset => True
  | _, _ => False

/-- What a read takes and what it leaves are the chains that were there. -/
theorem heads_readChunks (memory : Option GuestMemory) (want : Nat) (chunks : List Chunk) :
    heads chunks =
      (readChunks memory want chunks).2.2 ++ heads (readChunks memory want chunks).2.1 := by
  induction chunks generalizing want with
  | nil => cases want <;> rfl
  | cons chunk rest ih =>
    cases want with
    | zero => rfl
    | succ want =>
      rw [readChunks]
      split
      · simp [heads, Chunk.heads]
      · have tail := ih (want + 1 - (chunk.bytes memory).length)
        simp only [heads, List.flatMap_cons, List.append_assoc] at tail ⊢
        rw [tail]

variable {extra : Move → Prop} {inner : Inner} {key : ConnKey}

/-- A section may queue resets for a key. -/
def Resets (extra : Move → Prop) (key : ConnKey) : Prop :=
  ∀ packet : Packet, packet.op = .rst → packet.key = key → extra (.queue packet)

namespace Does

theorem nothing : Does extra inner inner := Reaches.refl _

theorem aside (fields : Aside) : Does extra inner (inner.withAside fields) :=
  one (Move.aside fields) ⟨trivial, Or.inl trivial⟩

theorem touch (key : ConnKey) : Does extra inner (inner.touch key) := by
  rw [touch_eq]
  exact aside _

theorem edit {before after : Conn} (present : inner.conns.lookup key = some before)
    (kept : Kept before after) (still : Still before after) :
    Does extra inner (inner.set key after) := by
  refine one (Move.edit key after) ⟨⟨before, present, kept⟩, Or.inl ?_⟩
  intro other found
  cases Option.some.inj (present.symm.trans found)
  exact still

/-- An edit the section names. -/
theorem change {before after : Conn} (found : inner.conns.lookup key = some before)
    (kept : Kept before after) (named : extra (.edit key after)) :
    Does extra inner (inner.set key after) :=
  one (Move.edit key after) ⟨⟨before, found, kept⟩, Or.inr named⟩

/-- A change that keeps what is shared, wherever the connection is. -/
theorem modify {change : Conn → Conn} (kept : ∀ conn, Kept conn (change conn))
    (still : ∀ conn, Still conn (change conn)) : Does extra inner (inner.modify key change) := by
  cases found : inner.conns.lookup key with
  | none =>
    rw [modify_absent found]
    exact nothing
  | some conn =>
    rw [modify_present found]
    exact edit found (kept conn) (still conn)

/-- A reset needs no connection. -/
theorem reset {packet : Packet} (rst : packet.op = .rst) (bare : packet.payload = [])
    (named : extra (.queue packet)) : Does extra inner (inner.queue packet) :=
  one (Move.queue packet) ⟨⟨⟨by simp [rst], bare⟩, Or.inl rst⟩, Or.inr named⟩

/-- Any other packet carries its connection's count. -/
theorem answer {packet : Packet} {conn : Conn}
    (found : inner.conns.lookup key = some conn) (filed : packet.key = key)
    (bare : Bare packet ∧ packet.op ≠ .rst) (count : packet.fwdCnt = conn.credit.fwdCnt) :
    Does extra inner (inner.queue packet) :=
  one (Move.queue packet)
    ⟨⟨bare.1, Or.inr ⟨conn, filed ▸ found, count⟩⟩, Or.inl bare.2⟩

/-- A move outside the routine that the section names. -/
theorem special (move : Move) (sound : Sound inner move) (named : extra move) :
    Does extra inner (inner.apply move) :=
  one move ⟨sound, Or.inr named⟩

theorem remove (key : ConnKey) (named : extra (.remove key)) :
    Does extra inner (inner.remove key).1 := by
  refine (touch key).trans ?_
  have same : (inner.remove key).1 = (inner.touch key).apply (.remove key) := by
    simp only [Inner.remove, apply, Inner.onConn]
    cases (inner.touch key).conns.lookup key <;> rfl
  rw [same]
  exact special (.remove key) trivial named

/-- Opening a connection is one move, with nothing but routine after it. -/
theorem insert_after (key : ConnKey) (guestPort : UInt32) (state : State) (now : Nat) :
    Does extra (inner.apply (.insert key guestPort state now))
      (inner.insert key guestPort state now).1 := by
  cases found : inner.conns.lookup key with
  | none => grind [Inner.insert, apply, Inner.set, Reaches.refl]
  | some old =>
    have same : (inner.insert key guestPort state now).1 =
        (inner.apply (.insert key guestPort state now)).touch key := by
      simp only [Inner.insert, apply, Inner.set, found]
      exact touch_retire _ key old
    rw [same]
    exact touch key

/-- Sections one after another, one for each entry of a list. -/
theorem each {α : Type} (part : Inner → α → Inner)
    (does : ∀ state entry, Does extra state (part state entry)) (entries : List α) :
    Does extra inner (entries.foldl part inner) := by
  induction entries generalizing inner with
  | nil => exact nothing
  | cons entry rest ih => exact (does inner entry).trans ih

theorem finishShutdown (key : ConnKey) (removes : extra (.remove key))
    (resets : Resets extra key) : Does extra inner (inner.finishShutdown key) := by
  unfold Inner.finishShutdown
  cases inner.conns.lookup key with
  | none => exact nothing
  | some conn =>
    simp only
    split
    · exact nothing
    · exact (reset rfl rfl (resets _ rfl rfl)).trans (remove key removes)

theorem refuse (hostPort guestPort : UInt32) (resets : Resets extra (hostPort, guestPort)) :
    Does extra inner (inner.refuse hostPort guestPort) := reset rfl rfl (resets _ rfl rfl)

theorem offer (hostPort : UInt32) (key : ConnKey) :
    Does extra inner (inner.offer hostPort key).1 := by
  unfold Inner.offer
  cases inner.listeners.lookup hostPort with
  | none => exact nothing
  | some listener =>
    simp only
    split
    · exact aside { inner.aside with listeners := _ }
    · exact nothing

/-- Hearing a packet's credit changes nothing shared. -/
theorem observe (key : ConnKey) (packet : Packet) :
    Does extra inner (inner.observe key packet) := by
  unfold Inner.observe
  cases inner.conns.lookup key with
  | none => exact nothing
  | some conn =>
    refine .trans (modify (fun _ => ?_) fun _ => ?_) (touch key)
    · exact ⟨rfl, rfl, rfl, rfl, rfl, rfl, id, id⟩
    · exact ⟨rfl, rfl, rfl, id⟩

end Does

namespace Inner

theorem lookup_insert_self (inner : Inner) (key : ConnKey) (guestPort : UInt32)
    (state : State) (now : Nat) :
    (inner.insert key guestPort state now).1.conns.lookup key =
      some (inner.insert key guestPort state now).2 := by
  unfold insert
  cases inner.conns.lookup key <;> simp

@[simp] theorem insert_conn (inner : Inner) (key : ConnKey) (guestPort : UInt32)
    (state : State) (now : Nat) :
    (inner.insert key guestPort state now).2 =
      Conn.new guestPort state Budget.opened (inner.nextId + 1) now := by
  unfold insert
  cases inner.conns.lookup key <;> rfl

end Inner

namespace Does

variable (key : ConnKey)

theorem handleResponse : Does extra inner (inner.handleResponse key) := by
  refine modify (fun conn => ?_) fun conn => ?_
  · split
    · next waiting => exact ⟨rfl, rfl, rfl, rfl, rfl, rfl, by simp [waiting], id⟩
    · exact ⟨rfl, rfl, rfl, rfl, rfl, rfl, id, id⟩
  · split
    · exact ⟨rfl, rfl, rfl, by simp⟩
    · exact ⟨rfl, rfl, rfl, id⟩

theorem handleShutdown (flags : UInt32) (drops : extra (.dropInput key))
    (declares : ∀ conn, extra (.edit key conn)) (removes : extra (.remove key))
    (resets : Resets extra key) : Does extra inner (inner.handleShutdown key flags) := by
  unfold Inner.handleShutdown
  cases found : inner.conns.lookup key with
  | none => exact nothing
  | some conn =>
    simp only
    rw [modify_present found]
    have stays (closed : conn.guestReceiveClosed = true) :
        (Inner.declareShutdown conn flags).guestReceiveClosed = true := by
      simp [Inner.declareShutdown, closed]
    have declared : Does extra inner (inner.set key (Inner.declareShutdown conn flags)) :=
      change found ⟨rfl, rfl, rfl, rfl, rfl, rfl, id, stays⟩ (declares _)
    refine declared.trans ?_
    split
    · next receiving =>
      refine (special (.dropInput key) ?_ drops).trans (finishShutdown key removes resets)
      exact ⟨_, lookup_set_self _ _ _, receiving⟩
    · exact finishShutdown key removes resets

theorem handleRw (payload : List UInt8) (feeds : extra (.arrive key payload))
    (counts : ∀ conn, extra (.edit key conn)) (resets : Resets extra key) :
    Does extra inner (inner.handleRw key payload) := by
  unfold Inner.handleRw
  cases found : inner.conns.lookup key with
  | none => exact refuse _ _ resets
  | some conn =>
    simp only
    split
    · exact nothing
    next living =>
    rw [modify_present found]
    let counted : Conn := { conn with received := conn.received + UInt32.ofNat payload.length }
    have first : Does extra inner (inner.set key counted) :=
      change found ⟨rfl, rfl, rfl, rfl, rfl, rfl, id, id⟩ (counts _)
    have stands := lookup_set_self inner key counted
    have second := special (.arrive key payload) ⟨counted, stands, living⟩ feeds
    rw [apply, onConn_present stands, set_set] at second
    exact first.trans second

/-- The guest's port in the answer is the one the connection is filed under. -/
theorem handleCreditRequest (keyed : Keyed inner) :
    Does extra inner (inner.handleCreditRequest key) := by
  unfold Inner.handleCreditRequest
  cases found : inner.conns.lookup key with
  | none => exact nothing
  | some conn =>
    rw [modify_present found]
    have reported : Does extra inner (inner.set key { conn with unreported := 0 }) :=
      edit found ⟨rfl, rfl, rfl, rfl, rfl, rfl, id, id⟩ ⟨rfl, rfl, rfl, id⟩
    have port : conn.guestPort = key.2 := keyed key conn found
    have stands := lookup_set_self inner key { conn with unreported := 0 }
    refine reported.trans (answer stands ?_ ?_ rfl)
    · simp [Packet.key, port]
    · simp [Bare]

variable (packet : Packet)

/-- An accepted request opens the connection; the rest is routine. -/
theorem handleRequest_after (now : Nat) {next : Inner}
    (accepted : inner.offer key.1 key = (next, true)) :
    Does extra (next.apply (.insert key key.2 .established now))
      (inner.handleRequest key packet now) := by
  unfold Inner.handleRequest
  simp only [accepted, if_true]
  refine (insert_after key key.2 .established now).trans ?_
  have stands := lookup_insert_self next key key.2 .established now
  rw [modify_present stands, insert_conn]
  rw [insert_conn] at stands
  refine (edit stands ?_ ?_).trans (answer (lookup_set_self _ key _) rfl ?_ rfl)
  · exact ⟨rfl, rfl, rfl, rfl, rfl, rfl, id, id⟩
  · exact ⟨rfl, rfl, rfl, id⟩
  · simp [Bare]

theorem handleRequest (now : Nat)
    (opens : extra (.insert key key.2 .established now)) (resets : Resets extra key) :
    Does extra inner (inner.handleRequest key packet now) := by
  have offered : Does extra inner (inner.offer key.1 key).1 := offer key.1 key
  cases outcome : inner.offer key.1 key with
  | mk next accepted =>
    rw [outcome] at offered
    refine offered.trans ?_
    cases accepted with
    | false =>
      simp only [Inner.handleRequest, outcome]
      exact refuse _ _ resets
    | true =>
      exact (special (.insert key key.2 .established now) rfl opens).trans
        (handleRequest_after key packet now outcome)

/-- One packet from the guest. -/
theorem handle (now : Nat) (keyed : Keyed inner)
    (drops : packet.op = .shutdown → extra (.dropInput (guestKey packet)))
    (feeds : packet.op = .rw → extra (.arrive (guestKey packet) packet.payload))
    (opens : packet.op = .request →
      extra (.insert (guestKey packet) (guestKey packet).2 .established now))
    (edits : packet.op = .shutdown ∨ packet.op = .rw →
      ∀ conn, extra (.edit (guestKey packet) conn))
    (removes : packet.op = .rst ∨ packet.op = .shutdown → extra (.remove (guestKey packet)))
    (resets : packet.op = .shutdown ∨ packet.op = .rw ∨ packet.op = .request →
      Resets extra (guestKey packet)) : Does extra inner (inner.handle packet now) := by
  have heard : Does extra inner (inner.observe (guestKey packet) packet) :=
    observe (guestKey packet) packet
  have filed : Keyed (inner.observe (guestKey packet) packet) :=
    heard.invariant Keyed (fun _ _ keyed sound => keyed_apply keyed sound.1) keyed
  refine heard.trans ?_
  unfold Inner.handle
  cases kind : packet.op with
  | invalid => exact nothing
  | creditUpdate => exact nothing
  | rst => exact remove _ (removes (Or.inl kind))
  | response => exact handleResponse _
  | shutdown =>
    exact handleShutdown _ _ (drops kind) (edits (Or.inl kind)) (removes (Or.inr kind))
      (resets (Or.inl kind))
  | rw => exact handleRw _ _ (feeds kind) (edits (Or.inr kind)) (resets (Or.inr (Or.inl kind)))
  | creditRequest => exact handleCreditRequest _ filed
  | request => exact handleRequest _ _ _ (opens kind) (resets (Or.inr (Or.inr kind)))

end Does

namespace Inner

/-- A connection after a packet's credit was heard. -/
def heard (conn : Conn) (packet : Packet) : Conn :=
  { conn with credit := conn.credit.observe packet.bufAlloc packet.fwdCnt }

variable (conn : Conn)

theorem heard_kept (packet : Packet) : Kept conn (heard conn packet) :=
  ⟨rfl, rfl, rfl, rfl, rfl, rfl, id, id⟩

theorem observe_present {conn : Conn} (found : inner.conns.lookup key = some conn)
    (packet : Packet) :
    inner.observe key packet = (inner.set key (heard conn packet)).touch key := by
  unfold observe
  simp only [found]
  rw [modify_present found]
  rfl

@[simp] theorem outbox_touch (inner : Inner) (key : ConnKey) :
    (inner.touch key).outbox = inner.outbox := by
  rw [touch_eq]
  rfl

theorem observe_heard {conn : Conn} (found : inner.conns.lookup key = some conn)
    (packet : Packet) : (inner.observe key packet).conns.lookup key = some (heard conn packet) ∧
      (inner.observe key packet).outbox = inner.outbox := by
  rw [observe_present found, conns_touch]
  exact ⟨lookup_set_self _ _ _, outbox_touch _ _⟩

theorem countIn_kept (len now : Nat) : Kept conn (countIn conn len now) := by
  simp only [countIn]
  split <;> exact ⟨rfl, rfl, rfl, rfl, rfl, rfl, id, id⟩

theorem countIn_state (len now : Nat) : (countIn conn len now).state = conn.state := by
  simp only [countIn]
  split <;> rfl

/-- The connection a payload in the guest's buffers leaves before it is queued. -/
def counted (conn : Conn) (packet : Packet) (spans : List (Nat × Nat)) (now : Nat) : Conn :=
  countIn (heard conn packet) (spans.map Prod.snd).sum now

theorem counted_kept (packet : Packet) (spans : List (Nat × Nat)) (now : Nat) :
    Kept conn (counted conn packet spans now) := by
  have first := heard_kept conn packet
  have second := countIn_kept (heard conn packet) (spans.map Prod.snd).sum now
  exact ⟨second.guestPort.trans first.guestPort, second.outbound.trans first.outbound,
    second.held.trans first.held, second.id.trans first.id, second.window.trans first.window,
    second.fwdCnt.trans first.fwdCnt, fun was => second.closed (first.closed was),
    fun was => second.receiveClosed (first.receiveClosed was)⟩

/-- What becomes of a payload in the guest's buffers: refused without a connection,
dropped by a closed one, and otherwise held under both limits or copied out. -/
theorem handleGuestRw_cases (settings : Settings) (memory : GuestMemory) (inner : Inner)
    (packet : Packet) (head : UInt16) (spans : List (Nat × Nat)) (now : Nat) :
    (inner.conns.lookup (guestKey packet) = none ∧
      inner.handleGuestRw settings memory packet head spans now =
        (inner.refuse (guestKey packet).1 (guestKey packet).2, false)) ∨
    ∃ conn, inner.conns.lookup (guestKey packet) = some conn ∧
      ((conn.state = .closed ∧
        inner.handleGuestRw settings memory packet head spans now =
          ((inner.set (guestKey packet) (heard conn packet)).touch (guestKey packet), false)) ∨
      (conn.state ≠ .closed ∧ conn.held < inner.txLimits.2 ∧ inner.held < inner.txLimits.1 ∧
        inner.handleGuestRw settings memory packet head spans now =
          (((inner.set (guestKey packet) (counted conn packet spans now)).apply
            (.hold (guestKey packet) head spans)).touch (guestKey packet), true)) ∨
      (conn.state ≠ .closed ∧
        inner.handleGuestRw settings memory packet head spans now =
          (((inner.set (guestKey packet) (counted conn packet spans now)).apply
            (.arrive (guestKey packet) (copyOut memory spans))).touch (guestKey packet),
            false))) := by
  unfold handleGuestRw
  generalize guestKey packet = key
  simp only
  cases found : inner.conns.lookup key with
  | none => exact Or.inl ⟨rfl, rfl⟩
  | some conn =>
    refine Or.inr ⟨conn, rfl, ?_⟩
    have stands := lookup_set_self inner key (counted conn packet spans now)
    simp only
    split
    · next closed =>
      rw [modify_present found]
      exact Or.inl ⟨closed, rfl⟩
    next living =>
    refine Or.inr ?_
    rw [modify_present found, modify_present found]
    split
    · next room =>
      simp only [Bool.and_eq_true, decide_eq_true_eq] at room
      have share : conn.held < inner.txLimits.2 :=
        (counted_kept conn packet spans now).held ▸ room.1.2
      refine Or.inl ⟨living, share, room.2, ?_⟩
      rw [apply, onConn_present stands, set_set]
      rfl
    · refine Or.inr ⟨living, ?_⟩
      rw [apply, onConn_present stands, set_set]
      rfl

/-- A take either finds a queue and moves all of it out, or changes nothing. -/
theorem tryTakeOutbound_cases (inner : Inner) (key : ConnKey) :
    (∃ conn, inner.conns.lookup key = some conn ∧
      inner.tryTakeOutbound key =
        (inner.apply (.leave key [] [] (heads conn.outbound)), .chunks conn.outbound)) ∨
    ((inner.tryTakeOutbound key).1 = inner ∧
      ∀ chunks, (inner.tryTakeOutbound key).2 ≠ .chunks chunks) := by
  unfold tryTakeOutbound
  cases found : inner.conns.lookup key with
  | none => exact Or.inr ⟨rfl, fun _ same => by cases same⟩
  | some conn =>
    simp only
    split
    · refine Or.inl ⟨conn, rfl, ?_⟩
      rw [modify_present found, apply, onConn_present found]
      simp [set]
    · grind

end Inner

namespace Does

variable (settings : Settings)

/-- A payload in the guest's buffers: held, copied out, or dropped. -/
theorem handleGuestRw (memory : GuestMemory) (packet : Packet)
    (head : UInt16) (spans : List (Nat × Nat)) (now : Nat)
    (holds : extra (.hold (guestKey packet) head spans))
    (feeds : extra (.arrive (guestKey packet) (Inner.copyOut memory spans)))
    (counts : ∀ conn, extra (.edit (guestKey packet) conn))
    (resets : Resets extra (guestKey packet)) :
    Does extra inner (inner.handleGuestRw settings memory packet head spans now).1 := by
  rcases handleGuestRw_cases settings memory inner packet head spans now with
    ⟨_, outcome⟩ | ⟨conn, found, outcome⟩
  · rw [outcome]
    exact refuse _ _ resets
  have stands := lookup_set_self inner (guestKey packet) (Inner.counted conn packet spans now)
  have kept := counted_kept conn packet spans now
  have alive (living : conn.state ≠ .closed) :
      (Inner.counted conn packet spans now).state ≠ .closed := by
    rw [Inner.counted, countIn_state]
    exact living
  rcases outcome with ⟨_, outcome⟩ | ⟨living, share, ring, outcome⟩ | ⟨living, outcome⟩
  · rw [outcome]
    exact (edit found (heard_kept conn packet) ⟨rfl, rfl, rfl, id⟩).trans (touch _)
  · rw [outcome]
    refine (change found kept (counts _)).trans ((special _ ?_ holds).trans (touch _))
    exact ⟨_, stands, alive living, kept.held ▸ share, ring⟩
  · rw [outcome]
    refine (change found kept (counts _)).trans ((special _ ?_ feeds).trans (touch _))
    exact ⟨_, stands, alive living⟩

/-- The port is drawn, then the connection opened; the rest is routine. -/
theorem openConn_after (guestPort : UInt32) (now : Nat) :
    Does extra (apply { inner with nextPort := max (inner.nextPort + 1) firstEphemeralPort }
      (.insert (inner.nextPort, guestPort) guestPort .connecting now))
      (inner.openConn guestPort now).1 := by
  refine (insert_after _ guestPort .connecting now).trans ?_
  have stands := lookup_insert_self
    { inner with nextPort := max (inner.nextPort + 1) firstEphemeralPort }
    (inner.nextPort, guestPort) guestPort .connecting now
  refine answer stands rfl ?_ ?_
  · simp [Bare]
  · simp [Conn.new, Credit.new]

theorem openConn (guestPort : UInt32) (now : Nat)
    (opens : extra (.insert (inner.nextPort, guestPort) guestPort .connecting now)) :
    Does extra inner (inner.openConn guestPort now).1 := by
  have ported : Does extra inner
      { inner with nextPort := max (inner.nextPort + 1) firstEphemeralPort } :=
    aside { inner.aside with nextPort := max (inner.nextPort + 1) firstEphemeralPort }
  exact ported.trans ((special (.insert (inner.nextPort, guestPort) guestPort .connecting now)
    rfl opens).trans (openConn_after guestPort now))

theorem listen (hostPort : UInt32) : Does extra inner (inner.listen hostPort) :=
  aside { inner.aside with listeners := _ }

theorem hangUp (hostPort : UInt32) : Does extra inner (inner.hangUp hostPort) := by
  unfold Inner.hangUp
  cases inner.listeners.lookup hostPort with
  | none => exact nothing
  | some listener => exact aside { inner.aside with listeners := _ }

section

variable (key) (sends : ∀ payload, extra (.send key payload))
include sends

/-- Every packet of a send is the connection's own, with the window and the count
it had when the loop began: sending changes neither. -/
theorem sendLoop (room allowed : Nat) (data : List UInt8) {conn : Conn}
    (found : inner.conns.lookup key = some conn) (receiving : conn.guestReceiveClosed = false) :
    Does extra inner
      (Inner.sendLoop key conn.window conn.credit.fwdCnt room allowed data inner).1 := by
  set count := min (min allowed maxPayload) data.length
  induction room generalizing inner conn allowed data with
  | zero => exact nothing
  | succ room ih =>
    rw [Inner.sendLoop]
    split
    · exact nothing
    simp only
    have fits : (data.take count).length ≤
        maxPayload := by
      rw [List.length_take]
      omega
    generalize data.take count = payload at fits ⊢
    let sent : Conn := { conn with credit := conn.credit.sent (UInt32.ofNat payload.length) }
    have first := special (.send key payload) ⟨conn, found, receiving, fits⟩ (sends payload)
    rw [apply, onConn_present found] at first
    refine first.trans ?_
    have stands : (inner.sendPacket key conn.window conn.credit.fwdCnt payload).conns.lookup
        key = some sent := by
      rw [sendPacket_present found]
      exact lookup_set_self _ key sent
    have rest := ih (allowed - min (min allowed maxPayload) data.length)
      (data.drop count) stands receiving
    exact rest

variable (data : List UInt8)

theorem trySend : Does extra inner (inner.trySend key data).1 := by
  unfold Inner.trySend
  cases found : inner.conns.lookup key with
  | none => exact nothing
  | some conn =>
    simp only
    split
    · exact nothing
    next receiving =>
    cases conn.state with
    | connecting => exact nothing
    | closed => exact nothing
    | established => exact sendLoop key sends _ _ _ found (by simpa using receiving)

theorem sendOwnedPiece (fits : data.length ≤ maxPayload) :
    Does extra inner (inner.sendOwnedPiece key data).1 := by
  unfold Inner.sendOwnedPiece
  cases found : inner.conns.lookup key with
  | none => exact nothing
  | some conn =>
    simp only
    split
    · exact nothing
    next receiving =>
    cases conn.state with
    | connecting => exact nothing
    | closed => exact nothing
    | established =>
      simp only
      split
      · exact nothing
      have first := special (.send key (data.take conn.credit.available.toNat))
        ⟨conn, found, by simpa using receiving, by
          rw [List.length_take]
          omega⟩ (sends _)
      rwa [apply, onConn_present found] at first

theorem trySendOwned : Does extra inner (inner.trySendOwned key data).1 := by
  unfold Inner.trySendOwned
  split
  · have piece : Does extra inner (inner.sendOwnedPiece key (data.take maxPayload)).1 :=
      sendOwnedPiece key sends _ (by simp)
    generalize inner.sendOwnedPiece key (data.take maxPayload) = outcome at piece
    obtain ⟨after, result⟩ := outcome
    rcases result with refusal | _ | unsent <;> exact piece
  · next small => exact sendOwnedPiece key sends data (Nat.le_of_not_lt small)

theorem sendPass : Does extra inner (inner.sendPass key data).1 := by
  unfold Inner.sendPass
  cases found : inner.conns.lookup key with
  | none => exact nothing
  | some conn =>
    simp only
    split
    · exact nothing
    next ready =>
    split
    · exact nothing
    · exact sendLoop key sends _ _ _ found (by
        simpa using (not_or.mp ready).2)

end

/-- A take moves every chain of the queue into the writer's hands. -/
theorem tryTakeOutbound (key : ConnKey) (takes : ∀ taken, extra (.leave key [] [] taken)) :
    Does extra inner (inner.tryTakeOutbound key).1 := by
  rcases inner.tryTakeOutbound_cases key with ⟨conn, found, outcome⟩ | ⟨same, _⟩
  · rw [outcome]
    refine special (.leave key [] [] (heads conn.outbound)) ?_ (takes _)
    exact ⟨conn, found, by simp [heads]⟩
  · rw [same]
    exact nothing

/-- A read finishes with the chains it took from. -/
theorem leave {conn : Conn} (found : inner.conns.lookup key = some conn)
    (memory : Option GuestMemory) (want : Nat)
    (leaves : ∀ left finished, extra (.leave key left finished [])) :
    Does extra inner (inner.leave key (readChunks memory want conn.outbound).2.1
      (readChunks memory want conn.outbound).2.2) := by
  have split := heads_readChunks memory want conn.outbound
  have left := special (.leave key (readChunks memory want conn.outbound).2.1
    (readChunks memory want conn.outbound).2.2 [])
    ⟨conn, found, by simpa using split⟩ (leaves _ _)
  rw [apply, onConn_present found] at left
  rw [Inner.leave, modify_present found]
  exact left

variable (memory : Option GuestMemory) (key : ConnKey)

theorem tryReadOutbound (want : Nat)
    (leaves : ∀ left finished, extra (.leave key left finished [])) :
    Does extra inner (inner.tryReadOutbound memory key want).1 := by
  unfold Inner.tryReadOutbound
  cases found : inner.conns.lookup key with
  | none => exact nothing
  | some conn =>
    simp only
    split
    · split <;> exact nothing
    · exact leave found memory want leaves

theorem readExactPass (want : Nat)
    (out : List UInt8) (leaves : ∀ left finished, extra (.leave key left finished [])) :
    Does extra inner (inner.readExactPass memory key want out).1 := by
  unfold Inner.readExactPass
  cases found : inner.conns.lookup key with
  | none => exact nothing
  | some conn =>
    have taken : Does extra inner (inner.leave key
        (readChunks memory (want - out.length) conn.outbound).2.1
        (readChunks memory (want - out.length) conn.outbound).2.2) :=
      leave found memory (want - out.length) leaves
    simp only
    split_ifs <;> exact taken

/-- Once the count has advanced, an acknowledgement finishes a close, waits for
more, or grows the window and tells the guest. -/
theorem acknowledge_after (bytes : UInt32) (now : Nat)
    (removes : extra (.remove key)) (resets : Resets extra key) :
    Does extra (inner.apply (.consume key bytes)) (inner.acknowledge settings key bytes now) := by
  unfold Inner.acknowledge
  simp only [apply]
  cases found : inner.conns.lookup key with
  | none =>
    rw [onConn_absent found]
    exact nothing
  | some conn =>
    rw [onConn_present found]
    let consumed : Conn := { conn with credit := conn.credit.consumed bytes }
    let drained : Conn := { consumed with drained := if bytes > 0 then now else conn.drained }
    let counted : Conn := { drained with unreported := Fixed.saturatingAdd conn.unreported bytes }
    let reported : Conn := { counted with unreported := 0 }
    have edits {before after : Conn} (kept : Kept before after) (still : Still before after) :
        Does extra (inner.set key before) (inner.set key after) := by
      have one : Does extra (inner.set key before) ((inner.set key before).set key after) :=
        edit (lookup_set_self inner key before) kept still
      rwa [set_set] at one
    have draining : Does extra (inner.set key consumed) (inner.set key drained) :=
      edits ⟨rfl, rfl, rfl, rfl, rfl, rfl, id, id⟩ ⟨rfl, rfl, rfl, id⟩
    have counting : Does extra (inner.set key consumed) (inner.set key counted) :=
      draining.trans (edits ⟨rfl, rfl, rfl, rfl, rfl, rfl, id, id⟩ ⟨rfl, rfl, rfl, id⟩)
    simp only
    split
    · rw [modify_present found]
      exact draining.trans (finishShutdown key removes resets)
    split
    · rw [modify_present found]
      exact counting
    have reporting : Does extra (inner.set key consumed) (inner.set key reported) :=
      counting.trans (edits ⟨rfl, rfl, rfl, rfl, rfl, rfl, id, id⟩ ⟨rfl, rfl, rfl, id⟩)
    have stands := lookup_set_self inner key reported
    have growing : Does extra (inner.set key reported)
        ((inner.set key reported).apply (.grow key)) :=
      one _ ⟨trivial, Or.inl trivial⟩
    rw [apply, onConn_present stands, set_set] at growing
    rw [modify_present found]
    refine reporting.trans (growing.trans (answer (lookup_set_self inner key _) rfl ?_ rfl))
    simp [Bare]

theorem acknowledge (bytes : UInt32) (now : Nat)
    (consumes : extra (.consume key bytes)) (removes : extra (.remove key))
    (resets : Resets extra key) : Does extra inner (inner.acknowledge settings key bytes now) :=
  (special (.consume key bytes) trivial consumes).trans
    (acknowledge_after settings key bytes now removes resets)

theorem shutdownWrite (closes : extra (.halfClose key)) :
    Does extra inner (inner.shutdownWrite key) := by
  unfold Inner.shutdownWrite
  cases found : inner.conns.lookup key with
  | none => exact nothing
  | some conn =>
    simp only
    split
    · exact nothing
    · next receiving =>
      have closing := special (.halfClose key) ⟨conn, found, by simpa using receiving⟩ closes
      rwa [apply, onConn_present found] at closing

/-- Our own close: the connection is closed before its queue is dropped. -/
theorem shutdown (now : Nat) (closes : ∀ conn, extra (.edit key conn)) :
    Does extra inner (inner.shutdown key now) := by
  unfold Inner.shutdown
  cases found : inner.conns.lookup key with
  | none => exact nothing
  | some conn =>
    let closed : Conn := { conn with
      state := .closed
      since := if conn.state = .closed then conn.since else now }
    have closing : Does extra inner (inner.set key closed) :=
      change found ⟨rfl, rfl, rfl, rfl, rfl, rfl, fun _ => rfl, id⟩ (closes _)
    have stands := lookup_set_self inner key closed
    have emptied : Does extra (inner.set key closed)
        ((inner.set key closed).apply (.leave key [] (heads conn.outbound) [])) :=
      one _ ⟨⟨closed, stands, by simp [closed, heads]⟩, Or.inl ⟨rfl, rfl, closed, stands, rfl⟩⟩
    rw [apply, onConn_present stands, set_set] at emptied
    rw [modify_present found]
    let empty : Conn := { closed with outbound := [] }
    change Does extra inner (((((inner.set key empty).touch key).discard conn.outbound)).queue _)
    rw [touch_discard]
    have still : ((((inner.set key empty).discard conn.outbound).touch key).conns.lookup key) =
        some empty := by
      rw [conns_touch]
      exact lookup_set_self inner key empty
    refine closing.trans (emptied.trans ((touch key).trans (answer still rfl ?_ rfl)))
    simp [Bare]

theorem abandon (removes : extra (.remove key)) (resets : Resets extra key) :
    Does extra inner (inner.abandon key) := by
  have removed : Does extra inner (inner.remove key).1 := remove key removes
  unfold Inner.abandon
  generalize inner.remove key = outcome at removed
  obtain ⟨after, found⟩ := outcome
  cases found with
  | false => exact removed
  | true => exact removed.trans (reset rfl rfl (resets _ rfl rfl))

theorem label (label : String) : Does extra inner (inner.label key label) :=
  modify (fun _ => ⟨rfl, rfl, rfl, rfl, rfl, rfl, id, id⟩) fun _ => ⟨rfl, rfl, rfl, id⟩

theorem takeTouched : Does extra inner inner.takeTouched.1 := by
  unfold Inner.takeTouched
  split
  · exact aside { inner.aside with touched := [], touchedAll := false }
  · exact aside { inner.aside with touched := [] }

theorem expire (key : ConnKey) (closed : Bool) (removes : extra (.remove key))
    (resets : Resets extra key) : Does extra inner (inner.expire key closed) := by
  have removed : Does extra inner ((inner.queue (Inner.resetPacket key)).remove key).1 :=
    (reset rfl rfl (resets _ rfl rfl)).trans (remove key removes)
  exact removed.trans (aside { Inner.aside _ with warden := _ })

theorem cutWindow (key : ConnKey) (stalled : Bool) :
    Does extra inner (inner.cutWindow key stalled) := by
  unfold Inner.cutWindow
  cases found : inner.conns.lookup key with
  | none => exact nothing
  | some conn =>
    have shrinking : Does extra inner (inner.apply (.shrink key)) :=
      Reaches.one _ ⟨trivial, Or.inl trivial⟩
    rw [Inner.apply, onConn_present found] at shrinking
    simp only
    rw [modify_present found]
    refine shrinking.trans ((aside { Inner.aside _ with warden := _ }).trans
      (answer (lookup_set_self inner key _) rfl ?_ rfl))
    simp [Bare]

theorem watch (now : Nat) (order : List ConnKey) (removes : ∀ key, extra (.remove key))
    (resets : ∀ key, Resets extra key) : Does extra inner (inner.watch now order) := by
  unfold Inner.watch
  split
  · exact aside { inner.aside with ringFullSince := none }
  simp only
  have timed : Does extra inner
      { inner with ringFullSince := some (inner.ringFullSince.getD now) } :=
    aside { inner.aside with ringFullSince := some (inner.ringFullSince.getD now) }
  refine timed.trans ?_
  split
  · cases Inner.worst _ order with
    | none => exact nothing
    | some found =>
      refine Reaches.trans ?_ (aside { Inner.aside _ with
        warden := _, ringFullSince := none })
      exact (reset rfl rfl (resets _ _ rfl rfl)).trans (remove found.1 (removes _))
  · exact nothing

theorem sweep (now : Nat) (order : List ConnKey) (removes : ∀ key, extra (.remove key))
    (resets : ∀ key, Resets extra key) : Does extra inner (inner.sweep now order) := by
  refine (each Inner.endOne ?_ _).trans
    ((each Inner.cutOne ?_ _).trans (watch now order removes resets))
  · intro state entry
    unfold Inner.endOne
    split
    · exact expire _ _ (removes _) (resets _)
    · exact expire _ _ (removes _) (resets _)
    · exact nothing
  · intro state entry
    unfold Inner.cutOne
    split
    · exact cutWindow _ _
    · exact nothing

end Does

/-- A chain without room for more than a header takes no packet. -/
theorem Inner.rx_eq (inner : Inner) (memory : GuestMemory) (chain : Chain) :
    inner.rx memory chain =
      if Device.capacity chain ≤ hdrLen then inner
      else inner.deliverNext (Device.capacity chain - hdrLen) := by
  unfold Inner.rx Inner.deliverNext
  rw [Device.drainRx]
  cases popped : inner.outbox.popFront with
  | none => simp
  | some pair =>
    simp only [Device.drainRx, Device.fillRx, popped]
    split_ifs <;> rfl

variable (settings : Settings)

/-- Every section makes sound moves, and beyond the routine only those it names. -/
theorem step_does (inner : Inner) (keyed : Keyed inner) (act : Act) :
    Does act.extra inner (step settings inner act) := by
  cases act with
  | openConn guestPort now => exact Does.openConn guestPort now rfl
  | listen hostPort => exact Does.listen hostPort
  | hangUp hostPort => exact Does.hangUp hostPort
  | handle packet now =>
    exact Does.handle packet now keyed (fun kind => ⟨kind, rfl⟩) (fun kind => ⟨kind, rfl, rfl⟩)
      (fun kind => ⟨kind, rfl⟩) (fun kind _ => ⟨kind, rfl⟩) (fun kind => ⟨kind, rfl⟩)
      fun kind _ rst filed => ⟨kind, rst, filed⟩
  | guestRw memory packet head spans now =>
    exact Does.handleGuestRw settings memory packet head spans now ⟨rfl, rfl, rfl⟩ ⟨rfl, rfl⟩
      (fun _ => rfl) fun _ rst filed => ⟨rst, filed⟩
  | trySend key data => exact Does.trySend key (fun _ => rfl) data
  | trySendOwned key data => exact Does.trySendOwned key (fun _ => rfl) data
  | sendPass key data => exact Does.sendPass key (fun _ => rfl) data
  | take key => exact Does.tryTakeOutbound key fun _ => ⟨rfl, rfl, rfl⟩
  | read memory key want => exact Does.tryReadOutbound memory key want fun _ _ => ⟨rfl, rfl⟩
  | readExact memory key want out =>
    exact Does.readExactPass memory key want out fun _ _ => ⟨rfl, rfl⟩
  | complete heads => exact Does.special (.complete heads) trivial rfl
  | acknowledge key bytes now =>
    exact Does.acknowledge settings key bytes now ⟨rfl, rfl⟩ rfl fun _ rst filed => ⟨rst, filed⟩
  | shutdownWrite key => exact Does.shutdownWrite key rfl
  | shutdown key now => exact Does.shutdown key now fun _ => rfl
  | abandon key => exact Does.abandon key rfl fun _ rst filed => ⟨rst, filed⟩
  | label key label => exact Does.label key label
  | sweep now order =>
    exact Does.sweep now order (fun _ => trivial) fun _ _ rst _ => rst
  | takeTouched => exact Does.takeTouched
  | finishDone now => exact Does.special (.finish now) trivial rfl
  | rx memory chain =>
    rw [step, rx_eq]
    split
    · exact Does.nothing
    · exact Does.special (.deliver _) trivial trivial
  | reset => exact Does.special .reset trivial trivial

/-- Every section keeps the connections filed. -/
theorem step_keyed (inner : Inner) (keyed : Keyed inner) (act : Act) :
    Keyed (step settings inner act) :=
  (step_does settings inner keyed act).invariant Keyed
    (fun _ _ keyed legal => keyed_apply keyed legal.1) keyed

/-- Every section keeps the connections numbered, and gives identities out in order. -/
theorem step_numbered (inner : Inner) (keyed : Keyed inner)
    (numbered : Numbered inner) (act : Act) :
    Numbered (step settings inner act) ∧ inner.nextId ≤ (step settings inner act).nextId := by
  refine (step_does settings inner keyed act).invariant
    (fun state => Numbered state ∧ inner.nextId ≤ state.nextId) ?_ ⟨numbered, Nat.le_refl _⟩
  intro state move ⟨before, grown⟩ ⟨sound, _⟩
  exact ⟨numbered_apply before sound, grown.trans (nextId_apply sound)⟩

/-- Every section keeps the packets in their lanes. -/
theorem step_sorted (inner : Inner) (keyed : Keyed inner)
    (sorted : inner.outbox.Sorted) (act : Act) : (step settings inner act).outbox.Sorted :=
  (step_does settings inner keyed act).invariant (fun state => state.outbox.Sorted)
    (fun _ _ before legal => sorted_apply before legal.1) sorted

/-- A transmit entry as an act. -/
def Device.entryAct (memory : GuestMemory) (now : Nat) (entry : TxEntry) : Act :=
  match entry.2 with
  | some (head, spans) => .guestRw memory entry.1 head spans now
  | none => .handle entry.1 now

end Lighter.Vsock
