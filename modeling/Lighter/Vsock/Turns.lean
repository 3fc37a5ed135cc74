import Lighter.Vsock.Sections

/-!
# What a section does for one connection

Seen from one key, a section other than a delivery either carries the connection
on or opens a new one. It keeps what waits for the connection, except that the
guest may close its receive side and the device may be reset, and it queues
fresh packets behind that. `step_turn` says so for every section: what becomes
of the connection and its count, which bytes a sender was told are accepted, and
what the fresh packets tell the guest.
-/

namespace Lighter.Vsock

open Packet Transition List Vsock.Inner

/-- The bytes of a stream that a packet carries. -/
def streamed (packet : Packet) : List UInt8 :=
  if packet.op = .rw then packet.payload else []

theorem Bare.streamed {packet : Packet} (bare : Bare packet) : streamed packet = [] :=
  if_neg bare.1

namespace Move

/-- Opening a connection under a key, or advancing its count. -/
def renews (key : ConnKey) : Move → Bool
  | .consume other _ | .insert other _ _ _ => other = key
  | _ => false

/-- Changing what waits for a key other than by queueing a packet of the protocol. -/
def disturbs (key : ConnKey) : Move → Bool
  | .send other _ | .halfClose other | .dropInput other => other = key
  | .deliver _ | .reset => true
  | _ => false

end Move

variable {inner before after : Inner} {key : ConnKey} {move : Move} {act : Act}

/-- The connection under a key, if there is one, is the one that was there, with
the same count. -/
def Carries (key : ConnKey) (before after : Inner) : Prop :=
  ∀ later, after.conns.lookup key = some later →
    ∃ earlier, before.conns.lookup key = some earlier ∧ later.id = earlier.id ∧
      later.credit.fwdCnt = earlier.credit.fwdCnt ∧
      (earlier.guestReceiveClosed = true → later.guestReceiveClosed = true)

theorem Carries.refl (key : ConnKey) (inner : Inner) : Carries key inner inner :=
  fun later found => ⟨later, found, rfl, rfl, fun was => was⟩

theorem Carries.trans {middle : Inner} (first : Carries key before middle)
    (second : Carries key middle after) : Carries key before after := by
  intro later found
  obtain ⟨between, present, id, count, closed⟩ := second later found
  obtain ⟨prior, start, sameId, sameCount, stays⟩ := first between present
  exact ⟨prior, start, id.trans sameId, count.trans sameCount, fun was => closed (stays was)⟩

theorem Inner.apply_carries (sound : Sound inner move) (kept : move.renews key = false) :
    Carries key inner (inner.apply move) := by
  intro later found
  rcases lookup_apply sound key later found with ⟨prior, present, descends⟩ | opened
  · have idle : move.consumed key = 0 := by
      cases move with
      | consume other bytes =>
        have apart : other ≠ key := by simpa [Move.renews] using kept
        exact if_neg (Ne.symm apart)
      | _ => rfl
    refine ⟨prior, present, descends.id, ?_, descends.receiveClosed⟩
    rw [descends.fwdCnt, idle, UInt32.add_zero]
  · grind [Move.renews]

/-- A packet of the protocol that a connection's state answers for: a reset, or one
that carries the connection's count. -/
def Tells (inner : Inner) (key : ConnKey) (packet : Packet) : Prop :=
  Bare packet ∧ (packet.op = .rst ∨ ∃ conn, inner.conns.lookup key = some conn ∧
    packet.fwdCnt = conn.credit.fwdCnt)

theorem Tells.earlier {packet : Packet} (carries : Carries key before after)
    (tells : Tells after key packet) : Tells before key packet := by
  obtain ⟨bare, reset | ⟨conn, found, count⟩⟩ := tells
  · exact ⟨bare, Or.inl reset⟩
  · obtain ⟨prior, start, _, same, _⟩ := carries conn found
    exact ⟨bare, Or.inr ⟨prior, start, count.trans same⟩⟩

/-- What waits for a key after a calm move: what waited, and at most a packet that
tells the guest how the connection stands. -/
theorem Inner.pending_apply (sound : Sound inner move) (calm : move.disturbs key = false)
    (sorted : inner.outbox.Sorted) :
    ∃ fresh, (inner.apply move).outbox.pending key = inner.outbox.pending key ++ fresh ∧
      ∀ packet ∈ fresh, Tells inner key packet := by
  have still {state : Inner} (same : state.outbox.pending key = inner.outbox.pending key) :
      ∃ fresh, state.outbox.pending key = inner.outbox.pending key ++ fresh ∧
        ∀ packet ∈ fresh, Tells inner key packet := by
    rw [same]
    exact ⟨[], by simp, by simp⟩
  have elsewhere (packet : Packet) (apart : packet.key ≠ key) {state : Inner}
      (queued : state.outbox = inner.outbox.pushBack packet) :
      state.outbox.pending key = inner.outbox.pending key := by
    rw [queued, Outbox.pending_pushBack _ _ _ sorted, if_neg apart, append_nil]
  cases move with
  | queue packet =>
    obtain ⟨bare, tells⟩ := sound
    refine ⟨_, Outbox.pending_pushBack _ _ _ sorted, ?_⟩
    intro other member
    by_cases mine : packet.key = key
    · rw [if_pos mine, mem_singleton] at member
      subst member
      exact ⟨bare, mine ▸ tells⟩
    · simp [mine] at member
  | send other payload =>
    obtain ⟨conn, found, _⟩ := sound
    have apart : other ≠ key := by simpa [Move.disturbs] using calm
    refine still (elsewhere (rwPacket other conn.window conn.credit.fwdCnt payload) apart ?_)
    rw [apply, onConn_present found, sendPacket_present found]
    rfl
  | halfClose other =>
    obtain ⟨conn, found, _⟩ := sound
    have apart : other ≠ key := by simpa [Move.disturbs] using calm
    refine still (elsewhere (halfClosePacket other conn) apart ?_)
    rw [apply, onConn_present found]
    rfl
  | dropInput other =>
    have apart : other ≠ key := by simpa [Move.disturbs] using calm
    refine still ?_
    simp only [apply, dropInput]
    rw [Outbox.pending_retain]
    apply filter_eq_self.mpr
    intro packet member
    have mine : packet.key = key := by
      simpa using (mem_filter.mp member).2
    have ports : ¬(packet.srcPort = other.1 ∧ packet.dstPort = other.2) := by
      rintro ⟨source, destination⟩
      exact apart (Prod.ext (source.symm.trans (congrArg Prod.fst mine))
        (destination.symm.trans (congrArg Prod.snd mine)))
    simp only [Bool.not_eq_true', Bool.and_eq_false_iff, beq_eq_false_iff_ne]
    by_cases source : packet.srcPort = other.1
    · grind
    · exact Or.inl (Or.inl source)
  | deliver room => cases calm
  | reset => cases calm
  | _ => exact still (congrArg (Outbox.pending · key) ((apply_frame sound).outbox rfl))

/-- A stretch of work that carries a connection on and queues nothing for it but
what tells the guest how it stands. -/
structure Continues (key : ConnKey) (before after : Inner) : Prop where
  sorted : after.outbox.Sorted
  carries : Carries key before after
  waiting : ∃ fresh, after.outbox.pending key = before.outbox.pending key ++ fresh ∧
    ∀ packet ∈ fresh, Tells before key packet

theorem Continues.refl (key : ConnKey) (sorted : inner.outbox.Sorted) :
    Continues key inner inner :=
  ⟨sorted, Carries.refl key inner, [], by simp, by simp⟩

theorem Continues.trans {middle : Inner} (first : Continues key before middle)
    (second : Continues key middle after) : Continues key before after := by
  refine ⟨second.sorted, first.carries.trans second.carries, ?_⟩
  obtain ⟨early, waited, told⟩ := first.waiting
  obtain ⟨late, waits, tells⟩ := second.waiting
  refine ⟨early ++ late, ?_, ?_⟩
  · rw [waits, waited, append_assoc]
  intro packet member
  rcases mem_append.mp member with sooner | later
  · exact told packet sooner
  · exact (tells packet later).earlier first.carries

/-- Moves that neither renew the connection nor disturb what waits for it. -/
def Calm (key : ConnKey) (extra : Move → Prop) : Prop :=
  ∀ move, extra move → move.renews key = false ∧ move.disturbs key = false

theorem Routine.calm (routine : Routine inner move) :
    move.renews key = false ∧ move.disturbs key = false := by
  cases move with
  | edit | aside | queue | grow | shrink | remove | leave => exact ⟨rfl, rfl⟩
  | consume | send | halfClose | dropInput | arrive | hold | complete | insert | finish
  | deliver | reset => exact routine.elim

theorem Does.continues {extra : Move → Prop} (does : Does extra before after)
    (calm : Calm key extra) (sorted : before.outbox.Sorted) : Continues key before after := by
  refine does.invariant (Continues key before) ?_ (Continues.refl key sorted)
  intro state move continues ⟨sound, legal⟩
  obtain ⟨kept, still⟩ := legal.elim Routine.calm (calm move)
  exact continues.trans ⟨sorted_apply continues.sorted sound,
    apply_carries sound kept, pending_apply sound still continues.sorted⟩

theorem endings_calm : Calm key endings := by
  intro move named
  cases move with
  | remove | queue => exact ⟨rfl, rfl⟩
  | _ => exact named.elim

theorem resets_endings (key : ConnKey) : Resets endings key := fun _ rst _ => rst

/-- A stretch of routine work, at the end of which connections may have ended. -/
theorem Does.routine (does : Does endings before after) (key : ConnKey)
    (sorted : before.outbox.Sorted) : Continues key before after :=
  does.continues endings_calm sorted

/-- The sections that may open a connection under a key, advance its count or
disturb what waits for it. -/
def Act.concerns (key : ConnKey) : Act → Bool
  | .openConn _ _ | .rx _ _ | .reset => true
  | .handle packet _ =>
      guestKey packet = key && (packet.op = .request || packet.op = .shutdown)
  | .trySend other _ | .trySendOwned other _ | .sendPass other _ | .acknowledge other _ _
  | .shutdownWrite other => other = key
  | _ => false

/-- Every other section is calm. -/
theorem Act.extra_calm (apart : act.concerns key = false) : Calm key act.extra := by
  intro move named
  cases move with
  | consume other bytes =>
    cases act with
    | acknowledge reader count now =>
      obtain ⟨rfl, _⟩ := named
      exact ⟨apart, rfl⟩
    | _ => exact named.elim
  | insert other guestPort state now =>
    cases act with
    | openConn => cases apart
    | handle packet now =>
      obtain ⟨kind, rfl⟩ := named
      simpa [Act.concerns, Move.renews, Move.disturbs, kind] using apart
    | _ => exact named.elim
  | send other payload =>
    cases act with
    | trySend sender data | trySendOwned sender data | sendPass sender data =>
      cases named
      exact ⟨rfl, apart⟩
    | _ => exact named.elim
  | halfClose other =>
    cases act with
    | shutdownWrite closing =>
      cases named
      exact ⟨rfl, apart⟩
    | _ => exact named.elim
  | dropInput other =>
    cases act with
    | handle packet now =>
      obtain ⟨kind, rfl⟩ := named
      simpa [Act.concerns, Move.renews, Move.disturbs, kind] using apart
    | _ => exact named.elim
  | deliver room =>
    cases act with
    | rx => cases apart
    | _ => exact named.elim
  | reset =>
    cases act with
    | reset => cases apart
    | _ => exact named.elim
  | edit | aside | queue | arrive | hold | leave | complete | grow | shrink | remove
  | finish => exact ⟨rfl, rfl⟩

/-- A guest's close of its receive side, which drops what the host queued. -/
def closesInput (inner : Inner) (key : ConnKey) (packet : Packet) : Bool :=
  packet.op = .shutdown && guestKey packet = key &&
    (inner.conns.lookup key).any fun conn =>
      (Inner.declareShutdown conn packet.flags).guestReceiveClosed

/-- The sections after which the host's input for a key is no longer delivered. -/
def closing (inner : Inner) (key : ConnKey) : Act → Bool
  | .reset => true
  | .handle packet _ => closesInput inner key packet
  | _ => false

/-- Whether a packet that waits for a key before a section still waits after it. -/
def keeps (inner : Inner) (key : ConnKey) : Act → Packet → Bool
  | .reset, _ => false
  | .handle packet _, waiting => !(closesInput inner key packet && waiting.op == .rw)
  | _, _ => true

/-- The bytes a sender is told are accepted for a key. -/
def accepts (inner : Inner) (key : ConnKey) : Act → List UInt8
  | .trySend other data =>
      if other = key then
        match (inner.trySend key data).2 with
        | .ok count => data.take count
        | .error _ => []
      else []
  | .trySendOwned other data =>
      if other = key then
        match (inner.trySendOwned key data).2 with
        | .ok none => data
        | .ok (some rest) => data.take (data.length - rest.length)
        | .error _ => []
      else []
  | .sendPass other data =>
      if other = key then
        match (inner.sendPass key data).2 with
        | .sent count => data.take count
        | _ => []
      else []
  | _ => []

/-- The bytes a section acknowledges on the connection under a key. -/
def acknowledged (inner : Inner) (key : ConnKey) : Act → Nat
  | .acknowledge reader bytes _ =>
      if reader = key ∧ (inner.conns.lookup key).isSome then bytes.toNat else 0
  | _ => 0

/-- A section seen from one key. -/
inductive Turn (inner : Inner) (key : ConnKey) (act : Act) (after : Inner) : Prop where
  /-- The connection, if there is one after, is the one before, its count advanced
  by what was acknowledged. -/
  | carried (fresh : List Packet)
      (waiting : after.outbox.pending key =
        (inner.outbox.pending key).filter (keeps inner key act) ++ fresh)
      (content : fresh.flatMap streamed = accepts inner key act)
      (told : ∀ packet ∈ fresh, packet.op = .rst ∨
        (act = .shutdownWrite key ∧ packet.fwdCnt = 0 ∧
          ∃ conn, inner.conns.lookup key = some conn ∧ conn.guestReceiveClosed = false) ∨
        ∃ conn, inner.conns.lookup key = some conn ∧
          packet.fwdCnt = conn.credit.fwdCnt + UInt32.ofNat (acknowledged inner key act))
      (count : ∀ later, after.conns.lookup key = some later →
        ∃ earlier, inner.conns.lookup key = some earlier ∧ later.id = earlier.id ∧
          later.credit.fwdCnt =
            earlier.credit.fwdCnt + UInt32.ofNat (acknowledged inner key act) ∧
          (earlier.guestReceiveClosed = true ∨ closing inner key act = true →
            later.guestReceiveClosed = true))
  /-- A new connection, with a new identity and nothing acknowledged. -/
  | opened (fresh : List Packet) (later : Conn)
      (waiting : after.outbox.pending key =
        (inner.outbox.pending key).filter (keeps inner key act) ++ fresh)
      (content : fresh.flatMap streamed = accepts inner key act)
      (told : ∀ packet ∈ fresh, packet.op = .rst ∨ packet.fwdCnt = 0)
      (present : after.conns.lookup key = some later)
      (id : later.id = inner.nextId + 1) (count : later.credit.fwdCnt = 0)

theorem flatMap_streamed_bare {fresh : List Packet} (bare : ∀ packet ∈ fresh, Bare packet) :
    fresh.flatMap streamed = [] := by
  apply flatMap_eq_nil_iff.mpr
  intro packet member
  exact (bare packet member).streamed

/-- A section that closes nothing keeps all that waits. -/
theorem keeps_of_receiving (receiving : closing inner key act = false) (packet : Packet) :
    keeps inner key act packet = true := by
  cases act with
  | reset => cases receiving
  | handle guest now =>
    have still : closesInput inner key guest = false := receiving
    simp [keeps, still]
  | _ => rfl

theorem filter_keeps (receiving : closing inner key act = false) :
    (inner.outbox.pending key).filter (keeps inner key act) = inner.outbox.pending key :=
  filter_eq_self.mpr fun packet _ => keeps_of_receiving receiving packet

namespace Turn

variable {act : Act}

/-- A section that accepts and acknowledges nothing for the key: at most a drop,
then a calm stretch. -/
theorem of_continues {middle : Inner}
    (kept : middle.outbox.pending key =
      (inner.outbox.pending key).filter (keeps inner key act)) (carries : Carries key inner middle)
    (closes : closing inner key act = true → ∀ conn, middle.conns.lookup key = some conn →
      conn.guestReceiveClosed = true) (continues : Continues key middle after)
    (silent : accepts inner key act = []) (idle : acknowledged inner key act = 0) :
    Turn inner key act after := by
  have zero (count : UInt32) : count = count + UInt32.ofNat (acknowledged inner key act) := by
    rw [idle]
    exact (UInt32.add_zero count).symm
  obtain ⟨fresh, waiting, tells⟩ := continues.waiting
  refine Turn.carried fresh ?_ ?_ ?_ ?_
  · rw [waiting, kept]
  · rw [silent]
    exact flatMap_streamed_bare fun packet member => (tells packet member).1
  · intro packet member
    obtain ⟨_, reset | ⟨conn, present, count⟩⟩ := (tells packet member).earlier carries
    · exact Or.inl reset
    · exact Or.inr (Or.inr ⟨conn, present, count.trans (zero _)⟩)
  intro later found
  obtain ⟨between, stands, sameId, sameCount, stays⟩ := continues.carries later found
  obtain ⟨prior, present, id, count, closed⟩ := carries between stands
  refine ⟨prior, present, sameId.trans id, (sameCount.trans count).trans (zero _), ?_⟩
  rintro (was | now)
  · exact stays (closed was)
  · exact stays (closes now between stands)

/-- A calm section, which keeps all that waits. -/
theorem of_calm (continues : Continues key inner after) (receiving : closing inner key act = false)
    (silent : accepts inner key act = []) (idle : acknowledged inner key act = 0) :
    Turn inner key act after := by
  refine of_continues (filter_keeps receiving).symm (Carries.refl key inner) ?_ continues
    silent idle
  intro closes
  cases receiving.symm.trans closes

/-- A connection opened between two stretches of routine work. -/
theorem of_opened {next : Inner} {guestPort : UInt32} {state : State} {now : Nat}
    (outbox : next.outbox = inner.outbox) (nextId : next.nextId = inner.nextId)
    (continues : Continues key (next.apply (.insert key guestPort state now)) after)
    (receiving : closing inner key act = false) (silent : accepts inner key act = [])
    (present : (after.conns.lookup key).isSome) : Turn inner key act after := by
  have conns : (next.apply (.insert key guestPort state now)).conns.lookup key =
      some (Conn.new guestPort state Budget.opened (next.nextId + 1) now) := by
    simp only [Inner.apply]
    cases next.conns.lookup key <;> simp [Inner.set, Inner.retire, Inner.discard]
  have same : (next.apply (.insert key guestPort state now)).outbox = inner.outbox := by
    simp only [Inner.apply]
    cases next.conns.lookup key <;> exact outbox
  obtain ⟨fresh, waiting, tells⟩ := continues.waiting
  obtain ⟨later, found⟩ := Option.isSome_iff_exists.mp present
  obtain ⟨prior, first, id, count, _⟩ := continues.carries later found
  rw [conns] at first
  have born := Option.some.inj first
  refine Turn.opened fresh later ?_ ?_ ?_ found ?_ ?_
  · rw [filter_keeps receiving, waiting, same]
  · rw [silent]
    exact flatMap_streamed_bare fun packet member => (tells packet member).1
  · intro packet member
    obtain ⟨_, reset | ⟨conn, opened, told⟩⟩ := tells packet member
    · exact Or.inl reset
    rw [conns] at opened
    refine Or.inr ?_
    rw [told, ← Option.some.inj opened]
    rfl
  · rw [id, ← born, ← nextId]
    rfl
  · rw [count, ← born]
    rfl

end Turn

theorem Does.carries {extra : Move → Prop} (does : Does extra before after)
    (kept : ∀ move, extra move → move.renews key = false) : Carries key before after := by
  refine does.invariant (Carries key before) ?_ (Carries.refl key before)
  intro state move carries ⟨sound, legal⟩
  exact carries.trans (apply_carries sound
    (legal.elim (fun routine => (Routine.calm routine).1) (kept move)))

/-- A send queues packets of the connection that carry the bytes in order and the
count the connection has. -/
def Sends (key : ConnKey) (before after : Inner) (bytes : List UInt8) : Prop :=
  ∃ packets, after.outbox.pending key = before.outbox.pending key ++ packets ∧
    packets.flatMap streamed = bytes ∧
    ∀ packet ∈ packets, ∃ conn, before.conns.lookup key = some conn ∧
      packet.fwdCnt = conn.credit.fwdCnt

theorem Sends.none (key : ConnKey) (inner : Inner) : Sends key inner inner [] :=
  ⟨[], by simp, rfl, by simp⟩

namespace Inner

theorem outbox_sendPacket (inner : Inner) (key : ConnKey) (window fwdCnt : UInt32)
    (payload : List UInt8) :
    (inner.sendPacket key window fwdCnt payload).outbox =
      inner.outbox.pushBack (rwPacket key window fwdCnt payload) := by
  unfold sendPacket modify
  cases (inner.queue (rwPacket key window fwdCnt payload)).conns.lookup key <;> rfl

theorem pending_sendPacket (key : ConnKey) (window fwdCnt : UInt32)
    (payload : List UInt8) (sorted : inner.outbox.Sorted) :
    (inner.sendPacket key window fwdCnt payload).outbox.pending key =
      inner.outbox.pending key ++ [rwPacket key window fwdCnt payload] := by
  rw [outbox_sendPacket, Outbox.pending_pushBack _ _ _ sorted]
  exact congrArg _ (if_pos rfl)

/-- The loop cuts its data into packets and counts the bytes it took.

Proof: induction on the room left; each round queues the next piece of the data
and goes on with the rest. -/
theorem sendLoop_pending (key : ConnKey) (window fwdCnt : UInt32) (room allowed : Nat)
    (data : List UInt8) (sorted : inner.outbox.Sorted) :
    ∃ packets, (sendLoop key window fwdCnt room allowed data inner).1.outbox.pending key =
        inner.outbox.pending key ++ packets ∧
      packets.flatMap streamed =
        data.take (sendLoop key window fwdCnt room allowed data inner).2 ∧
      ∀ packet ∈ packets, packet.fwdCnt = fwdCnt := by
  induction room generalizing allowed data inner with
  | zero => exact ⟨[], by simp [sendLoop], by simp [sendLoop], by simp⟩
  | succ room ih =>
    rw [sendLoop]
    split
    · exact ⟨[], by simp, by simp, by simp⟩
    generalize min (min allowed maxPayload) data.length = count
    have queued := pending_sendPacket key window fwdCnt (data.take count) sorted
    have ordered : (inner.sendPacket key window fwdCnt (data.take count)).outbox.Sorted := by
      rw [outbox_sendPacket]
      exact Outbox.pushBack_sorted _ _ sorted
    obtain ⟨packets, waiting, content, told⟩ := ih (allowed - count) (data.drop count) ordered
    refine ⟨rwPacket key window fwdCnt (data.take count) :: packets, ?_, ?_, ?_⟩
    · rw [waiting, queued, append_assoc]
      rfl
    · rw [flatMap_cons, content, take_add]
      rfl
    intro packet member
    rcases mem_cons.mp member with rfl | later
    · rfl
    · exact told packet later

theorem sendLoop_sends {conn : Conn} (found : inner.conns.lookup key = some conn)
    (window : UInt32) (room allowed : Nat) (data : List UInt8) (sorted : inner.outbox.Sorted) :
    Sends key inner (sendLoop key window conn.credit.fwdCnt room allowed data inner).1
      (data.take (sendLoop key window conn.credit.fwdCnt room allowed data inner).2) := by
  obtain ⟨packets, waiting, content, told⟩ :=
    sendLoop_pending key window conn.credit.fwdCnt room allowed data sorted
  exact ⟨packets, waiting, content, fun packet member => ⟨conn, found, told packet member⟩⟩

variable (key : ConnKey) (data : List UInt8) (sorted : inner.outbox.Sorted)
include sorted

theorem trySend_sends :
    Sends key inner (inner.trySend key data).1 (accepts inner key (.trySend key data)) := by
  simp only [accepts, if_true]
  unfold trySend
  cases found : inner.conns.lookup key with
  | none => exact Sends.none key inner
  | some conn => grind [Sends.none, sendLoop_sends]

theorem sendPass_sends :
    Sends key inner (inner.sendPass key data).1 (accepts inner key (.sendPass key data)) := by
  simp only [accepts, if_true]
  unfold sendPass
  cases found : inner.conns.lookup key with
  | none => exact Sends.none key inner
  | some conn => grind [Sends.none, sendLoop_sends]

/-- What a send of an owned buffer took and what it handed back are the buffer. -/
def handsBack (data bytes : List UInt8) : Except Gone (Option (List UInt8)) → Prop
  | .ok none => bytes = data
  | .ok (some rest) => bytes ++ rest = data
  | .error _ => bytes = []

theorem sendOwnedPiece_sends :
    ∃ bytes, Sends key inner (inner.sendOwnedPiece key data).1 bytes ∧
      handsBack data bytes (inner.sendOwnedPiece key data).2 := by
  unfold sendOwnedPiece
  cases found : inner.conns.lookup key with
  | none => exact ⟨[], Sends.none key inner, rfl⟩
  | some conn =>
    simp only
    split
    · exact ⟨[], Sends.none key inner, rfl⟩
    cases conn.state with
    | connecting | closed => exact ⟨[], Sends.none key inner, rfl⟩
    | established =>
      simp only
      split
      · exact ⟨[], Sends.none key inner, rfl⟩
      generalize conn.credit.available.toNat = allowed
      refine ⟨data.take allowed, ⟨[_], pending_sendPacket key _ _ _ sorted, ?_, ?_⟩, ?_⟩
      · simp [streamed, rwPacket, Packet.control]
      · intro packet member
        rw [mem_singleton.mp member]
        exact ⟨conn, found, rfl⟩
      · split
        · exact take_append_drop allowed data
        · next short => exact take_of_length_le (Nat.le_of_not_lt short)

theorem trySendOwned_hands :
    ∃ bytes, Sends key inner (inner.trySendOwned key data).1 bytes ∧
      handsBack data bytes (inner.trySendOwned key data).2 := by
  unfold trySendOwned
  split
  · obtain ⟨bytes, sends, back⟩ := sendOwnedPiece_sends key (data.take maxPayload) sorted
    refine ⟨bytes, ?_⟩
    generalize inner.sendOwnedPiece key (data.take maxPayload) = outcome at sends back
    obtain ⟨after, result⟩ := outcome
    rcases result with refusal | _ | unsent
    · exact ⟨sends, back⟩
    · refine ⟨sends, ?_⟩
      have all : bytes = data.take maxPayload := back
      rw [all]
      exact take_append_drop maxPayload data
    · refine ⟨sends, ?_⟩
      have piece : bytes ++ unsent = data.take maxPayload := back
      change bytes ++ (unsent ++ data.drop maxPayload) = data
      rw [← append_assoc, piece, take_append_drop]
  · exact sendOwnedPiece_sends key data sorted

theorem trySendOwned_sends :
    Sends key inner (inner.trySendOwned key data).1
      (accepts inner key (.trySendOwned key data)) := by
  obtain ⟨bytes, sends, back⟩ := trySendOwned_hands key data sorted
  have taken : accepts inner key (.trySendOwned key data) = bytes := by
    simp only [accepts, if_true]
    generalize (inner.trySendOwned key data).2 = result at back
    rcases result with refusal | _ | rest
    · exact back.symm
    · exact back.symm
    · have parts : bytes ++ rest = data := back
      rw [← parts]
      simp
  rw [taken]
  exact sends

end Inner

/-- A send on the key itself. -/
theorem Turn.of_sends {act : Act} (sends : Sends key inner after (accepts inner key act))
    (carries : Carries key inner after) (receiving : closing inner key act = false)
    (idle : acknowledged inner key act = 0) : Turn inner key act after := by
  obtain ⟨packets, waiting, content, told⟩ := sends
  have zero (count : UInt32) : count = count + UInt32.ofNat (acknowledged inner key act) := by
    rw [idle]
    exact (UInt32.add_zero count).symm
  refine Turn.carried packets ?_ content ?_ ?_
  · rw [filter_keeps receiving]
    exact waiting
  · grind
  intro later found
  obtain ⟨prior, present, id, count, closed⟩ := carries later found
  refine ⟨prior, present, id, count.trans (zero _), ?_⟩
  rintro (was | now)
  · exact closed was
  · cases receiving.symm.trans now

namespace Inner

/-- Hearing a packet's credit changes the connection heard and nothing else. -/
theorem observe_rest (inner : Inner) (key : ConnKey) (packet : Packet) :
    (inner.observe key packet).outbox = inner.outbox ∧
      (inner.observe key packet).nextId = inner.nextId ∧
      (inner.observe key packet).conns.lookup key =
        (inner.conns.lookup key).map fun conn => heard conn packet := by
  unfold observe
  cases found : inner.conns.lookup key with
  | none => exact ⟨rfl, rfl, found⟩
  | some conn =>
    rw [modify_present found, touch_eq]
    exact ⟨rfl, rfl, lookup_set_self inner key (heard conn packet)⟩

theorem offer_rest (inner : Inner) (hostPort : UInt32) (key : ConnKey) :
    (inner.offer hostPort key).1.outbox = inner.outbox ∧
      (inner.offer hostPort key).1.nextId = inner.nextId ∧
      (inner.offer hostPort key).1.conns = inner.conns := by
  unfold offer
  cases inner.listeners.lookup hostPort with
  | none => exact ⟨rfl, rfl, rfl⟩
  | some listener =>
    simp only
    split <;> exact ⟨rfl, rfl, rfl⟩

end Inner

section

variable (sorted : inner.outbox.Sorted)
include sorted

/-- An acknowledgement on the key itself: the count advances, the rest is routine. -/
theorem Turn.acknowledge (settings : Settings) (key : ConnKey) (bytes : UInt32) (now : Nat) :
    Turn inner key (.acknowledge key bytes now)
      (inner.acknowledge settings key bytes now) := by
  cases present : inner.conns.lookup key with
  | none =>
    have same : inner.acknowledge settings key bytes now = inner := by
      simp [Inner.acknowledge, present]
    rw [same]
    refine Turn.of_calm (Continues.refl key sorted) rfl rfl ?_
    simp [acknowledged, present]
  | some conn =>
    have amount : UInt32.ofNat (acknowledged inner key (.acknowledge key bytes now)) = bytes := by
      simp [acknowledged, present]
    have continues : Continues key (inner.apply (.consume key bytes))
        (inner.acknowledge settings key bytes now) := by
      refine Does.routine
        (Does.acknowledge_after settings key bytes now trivial (resets_endings key)) key ?_
      rw [(apply_frame (show Sound inner (.consume key bytes) from trivial)).outbox rfl]
      exact sorted
    have advanced : (inner.apply (.consume key bytes)).conns.lookup key =
        some { conn with credit := conn.credit.consumed bytes } := by
      rw [Inner.apply, onConn_present present, lookup_set_self]
    have outbox : (inner.apply (.consume key bytes)).outbox = inner.outbox := by
      rw [Inner.apply, onConn_present present]
      rfl
    obtain ⟨fresh, waiting, tells⟩ := continues.waiting
    refine Turn.carried fresh ?_ ?_ ?_ ?_
    · rw [filter_keeps rfl, waiting, outbox]
    · exact flatMap_streamed_bare fun packet member => (tells packet member).1
    · intro packet member
      obtain ⟨_, reset | ⟨middle, found, told⟩⟩ := tells packet member
      · exact Or.inl reset
      rw [advanced] at found
      refine Or.inr (Or.inr ⟨conn, present, ?_⟩)
      rw [told, ← Option.some.inj found, amount]
      rfl
    intro later found
    obtain ⟨middle, start, id, count, closed⟩ := continues.carries later found
    rw [advanced] at start
    have middleIs := (Option.some.inj start).symm
    subst middleIs
    refine ⟨conn, present, id, ?_, ?_⟩
    · rw [count, amount]
      rfl
    · rintro (was | now)
      · exact closed was
      · cases now

/-- A half-close on the key itself queues a packet whose count is zero. -/
theorem Turn.shutdownWrite (key : ConnKey) :
    Turn inner key (.shutdownWrite key) (inner.shutdownWrite key) := by
  have still : Turn inner key (.shutdownWrite key) inner :=
    Turn.of_calm (Continues.refl key sorted) rfl rfl rfl
  unfold Inner.shutdownWrite
  cases present : inner.conns.lookup key with
  | none => exact still
  | some conn =>
    simp only
    split
    · exact still
    next receiving =>
    refine Turn.carried [Inner.halfClosePacket key conn] ?_ rfl ?_ ?_
    · rw [filter_keeps rfl]
      refine (Outbox.pending_pushBack _ _ _ sorted).trans ?_
      exact congrArg _ (if_pos rfl)
    · intro packet member
      rw [mem_singleton.mp member]
      exact Or.inr (Or.inl ⟨rfl, rfl, conn, present, by simpa using receiving⟩)
    intro later found
    refine ⟨later, found, rfl, (UInt32.add_zero _).symm, ?_⟩
    rintro (was | now)
    · exact was
    · cases now

/-- A guest's shutdown of the key itself.

Proof: it is a drop of what the host queued, when the guest no longer receives,
between hearing the packet and finishing the close. -/
theorem Turn.shutdown (packet : Packet) (now : Nat) (kind : packet.op = .shutdown) :
    Turn inner (guestKey packet) (.handle packet now) (inner.handle packet now) := by
  generalize mine : guestKey packet = key
  have outcome : inner.handle packet now =
      (inner.observe key packet).handleShutdown key packet.flags := by
    unfold Inner.handle
    simp [kind, mine]
  rw [outcome]
  obtain ⟨outbox, _, hearing⟩ := inner.observe_rest key packet
  unfold Inner.handleShutdown
  cases present : inner.conns.lookup key with
  | none =>
    rw [present, Option.map_none] at hearing
    simp only [hearing]
    have receiving : closing inner key (.handle packet now) = false := by
      simp [closing, closesInput, present]
    have calm : Continues key inner (inner.observe key packet) :=
      Does.routine (Does.observe _ _) _ sorted
    exact Turn.of_calm calm receiving rfl rfl
  | some conn =>
    rw [present, Option.map_some] at hearing
    simp only [hearing]
    rw [modify_present hearing]
    generalize inner.observe key packet = state at outbox
    let declared := Inner.declareShutdown (Inner.heard conn packet) packet.flags
    have carries {middle : Inner} (conns : middle.conns.lookup key = some declared) :
        Carries key inner middle := by
      intro later found
      rw [conns] at found
      rw [← Option.some.inj found]
      refine ⟨conn, present, rfl, rfl, fun was => ?_⟩
      simp [declared, Inner.declareShutdown, Inner.heard, was]
    have stands := lookup_set_self state key declared
    split
    · next closed =>
      have dropped : ((state.set key declared).dropInput key).outbox.pending key =
          (inner.outbox.pending key).filter (keeps inner key (.handle packet now)) := by
        simp only [Inner.dropInput, Inner.set]
        rw [Outbox.pending_retain, outbox]
        apply filter_congr
        intro waiting member
        have filed : waiting.key = key := by
          simpa using (mem_filter.mp member).2
        have source : waiting.srcPort = key.1 := congrArg Prod.fst filed
        have destination : waiting.dstPort = key.2 := congrArg Prod.snd filed
        have receiving :
            (Inner.declareShutdown conn packet.flags).guestReceiveClosed = true := closed
        simp [keeps, closesInput, kind, mine, present, receiving, source, destination]
      refine Turn.of_continues dropped (carries stands) ?_ ?_ rfl rfl
      · intro _ other found
        have same : (state.set key declared).conns.lookup key = some other := found
        rw [stands] at same
        rw [← Option.some.inj same]
        exact closed
      refine Does.routine (Does.finishShutdown _ trivial (resets_endings _)) _ ?_
      exact Outbox.retain_sorted _ _ (outbox ▸ sorted)
    · next still =>
      have receiving : closing inner key (.handle packet now) = false := by
        have undeclared :
            (Inner.declareShutdown conn packet.flags).guestReceiveClosed ≠ true := still
        simp [closing, closesInput, present, undeclared]
      refine Turn.of_continues ?_ (carries stands) ?_ ?_ rfl rfl
      · rw [filter_keeps receiving]
        exact congrArg (Outbox.pending · key) outbox
      · intro closes
        cases receiving.symm.trans closes
      · refine Does.routine (Does.finishShutdown _ trivial (resets_endings _)) _ ?_
        rw [← outbox] at sorted
        exact sorted

/-- A guest's request for the key itself: refused, or a new connection. -/
theorem Turn.request (packet : Packet) (now : Nat) (kind : packet.op = .request) :
    Turn inner (guestKey packet) (.handle packet now) (inner.handle packet now) := by
  generalize mine : guestKey packet = key
  have receiving : closing inner key (.handle packet now) = false := by
    simp [closing, closesInput, kind]
  have outcome : inner.handle packet now = (inner.observe key packet).handleRequest
      key packet now := by
    unfold Inner.handle
    simp [kind, mine]
  rw [outcome]
  obtain ⟨outbox, nextId, _⟩ := inner.observe_rest key packet
  have heard : Does endings inner (inner.observe key packet) := Does.observe _ _
  generalize inner.observe key packet = state at outbox nextId heard
  obtain ⟨sameOutbox, sameId, _⟩ := state.offer_rest key.1 key
  have offered : Does endings state (state.offer key.1 key).1 := Does.offer _ _
  cases result : state.offer key.1 key with
  | mk next accepted =>
    rw [result] at sameOutbox sameId offered
    cases accepted with
    | false =>
      have refused : state.handleRequest key packet now =
          next.refuse key.1 key.2 := by
        simp [Inner.handleRequest, result]
      rw [refused]
      have calm : Does endings inner (next.refuse key.1 key.2) :=
        heard.trans (offered.trans (Does.refuse _ _ (resets_endings _)))
      exact Turn.of_calm (calm.routine _ sorted) receiving rfl rfl
    | true =>
      have opening : Does endings (next.apply (.insert key key.2 .established now))
          (state.handleRequest key packet now) :=
        Does.handleRequest_after _ packet now result
      refine Turn.of_opened (sameOutbox.trans outbox) (sameId.trans nextId)
        (opening.routine _ ?_) receiving rfl ?_
      · have same := (apply_frame (show Sound next (.insert key
          key.2 .established now) from rfl)).outbox rfl
        rw [same, sameOutbox, outbox]
        exact sorted
      · have stands := next.lookup_insert_self key key.2 .established now
        simp only [Inner.handleRequest, result, if_true]
        rw [modify_present stands]
        simp [Inner.queue]

/-- A connection the host opens, seen from any key. -/
theorem Turn.openConn (key : ConnKey) (guestPort : UInt32) (now : Nat) :
    Turn inner key (.openConn guestPort now) (inner.openConn guestPort now).1 := by
  by_cases mine : (inner.nextPort, guestPort) = key
  · subst mine
    have opening : Does endings
        (Inner.apply { inner with nextPort := max (inner.nextPort + 1) firstEphemeralPort }
          (.insert (inner.nextPort, guestPort) guestPort .connecting now))
        (inner.openConn guestPort now).1 := Does.openConn_after guestPort now
    refine Turn.of_opened ?_ ?_ (opening.routine _ ?_) rfl rfl ?_
    · rfl
    · rfl
    · rw [(apply_frame (show Sound
        { inner with nextPort := max (inner.nextPort + 1) firstEphemeralPort }
        (.insert (inner.nextPort, guestPort) guestPort .connecting now) from rfl)).outbox rfl]
      exact sorted
    · grind [lookup_insert_self, Inner.openConn, Inner.queue]
  · have opening : Does (fun move => move =
        .insert (inner.nextPort, guestPort) guestPort .connecting now) inner
        (inner.openConn guestPort now).1 := Does.openConn guestPort now rfl
    refine Turn.of_calm (opening.continues ?_ sorted) rfl rfl rfl
    rintro move rfl
    simp [Move.renews, Move.disturbs, mine]

end

/-- A reset leaves nothing. -/
theorem Turn.reset (key : ConnKey) : Turn inner key .reset inner.reset := by
  refine Turn.carried [] ?_ rfl (by simp) ?_
  · rw [append_nil]
    exact (filter_eq_nil_iff.mpr fun _ _ => by simp [keeps]).symm
  · intro later found
    simp [Inner.reset] at found

/-- A section that does not concern a key closes, accepts and acknowledges nothing
for it. -/
theorem Act.unconcerned {act : Act} (inner : Inner) (apart : act.concerns key = false) :
    closing inner key act = false ∧ accepts inner key act = [] ∧
      acknowledged inner key act = 0 := by
  cases act with
  | handle packet now =>
    refine ⟨?_, rfl, rfl⟩
    simp only [Act.concerns, Bool.and_eq_false_iff, Bool.or_eq_false_iff] at apart
    rcases apart with elsewhere | ⟨_, kind⟩
    · simp [closing, closesInput, elsewhere]
    · simp [closing, closesInput, kind]
  | trySend other data | trySendOwned other data | sendPass other data =>
    have elsewhere : other ≠ key := by simpa [Act.concerns] using apart
    exact ⟨rfl, if_neg elsewhere, rfl⟩
  | acknowledge other bytes now =>
    have elsewhere : other ≠ key := by simpa [Act.concerns] using apart
    exact ⟨rfl, rfl, if_neg fun both => elsewhere both.1⟩
  | reset => cases apart
  | _ => exact ⟨rfl, rfl, rfl⟩

/-- Every section but a delivery is a turn of every key. -/
theorem step_turn (settings : Settings) (inner : Inner) (key : ConnKey) (act : Act)
    (keyed : Keyed inner) (sorted : inner.outbox.Sorted)
    (kind : ∀ memory chain, act ≠ .rx memory chain) :
    Turn inner key act (step settings inner act) := by
  cases apart : act.concerns key with
  | false =>
    obtain ⟨receiving, silent, idle⟩ := Act.unconcerned inner apart
    exact Turn.of_calm
      ((step_does settings inner keyed act).continues (Act.extra_calm apart) sorted)
      receiving silent idle
  | true =>
    cases act with
    | openConn guestPort now => exact Turn.openConn sorted key guestPort now
    | handle packet now =>
      simp only [Act.concerns, Bool.and_eq_true, Bool.or_eq_true, decide_eq_true_eq] at apart
      obtain ⟨rfl, opens | closes⟩ := apart
      · exact Turn.request sorted packet now opens
      · exact Turn.shutdown sorted packet now closes
    | trySend other data =>
      have mine : other = key := by simpa [Act.concerns] using apart
      subst mine
      refine Turn.of_sends (inner.trySend_sends other data sorted) ?_ rfl rfl
      exact (step_does settings inner keyed (.trySend other data)).carries fun move named => by
        cases move <;> first | rfl | exact named.elim
    | trySendOwned other data =>
      have mine : other = key := by simpa [Act.concerns] using apart
      subst mine
      refine Turn.of_sends (inner.trySendOwned_sends other data sorted) ?_ rfl rfl
      exact (step_does settings inner keyed (.trySendOwned other data)).carries
        fun move named => by cases move <;> first | rfl | exact named.elim
    | sendPass other data =>
      have mine : other = key := by simpa [Act.concerns] using apart
      subst mine
      refine Turn.of_sends (inner.sendPass_sends other data sorted) ?_ rfl rfl
      exact (step_does settings inner keyed (.sendPass other data)).carries
        fun move named => by cases move <;> first | rfl | exact named.elim
    | acknowledge other bytes now =>
      have mine : other = key := by simpa [Act.concerns] using apart
      subst mine
      exact Turn.acknowledge sorted settings other bytes now
    | shutdownWrite other =>
      have mine : other = key := by simpa [Act.concerns] using apart
      subst mine
      exact Turn.shutdownWrite sorted other
    | rx memory chain => exact absurd rfl (kind memory chain)
    | reset => exact Turn.reset key
    | listen | hangUp | guestRw | take | read | readExact | complete | shutdown | abandon
    | label | sweep | takeTouched | finishDone => cases apart

end Lighter.Vsock
