import Lighter.Lib.Transition
import Lighter.Vsock.Shared

/-!
# What a locked section can do to the shared state

Every section is a sequence of a few moves, and each move says what it does to
the connections, the outbox, the budget and the chains. The laws about the
shared state are proved once for each move; that a section is made of moves is
proved once for each section.

Fields that none of those laws read (the next port, the listeners, the warden's
counts, the touched set) are carried by one move that sets them all.
-/

namespace Lighter.Vsock

open Packet Transition

/-- The fields no law below reads. -/
structure Aside where
  nextPort : UInt32
  touched : List ConnKey
  touchedAll : Bool
  listeners : Table UInt32 Listener
  warden : WardenCounts
  ringFullSince : Option Nat

inductive Move where
  /-- A connection is replaced by one that keeps what is shared. -/
  | edit (key : ConnKey) (conn : Conn)
  | aside (fields : Aside)
  | consume (key : ConnKey) (bytes : UInt32)
  | queue (packet : Packet)
  | send (key : ConnKey) (payload : List UInt8)
  | halfClose (key : ConnKey)
  | dropInput (key : ConnKey)
  | arrive (key : ConnKey) (bytes : List UInt8)
  | hold (key : ConnKey) (head : UInt16) (spans : List (Nat × Nat))
  /-- A reader leaves a connection `left`. The chains it took go back at once when
  `finished` and into a writer's hands when `taken`. -/
  | leave (key : ConnKey) (left : List Chunk) (finished taken : List UInt16)
  | complete (heads : List UInt16)
  | grow (key : ConnKey)
  | shrink (key : ConnKey)
  | remove (key : ConnKey)
  | insert (key : ConnKey) (guestPort : UInt32) (state : State) (now : Nat)
  | finish (now : Nat)
  | deliver (room : Nat)
  | reset

namespace Inner

def aside (inner : Inner) : Aside :=
  ⟨inner.nextPort, inner.touched, inner.touchedAll, inner.listeners, inner.warden,
    inner.ringFullSince⟩

def withAside (inner : Inner) (fields : Aside) : Inner :=
  { inner with
    nextPort := fields.nextPort
    touched := fields.touched
    touchedAll := fields.touchedAll
    listeners := fields.listeners
    warden := fields.warden
    ringFullSince := fields.ringFullSince }

/-- A connection put in the table. -/
def set (inner : Inner) (key : ConnKey) (conn : Conn) : Inner :=
  { inner with conns := inner.conns.insert key conn }

/-- The half-close packet of a connection. -/
def halfClosePacket (key : ConnKey) (conn : Conn) : Packet :=
  { Packet.control .shutdown key.1 key.2 with flags := shutdownSend, bufAlloc := conn.window }

/-- The next packet, cut to what a chain has room for. -/
def deliverNext (inner : Inner) (room : Nat) : Inner :=
  match inner.outbox.popFront with
  | none => inner
  | some (packet, outbox) =>
      { inner with
        outbox :=
          match (Device.cut packet room).2 with
          | none => outbox
          | some rest => outbox.pushFront rest }

/-- A move that concerns a connection does nothing when it is absent. -/
def onConn (inner : Inner) (key : ConnKey) (change : Conn → Inner) : Inner :=
  match inner.conns.lookup key with
  | none => inner
  | some conn => change conn

def apply (inner : Inner) : Move → Inner
  | .edit key conn => inner.set key conn
  | .aside fields => inner.withAside fields
  | .consume key bytes => inner.onConn key fun conn =>
      inner.set key { conn with credit := conn.credit.consumed bytes }
  | .queue packet => inner.queue packet
  | .send key payload => inner.onConn key fun conn =>
      inner.sendPacket key conn.window conn.credit.fwdCnt payload
  | .halfClose key => inner.onConn key fun conn => inner.queue (halfClosePacket key conn)
  | .dropInput key => inner.dropInput key
  | .arrive key bytes => inner.onConn key fun conn =>
      inner.set key { conn with outbound := conn.outbound ++ [.owned bytes] }
  | .hold key head spans => inner.onConn key fun conn =>
      { inner.set key { conn with
          outbound := conn.outbound ++ [.guest head spans], held := conn.held + 1 } with
        held := inner.held + 1
        holders := inner.holders.insert head (key, conn.id) }
  | .leave key left finished _ => inner.onConn key fun conn =>
      { inner.set key { conn with outbound := left } with done := inner.done ++ finished }
  | .complete heads => inner.complete heads
  | .grow key => inner.onConn key fun conn =>
      { inner.set key { conn with window := (inner.budget.grow conn.window).2 } with
        budget := (inner.budget.grow conn.window).1 }
  | .shrink key => inner.onConn key fun conn =>
      { inner.set key { conn with window := (inner.budget.shrink conn.window).2 } with
        budget := (inner.budget.shrink conn.window).1 }
  | .remove key => inner.onConn key fun conn =>
      { inner with conns := inner.conns.erase key }.retire conn
  | .insert key guestPort state now =>
      let conn := Conn.new guestPort state Budget.opened (inner.nextId + 1) now
      let opened := { inner.set key conn with nextId := inner.nextId + 1 }
      match inner.conns.lookup key with
      | none => opened
      | some old => opened.retire old
  | .finish now => (inner.finishDone now).1
  | .deliver room => inner.deliverNext room
  | .reset => inner.reset

end Inner

/-- What a connection keeps through an edit: everything that is shared, its
consumed count, and a close once made. Most edits leave these fields as they
are. -/
structure Kept (before after : Conn) : Prop where
  guestPort : after.guestPort = before.guestPort
  outbound : after.outbound = before.outbound
  held : after.held = before.held
  id : after.id = before.id
  window : after.window = before.window
  fwdCnt : after.credit.fwdCnt = before.credit.fwdCnt
  closed : before.state = .closed → after.state = .closed
  receiveClosed : before.guestReceiveClosed = true → after.guestReceiveClosed = true

/-- A packet of the protocol itself, without a stream's bytes. -/
def Bare (packet : Packet) : Prop := packet.op ≠ .rw ∧ packet.payload = []

/-- When a move may be made. A packet other than a reset belongs to a connection
of the table and carries its consumed count. -/
def Sound (inner : Inner) : Move → Prop
  | .edit key conn => ∃ before, inner.conns.lookup key = some before ∧ Kept before conn
  | .queue packet =>
      Bare packet ∧
        (packet.op = .rst ∨ ∃ conn, inner.conns.lookup packet.key = some conn ∧
          packet.fwdCnt = conn.credit.fwdCnt)
  | .send key payload =>
      ∃ conn, inner.conns.lookup key = some conn ∧ conn.guestReceiveClosed = false ∧
        payload.length ≤ maxPayload
  | .halfClose key =>
      ∃ conn, inner.conns.lookup key = some conn ∧ conn.guestReceiveClosed = false
  | .dropInput key =>
      ∃ conn, inner.conns.lookup key = some conn ∧ conn.guestReceiveClosed = true
  | .arrive key _ => ∃ conn, inner.conns.lookup key = some conn ∧ conn.state ≠ .closed
  | .hold key _ _ =>
      ∃ conn, inner.conns.lookup key = some conn ∧ conn.state ≠ .closed ∧
        conn.held < inner.txLimits.2 ∧ inner.held < inner.txLimits.1
  | .leave key left finished taken =>
      ∃ conn, inner.conns.lookup key = some conn ∧
        heads conn.outbound = finished ++ taken ++ heads left
  | .insert key guestPort _ _ => guestPort = key.2
  | .aside _ | .consume _ _ | .complete _ | .grow _ | .shrink _ | .remove _
  | .finish _ | .deliver _ | .reset => True

/-- What a routine edit leaves as it is besides: how much a connection has received
and which ends of it are closed. -/
structure Still (before after : Conn) : Prop where
  received : after.received = before.received
  guestDone : after.guestDone = before.guestDone
  guestReceiveClosed : after.guestReceiveClosed = before.guestReceiveClosed
  living : before.state ≠ .closed → after.state ≠ .closed

/-- The moves any section may make: they open, close and end no connection, take
nothing from one that is not closed, and neither send, receive nor acknowledge. -/
def Routine (inner : Inner) : Move → Prop
  | .edit key conn => ∀ before, inner.conns.lookup key = some before → Still before conn
  | .queue packet => packet.op ≠ .rst
  | .aside _ | .grow _ | .shrink _ => True
  | .leave key left _ taken =>
      left = [] ∧ taken = [] ∧
        ∃ conn, inner.conns.lookup key = some conn ∧ conn.state = .closed
  | _ => False

/-- A section made of sound moves, the moves outside the routine ones being among
`extra`. -/
abbrev Does (extra : Move → Prop) : Inner → Inner → Prop :=
  Reaches (fun inner move => Sound inner move ∧ (Routine inner move ∨ extra move)) Inner.apply

/-- Ending connections: removals and resets. -/
def endings : Move → Prop
  | .remove _ => True
  | .queue packet => packet.op = .rst
  | _ => False

/-- Every connection is filed under its own guest port. -/
def Keyed (inner : Inner) : Prop :=
  ∀ key conn, inner.conns.lookup key = some conn → conn.guestPort = key.2

namespace Inner

variable {extra : Move → Prop} {inner : Inner} {key : ConnKey}

theorem lookup_set (inner : Inner) (key tested : ConnKey) (conn : Conn) :
    (inner.set key conn).conns.lookup tested =
      if tested = key then some conn else inner.conns.lookup tested :=
  Table.lookup_insert_ite key tested conn inner.conns

@[simp] theorem lookup_set_self (inner : Inner) (key : ConnKey) (conn : Conn) :
    (inner.set key conn).conns.lookup key = some conn := by
  simp [lookup_set]

@[simp] theorem set_set (inner : Inner) (key : ConnKey) (first second : Conn) :
    (inner.set key first).set key second = inner.set key second := by
  simp [set]

theorem modify_present {conn : Conn} (found : inner.conns.lookup key = some conn)
    (change : Conn → Conn) : inner.modify key change = inner.set key (change conn) := by
  simp [modify, set, found]

theorem modify_absent (absent : inner.conns.lookup key = none) (change : Conn → Conn) :
    inner.modify key change = inner := by
  simp [modify, absent]

theorem sendPacket_present {conn : Conn} (found : inner.conns.lookup key = some conn)
    (window fwdCnt : UInt32) (payload : List UInt8) :
    inner.sendPacket key window fwdCnt payload =
      (inner.queue (rwPacket key window fwdCnt payload)).set key
        { conn with credit := conn.credit.sent (UInt32.ofNat payload.length) } := by
  have queued : (inner.queue (rwPacket key window fwdCnt payload)).conns.lookup key =
      some conn := found
  rw [sendPacket, modify_present queued]

theorem onConn_present {conn : Conn} (found : inner.conns.lookup key = some conn)
    (change : Conn → Inner) : inner.onConn key change = change conn := by
  simp [onConn, found]

/-- What holds of the device and of what becomes of a connection that is there holds after a
move that concerns it. -/
theorem onConn_holds (holds : Inner → Prop) {key : ConnKey} {change : Conn → Inner}
    (absent : holds inner)
    (found : ∀ conn, inner.conns.lookup key = some conn → holds (change conn)) :
    holds (inner.onConn key change) := by
  unfold onConn
  split
  · exact absent
  · exact found _ ‹_›

theorem onConn_absent (absent : inner.conns.lookup key = none) (change : Conn → Inner) :
    inner.onConn key change = inner := by
  simp [onConn, absent]

variable (inner : Inner) (key : ConnKey)

theorem touch_eq : inner.touch key = inner.withAside (inner.touch key).aside := by
  unfold touch
  split_ifs <;> rfl

@[simp] theorem conns_touch : (inner.touch key).conns = inner.conns := by
  rw [touch_eq]
  rfl

theorem touch_discard (chunks : List Chunk) :
    (inner.touch key).discard chunks = (inner.discard chunks).touch key := by
  unfold touch discard
  split_ifs <;> rfl

theorem touch_retire (conn : Conn) :
    (inner.touch key).retire conn = (inner.retire conn).touch key := by
  unfold touch retire discard
  split_ifs <;> rfl

@[simp] theorem conns_retire (conn : Conn) : (inner.retire conn).conns = inner.conns := rfl

end Inner

namespace Move

/-- The bytes a move acknowledges on a connection. -/
def consumed (tested : ConnKey) : Move → UInt32
  | .consume key bytes => if tested = key then bytes else 0
  | _ => 0

/-- Whether a move adds to or takes from a connection's queue. -/
def feeds (tested : ConnKey) : Move → Bool
  | .arrive key _ | .hold key _ _ | .leave key _ _ _ => tested = key
  | _ => false

end Move

/-- What a connection is after a move, beside what it was. -/
structure Descends (consumed : UInt32) (fed : Bool) (before after : Conn) : Prop where
  guestPort : after.guestPort = before.guestPort
  id : after.id = before.id
  fwdCnt : after.credit.fwdCnt = before.credit.fwdCnt + consumed
  outbound : fed = false → after.outbound = before.outbound
  closed : before.state = .closed → after.state = .closed
  receiveClosed : before.guestReceiveClosed = true → after.guestReceiveClosed = true

theorem Descends.refl (fed : Bool) (conn : Conn) : Descends 0 fed conn conn :=
  ⟨rfl, rfl, by simp, fun _ => rfl, fun was => was, fun was => was⟩

theorem Kept.descends {before after : Conn} (kept : Kept before after) :
    Descends 0 false before after :=
  ⟨kept.guestPort, kept.id, by simp [kept.fwdCnt], fun _ => kept.outbound, kept.closed,
    kept.receiveClosed⟩

namespace Inner

variable {inner : Inner}

/-- Only a count of held chains changes when a chain is given back. -/
theorem lookup_giveBack (now : Nat) (inner : Inner) (head : UInt16) (tested : ConnKey) :
    ∃ held : Nat → Nat, (giveBack now inner head).conns.lookup tested =
      (inner.conns.lookup tested).map fun conn => { conn with held := held conn.held } := by
  have same : inner.conns.lookup tested = (inner.conns.lookup tested).map id := Option.map_id'.symm
  unfold giveBack
  dsimp only
  split
  · exact ⟨id, same⟩
  split
  · exact ⟨id, same⟩
  rename_i key _ _ _ conn found
  split
  · by_cases mine : tested = key
    · refine ⟨(· - 1), ?_⟩
      rw [mine, Table.lookup_insert_ite, if_pos rfl, found]
      rfl
    · refine ⟨id, ?_⟩
      rw [Table.lookup_insert_ite, if_neg mine]
      exact same
  · exact ⟨id, same⟩

theorem lookup_finishDone (now : Nat) (inner : Inner) (tested : ConnKey) :
    ∃ held : Nat → Nat, (inner.finishDone now).1.conns.lookup tested =
      (inner.conns.lookup tested).map fun conn => { conn with held := held conn.held } := by
  have walk (list : List UInt16) (start : Inner) :
      ∃ held : Nat → Nat, (list.foldl (giveBack now) start).conns.lookup tested =
        (start.conns.lookup tested).map fun conn => { conn with held := held conn.held } := by
    induction list generalizing start with
    | nil => exact ⟨id, Option.map_id'.symm⟩
    | cons head rest ih =>
      obtain ⟨first, one⟩ := lookup_giveBack now start head tested
      obtain ⟨second, others⟩ := ih (giveBack now start head)
      refine ⟨second ∘ first, others.trans ?_⟩
      rw [one, Option.map_map]
      rfl
  exact walk inner.done { inner with done := [] }

/-- A connection set where one stood descends from it, and the others are as they
were. -/
theorem lookup_set_cases (move : Move) {key tested : ConnKey} {conn changed after : Conn}
    (present : inner.conns.lookup key = some conn)
    (descends : Descends (move.consumed key) (move.feeds key) conn changed)
    (elsewhere : tested ≠ key → move.consumed tested = 0)
    (found : (inner.set key changed).conns.lookup tested = some after) :
    ∃ before, inner.conns.lookup tested = some before ∧
      Descends (move.consumed tested) (move.feeds tested) before after := by
  rw [lookup_set] at found
  by_cases same : tested = key
  · grind
  · grind [Descends.refl]

/-- A connection after a sound move descends from the one of its key, unless the
move put it there.

Proof: a move that concerns one connection sets it and leaves the others; the
rest leave the table as it was, remove from it, or give chains back. -/
theorem lookup_apply {move : Move} (sound : Sound inner move) (tested : ConnKey)
    (after : Conn) (found : (inner.apply move).conns.lookup tested = some after) :
    (∃ before, inner.conns.lookup tested = some before ∧
      Descends (move.consumed tested) (move.feeds tested) before after) ∨
    ∃ guestPort state now, move = .insert tested guestPort state now ∧
      after = Conn.new guestPort state Budget.opened (inner.nextId + 1) now := by
  have same (unchanged : inner.conns.lookup tested = some after) (idle : move.consumed tested = 0) :
      ∃ before, inner.conns.lookup tested = some before ∧
        Descends (move.consumed tested) (move.feeds tested) before after := by
    rw [idle]
    exact ⟨after, unchanged, Descends.refl _ after⟩
  cases move with
  | edit key conn =>
    obtain ⟨before, present, kept⟩ := sound
    exact Or.inl (lookup_set_cases (.edit key conn) present kept.descends (fun _ => rfl) found)
  | consume key bytes =>
    simp only [apply] at found
    have elsewhere (other : tested ≠ key) : Move.consumed tested (.consume key bytes) = 0 :=
      if_neg other
    cases present : inner.conns.lookup key with
    | none => grind [onConn_absent]
    | some conn =>
      rw [onConn_present present] at found
      refine Or.inl (lookup_set_cases (.consume key bytes) present ?_ elsewhere found)
      exact ⟨rfl, rfl, by simp [Move.consumed, Credit.consumed], fun _ => rfl, id, id⟩
  | send key payload =>
    obtain ⟨conn, present, _⟩ := sound
    simp only [apply] at found
    rw [onConn_present present, sendPacket_present present] at found
    refine Or.inl (lookup_set_cases (.send key payload) present ?_ (fun _ => rfl) found)
    exact ⟨rfl, rfl, by simp [Move.consumed, Credit.sent], fun _ => rfl, id, id⟩
  | arrive key bytes | hold key head spans | leave key left finished taken =>
    obtain ⟨conn, present, _⟩ := sound
    simp only [apply] at found
    rw [onConn_present present] at found
    refine Or.inl (lookup_set_cases _ present ?_ (fun _ => rfl) found)
    exact ⟨rfl, rfl, by simp [Move.consumed], by simp [Move.feeds], id, id⟩
  | grow key | shrink key =>
    simp only [apply] at found
    cases present : inner.conns.lookup key with
    | none =>
      rw [onConn_absent present] at found
      exact Or.inl (same found rfl)
    | some conn =>
      rw [onConn_present present] at found
      refine Or.inl (lookup_set_cases _ present ?_ (fun _ => rfl) found)
      exact ⟨rfl, rfl, by simp [Move.consumed], fun _ => rfl, id, id⟩
  | remove key =>
    simp only [apply] at found
    cases present : inner.conns.lookup key with
    | none =>
      rw [onConn_absent present] at found
      exact Or.inl (same found rfl)
    | some conn =>
      rw [onConn_present present, conns_retire, Table.lookup_erase_ite] at found
      by_cases gone : tested = key
      · rw [if_pos gone] at found
        cases found
      · rw [if_neg gone] at found
        exact Or.inl (same found rfl)
  | insert key guestPort state now =>
    have fresh : (inner.apply (.insert key guestPort state now)).conns = inner.conns.insert key
          (Conn.new guestPort state Budget.opened (inner.nextId + 1) now) := by
      simp only [apply]
      cases inner.conns.lookup key <;> rfl
    rw [fresh, Table.lookup_insert_ite] at found
    by_cases mine : tested = key
    · grind
    · rw [if_neg mine] at found
      exact Or.inl (same found rfl)
  | finish now =>
    obtain ⟨held, same⟩ := lookup_finishDone now inner tested
    obtain ⟨before, present, rfl⟩ := Option.map_eq_some_iff.mp (same.symm.trans found)
    exact Or.inl ⟨before, present, rfl, rfl, by simp [Move.consumed], fun _ => rfl, id, id⟩
  | reset => exact absurd found (by simp [apply, Inner.reset])
  | deliver room =>
    refine Or.inl (same ?_ rfl)
    simp only [apply, deliverNext] at found
    cases popped : inner.outbox.popFront with
    | none => simpa only [popped] using found
    | some pair => simpa only [popped] using found
  | halfClose key =>
    refine Or.inl (same ?_ rfl)
    obtain ⟨conn, present, _⟩ := sound
    simp only [apply] at found
    rw [onConn_present present] at found
    exact found
  | aside fields | queue packet | dropInput key | complete heads => exact Or.inl (same found rfl)
/-- Connections stay filed under their guest ports. -/
theorem keyed_apply {move : Move} (keyed : Keyed inner) (sound : Sound inner move) :
    Keyed (inner.apply move) := by
  intro key conn found
  rcases lookup_apply sound key conn found with ⟨before, present, descends⟩ | opened
  · rw [descends.guestPort]
    exact keyed key before present
  · obtain ⟨guestPort, state, now, same, rfl⟩ := opened
    subst same
    exact sound

/-- Giving chains back touches the counts of held chains and nothing else. -/
theorem giveBack_rest (now : Nat) (list : List UInt16) (start : Inner) :
    (list.foldl (giveBack now) start).txRing = start.txRing ∧
      (list.foldl (giveBack now) start).done = start.done ∧
      (list.foldl (giveBack now) start).outbox = start.outbox ∧
      (list.foldl (giveBack now) start).nextId = start.nextId := by
  induction list generalizing start with
  | nil => exact ⟨rfl, rfl, rfl, rfl⟩
  | cons head rest ih =>
    have one : (giveBack now start head).txRing = start.txRing ∧
        (giveBack now start head).done = start.done ∧
        (giveBack now start head).outbox = start.outbox ∧
        (giveBack now start head).nextId = start.nextId := by
      unfold giveBack
      simp only
      split
      · exact ⟨rfl, rfl, rfl, rfl⟩
      · grind
    obtain ⟨ring, done, outbox, nextId⟩ := ih (giveBack now start head)
    exact ⟨ring.trans one.1, done.trans one.2.1, outbox.trans one.2.2.1, nextId.trans one.2.2.2⟩

end Inner

namespace Move

/-- Taking a chain and giving chains back. -/
def changesHolders : Move → Bool
  | .hold _ _ _ | .finish _ => true
  | _ => false

/-- Queueing, dropping and delivering packets. -/
def changesOutbox : Move → Bool
  | .queue _ | .send _ _ | .halfClose _ | .dropInput _ | .deliver _ | .reset => true
  | _ => false

/-- Opening a connection. -/
def opens : Move → Bool
  | .insert _ _ _ _ => true
  | _ => false

end Move

/-- What a move leaves as it was. -/
structure Frame (move : Move) (before after : Inner) : Prop where
  txRing : after.txRing = before.txRing
  holders : move.changesHolders = false → after.holders = before.holders
  outbox : move.changesOutbox = false → after.outbox = before.outbox
  nextId : move.opens = false → after.nextId = before.nextId

/-- Every sound move stays within its frame. -/
theorem Inner.apply_frame {inner : Inner} {move : Move} (sound : Sound inner move) :
    Frame move inner (inner.apply move) := by
  cases move with
  | finish now =>
    obtain ⟨ring, _, outbox, nextId⟩ := giveBack_rest now inner.done { inner with done := [] }
    exact ⟨ring, nofun, fun _ => outbox, fun _ => nextId⟩
  | send key payload =>
    obtain ⟨conn, found, _⟩ := sound
    simp only [apply]
    rw [onConn_present found, sendPacket_present found]
    exact ⟨rfl, fun _ => rfl, nofun, fun _ => rfl⟩
  | insert key guestPort state now =>
    simp only [apply]
    cases inner.conns.lookup key <;> exact ⟨rfl, fun _ => rfl, fun _ => rfl, nofun⟩
  | deliver room =>
    simp only [apply, deliverNext]
    cases inner.outbox.popFront <;> exact ⟨rfl, fun _ => rfl, nofun, fun _ => rfl⟩
  | hold key head spans =>
    simp only [apply, onConn]
    cases inner.conns.lookup key with
    | none | some conn => exact ⟨rfl, nofun, fun _ => rfl, fun _ => rfl⟩
  | halfClose key =>
    simp only [apply, onConn]
    cases inner.conns.lookup key <;> exact ⟨rfl, fun _ => rfl, nofun, fun _ => rfl⟩
  | consume key bytes | arrive key bytes | leave key left finished taken
  | grow key | shrink key | remove key =>
    simp only [apply, onConn]
    cases inner.conns.lookup key <;> exact ⟨rfl, fun _ => rfl, fun _ => rfl, fun _ => rfl⟩
  | queue packet | dropInput key | reset => exact ⟨rfl, fun _ => rfl, nofun, fun _ => rfl⟩
  | edit key conn | aside fields | complete heads =>
    exact ⟨rfl, fun _ => rfl, fun _ => rfl, fun _ => rfl⟩

/-- No connection has an identity that was not given out. -/
def Numbered (inner : Inner) : Prop :=
  ∀ key conn, inner.conns.lookup key = some conn → conn.id ≤ inner.nextId

namespace Inner

variable {inner : Inner} {move : Move}

/-- Identities are given out in order. -/
theorem nextId_apply (sound : Sound inner move) : inner.nextId ≤ (inner.apply move).nextId := by
  cases opening : move.opens with
  | false => exact ((apply_frame sound).nextId opening).ge
  | true =>
    cases move with
    | insert key guestPort state now =>
      simp only [apply]
      cases inner.conns.lookup key <;> exact Nat.le_succ _
    | _ => cases opening

theorem numbered_apply (numbered : Numbered inner) (sound : Sound inner move) :
    Numbered (inner.apply move) := by
  intro key conn found
  rcases lookup_apply sound key conn found with ⟨before, present, descends⟩ | opened
  · rw [descends.id]
    exact (numbered key before present).trans (nextId_apply sound)
  obtain ⟨guestPort, state, now, same, rfl⟩ := opened
  subst same
  simp only [apply]
  cases inner.conns.lookup key <;> exact Nat.le_refl _

/-- A property of the outbox that queueing, dropping and delivering keep is kept by
every sound move. -/
theorem outbox_apply {holds : Outbox → Prop} (sound : Sound inner move)
    (pushed : ∀ outbox packet, packet.payload.length ≤ maxPayload → holds outbox →
      holds (outbox.pushBack packet))
    (retained : ∀ outbox keep, holds outbox → holds (outbox.retain keep))
    (delivered : ∀ room, holds inner.outbox → holds (inner.deliverNext room).outbox)
    (emptied : holds Outbox.empty) (initial : holds inner.outbox) :
    holds (inner.apply move).outbox := by
  cases move with
  | queue packet =>
    obtain ⟨⟨_, bare⟩, _⟩ := sound
    refine pushed _ packet ?_ initial
    rw [bare]
    exact Nat.zero_le _
  | send key payload =>
    obtain ⟨conn, found, _, fits⟩ := sound
    rw [apply, onConn_present found, sendPacket_present found]
    exact pushed _ (rwPacket key conn.window conn.credit.fwdCnt payload) fits initial
  | halfClose key =>
    obtain ⟨conn, found, _⟩ := sound
    rw [apply, onConn_present found]
    exact pushed _ (halfClosePacket key conn) (Nat.zero_le _) initial
  | dropInput key => exact retained _ _ initial
  | deliver room => exact delivered room initial
  | reset => exact emptied
  | _ =>
    rw [(apply_frame sound).outbox rfl]
    exact initial

/-- Delivery keeps every packet in its lane. -/
theorem deliverNext_sorted (room : Nat) (sorted : inner.outbox.Sorted) :
    (inner.deliverNext room).outbox.Sorted := by
  unfold deliverNext
  cases popped : inner.outbox.popFront with
  | none => exact sorted
  | some pair => grind [Outbox.popFront_sorted, Device.cut, Outbox.pushFront_sorted]

theorem sorted_apply (sorted : inner.outbox.Sorted) (sound : Sound inner move) :
    (inner.apply move).outbox.Sorted :=
  outbox_apply sound (fun outbox packet _ before => Outbox.pushBack_sorted outbox packet before)
    Outbox.retain_sorted (fun room before => deliverNext_sorted room before)
    Outbox.empty_sorted sorted

end Inner
end Lighter.Vsock
