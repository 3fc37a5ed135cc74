import Lighter.Vsock.GracefulClose
import Lighter.Vsock.Turns

/-!
# How many packets wait for the guest

Senders are held back once a lane has as many packets as its limit. What the
device says in answer to a guest packet is queued without a look at the limit: a
refusal, the response to an accepted request, a credit update asked for, and the
reset that ends a close. So a lane stays within a bound exactly as long as the
answers themselves find room, and a guest that takes nothing can make it as long
as it likes.

The sections here are the guest's packets and the host's sends. Answers are given
as functions of the state before the packet, with what the packet does to the
outbox and to the number of connections.
-/

namespace Lighter.Vsock

open Packet Transition List Table
open Table (size)

variable {inner : Inner} {key : ConnKey}

namespace Outbox

/-- How many packets wait in one of the lanes. -/
def waiting (outbox : Outbox) (control : Bool) : Nat :=
  if control then outbox.control.length else outbox.bulk.length

/-- The lane a connection's packets wait in. -/
def laneOf (key : ConnKey) : Bool := isControl (Packet.control .rw key.1 key.2)

variable (outbox : Outbox)

theorem waiting_pushBack (packet : Packet) (lane : Bool) :
    (outbox.pushBack packet).waiting lane =
      outbox.waiting lane + if isControl packet = lane then 1 else 0 := by
  cases lane <;> cases kind : isControl packet <;> simp [waiting, pushBack, kind]

theorem waiting_retain_le (keep : Packet → Bool) (lane : Bool) :
    (outbox.retain keep).waiting lane ≤ outbox.waiting lane := by
  cases lane <;> exact length_filter_le _ _

theorem room_eq (key : ConnKey) : outbox.room key = outboxLimit - outbox.waiting (laneOf key) := rfl

/-- An answer, if there is one, queued last. -/
def add (outbox : Outbox) : Option Packet → Outbox
  | none => outbox
  | some reply => outbox.pushBack reply

/-- How many packets an answer adds to a lane. -/
def adds (reply : Option Packet) (lane : Bool) : Nat :=
  if reply.any fun packet => isControl packet == lane then 1 else 0

theorem waiting_add (reply : Option Packet) (lane : Bool) :
    (outbox.add reply).waiting lane = outbox.waiting lane + adds reply lane := by
  cases reply with
  | none => rfl
  | some packet => simp [add, adds, waiting_pushBack]

end Outbox

namespace Inner

/-- The refusal of a packet for a connection that is not there. -/
def refusal (key : ConnKey) : Packet :=
  { Packet.control .rst key.1 key.2 with bufAlloc := Credit.bufAlloc }

/-- A close can be finished with the connection as it is. -/
def Finished (conn : Conn) : Prop :=
  conn.state = .closed ∨
    ((conn.guestDone ∧ conn.guestReceiveClosed) ∧ conn.received = conn.credit.fwdCnt)

instance (conn : Conn) : Decidable (Finished conn) := inferInstanceAs (Decidable (_ ∨ _))

/-- A payload without a connection is refused. -/
def answerRw (inner : Inner) (key : ConnKey) : Option Packet :=
  match inner.conns.lookup key with
  | none => some (refusal key)
  | some _ => none

/-- A declaration that finishes a close is answered with the reset. -/
def answerShutdown (inner : Inner) (key : ConnKey) (flags : UInt32) : Option Packet :=
  match inner.conns.lookup key with
  | none => none
  | some conn =>
      if Finished (declareShutdown conn flags) then
        some { Packet.control .rst key.1 key.2 with
          bufAlloc := conn.window, fwdCnt := conn.credit.fwdCnt }
      else none

def answerCreditRequest (inner : Inner) (key : ConnKey) : Option Packet :=
  match inner.conns.lookup key with
  | none => none
  | some conn =>
      some { Packet.control .creditUpdate key.1 conn.guestPort with
        bufAlloc := conn.window, fwdCnt := conn.credit.fwdCnt }

/-- A request is always answered. -/
def answerRequest (inner : Inner) (key : ConnKey) : Option Packet :=
  if (inner.offer key.1 key).2 then
    some { Packet.control .response key.1 key.2 with bufAlloc := Budget.opened }
  else some (refusal key)

/-- What the device says to a packet from the guest. -/
def answer (inner : Inner) (packet : Packet) : Option Packet :=
  match packet.op with
  | .rw => inner.answerRw (guestKey packet)
  | .shutdown => inner.answerShutdown (guestKey packet) packet.flags
  | .creditRequest => inner.answerCreditRequest (guestKey packet)
  | .request => inner.answerRequest (guestKey packet)
  | _ => none

/-- What is left waiting when a connection's guest declares ends closed: one that no
longer receives loses its connection's data. -/
def leftByShutdown (inner : Inner) (key : ConnKey) (flags : UInt32) : Outbox :=
  match inner.conns.lookup key with
  | none => inner.outbox
  | some conn =>
      if (declareShutdown conn flags).guestReceiveClosed then (inner.dropInput key).outbox
      else inner.outbox

/-- What is left waiting before the answer. -/
def leftWaiting (inner : Inner) (packet : Packet) : Outbox :=
  match packet.op with
  | .shutdown => inner.leftByShutdown (guestKey packet) packet.flags
  | _ => inner.outbox

/-- Whether a packet takes a connection out of the table. -/
def ends (inner : Inner) (packet : Packet) : Bool :=
  match packet.op with
  | .rst => (inner.conns.lookup (guestKey packet)).isSome
  | .shutdown => (inner.answerShutdown (guestKey packet) packet.flags).isSome
  | _ => false

/-- Whether a packet puts a further connection in the table. -/
def opens (inner : Inner) (packet : Packet) : Bool :=
  match packet.op with
  | .request =>
      (inner.offer (guestKey packet).1 (guestKey packet)).2 &&
        (inner.conns.lookup (guestKey packet)).isNone
  | _ => false

/-- Neither the outbox nor the number of connections changes. -/
structure Quiet (before after : Inner) : Prop where
  outbox : after.outbox = before.outbox
  size : Table.size after.conns = Table.size before.conns

namespace Quiet

theorem refl (inner : Inner) : Quiet inner inner := ⟨rfl, rfl⟩

theorem trans {before middle after : Inner} (first : Quiet before middle)
    (second : Quiet middle after) : Quiet before after :=
  ⟨second.outbox.trans first.outbox, second.size.trans first.size⟩

theorem touch (inner : Inner) (key : ConnKey) : Quiet inner (inner.touch key) :=
  ⟨outbox_touch inner key, by rw [conns_touch]⟩

theorem set {conn : Conn} (found : inner.conns.lookup key = some conn) (changed : Conn) :
    Quiet inner (inner.set key changed) :=
  ⟨rfl, size_insert_present found changed⟩

variable (inner) (key)

theorem modify (change : Conn → Conn) : Quiet inner (inner.modify key change) := by
  cases found : inner.conns.lookup key with
  | none =>
    rw [modify_absent found]
    exact refl inner
  | some conn =>
    rw [modify_present found]
    exact set found _

theorem hold (head : UInt16) (spans : List (Nat × Nat)) :
    Quiet inner (inner.apply (.hold key head spans)) :=
  onConn_holds (Quiet inner) (refl inner) fun _ found => ⟨rfl, size_insert_present found _⟩

theorem arrive (bytes : List UInt8) : Quiet inner (inner.apply (.arrive key bytes)) :=
  onConn_holds (Quiet inner) (refl inner) fun _ found => set found _

theorem observe (packet : Packet) : Quiet inner (inner.observe key packet) := by
  unfold Inner.observe
  cases inner.conns.lookup key with
  | none => exact refl inner
  | some _ => exact (modify inner key _).trans (touch _ key)

end Quiet

variable {before after : Inner}

theorem remove_size (inner : Inner) (key : ConnKey) :
    (inner.remove key).1.outbox = inner.outbox ∧
      size (inner.remove key).1.conns +
          (if (inner.conns.lookup key).isSome then 1 else 0) =
        size inner.conns := by
  simp only [remove, conns_touch]
  cases found : inner.conns.lookup key with
  | none => exact ⟨outbox_touch inner key, by simp⟩
  | some conn =>
    refine ⟨outbox_touch inner key, ?_⟩
    simp only [conns_retire, Option.isSome_some, if_true]
    exact size_erase found

theorem insert_size (inner : Inner) (key : ConnKey) (guestPort : UInt32) (state : State)
    (now : Nat) :
    (inner.insert key guestPort state now).1.outbox = inner.outbox ∧
      size (inner.insert key guestPort state now).1.conns =
        size inner.conns + (if (inner.conns.lookup key).isNone then 1 else 0) ∧
      (inner.insert key guestPort state now).2.window = Budget.opened := by
  simp only [insert]
  cases found : inner.conns.lookup key with
  | none => exact ⟨rfl, size_insert_absent found _, rfl⟩
  | some conn =>
    refine ⟨outbox_touch _ key, ?_, rfl⟩
    simp only [conns_retire, conns_touch]
    exact size_insert_present found _

/-- What one packet from the guest does to the outbox and to the number of
connections. -/
structure Answers (before after : Inner) (left : Outbox) (reply : Option Packet)
    (opened ended : Bool) : Prop where
  outbox : after.outbox = left.add reply
  size : Table.size after.conns + ended.toNat = Table.size before.conns + opened.toNat

theorem Quiet.answers (quiet : Quiet before after) :
    Answers before after before.outbox none false false :=
  ⟨quiet.outbox, by simp [quiet.size]⟩

/-- Quiet work beforehand does not show. -/
theorem Answers.after_quiet {middle : Inner} {left : Outbox} {reply : Option Packet}
    {opened ended : Bool} (quiet : Quiet before middle)
    (answers : Answers middle after left reply opened ended) :
    Answers before after left reply opened ended :=
  ⟨answers.outbox, by rw [← quiet.size]; exact answers.size⟩

theorem finishShutdown_answers {conn : Conn} (found : inner.conns.lookup key = some conn) :
    Answers inner (inner.finishShutdown key) inner.outbox
      (if Finished conn then
        some { Packet.control .rst key.1 key.2 with
          bufAlloc := conn.window, fwdCnt := conn.credit.fwdCnt }
      else none) false (decide (Finished conn)) := by
  unfold finishShutdown
  simp only [found]
  by_cases finished : Finished conn
  · have ready : ¬(¬conn.state = .closed ∧
        ¬((conn.guestDone ∧ conn.guestReceiveClosed) ∧ conn.received = conn.credit.fwdCnt)) :=
      fun waits => finished.elim waits.1 waits.2
    rw [if_neg ready, if_pos finished]
    generalize ({ Packet.control .rst key.1 key.2 with
      bufAlloc := conn.window, fwdCnt := conn.credit.fwdCnt } : Packet) = reset
    have queued : (inner.queue reset).conns.lookup key = some conn := found
    obtain ⟨outbox, size⟩ := remove_size (inner.queue reset) key
    refine ⟨outbox, ?_⟩
    rw [queued] at size
    simp only [finished, decide_true, Bool.toNat_true, Bool.toNat_false]
    exact size
  · have waits : ¬conn.state = .closed ∧
        ¬((conn.guestDone ∧ conn.guestReceiveClosed) ∧ conn.received = conn.credit.fwdCnt) :=
      not_or.mp finished
    rw [if_pos waits, if_neg finished]
    simpa [finished] using (Quiet.refl inner).answers

variable (inner) (key)

theorem handleRw_answers (payload : List UInt8) :
    Answers inner (inner.handleRw key payload) inner.outbox (inner.answerRw key) false
      false := by
  unfold handleRw answerRw
  cases inner.conns.lookup key with
  | none => exact ⟨rfl, rfl⟩
  | some conn =>
    simp only
    split
    · exact (Quiet.refl inner).answers
    · exact (Quiet.modify inner key _).answers

theorem handleShutdown_answers (flags : UInt32) :
    Answers inner (inner.handleShutdown key flags) (inner.leftByShutdown key flags)
      (inner.answerShutdown key flags) false (inner.answerShutdown key flags).isSome := by
  unfold handleShutdown leftByShutdown answerShutdown
  cases found : inner.conns.lookup key with
  | none => exact (Quiet.refl inner).answers
  | some conn =>
    simp only
    rw [modify_present found]
    generalize noted : declareShutdown conn flags = declared
    have kept : conn.window = declared.window ∧
        conn.credit.fwdCnt = declared.credit.fwdCnt := by
      subst noted
      exact ⟨rfl, rfl⟩
    let middle := if declared.guestReceiveClosed then (inner.set key declared).dropInput key
      else inner.set key declared
    have stands : middle.conns.lookup key = some declared := by
      unfold middle
      split <;> exact lookup_set_self inner key declared
    have size : size middle.conns = size inner.conns := by
      unfold middle
      split <;> exact size_insert_present found declared
    have left : middle.outbox = if declared.guestReceiveClosed then
        (inner.dropInput key).outbox else inner.outbox := by
      unfold middle
      split <;> rfl
    obtain ⟨outbox, count⟩ := finishShutdown_answers stands
    rw [left] at outbox
    rw [size] at count
    rw [kept.1, kept.2]
    refine ⟨outbox, ?_⟩
    by_cases finished : Finished declared
    · simpa [finished] using count
    · simpa [finished] using count

theorem handleCreditRequest_answers :
    Answers inner (inner.handleCreditRequest key) inner.outbox (inner.answerCreditRequest key)
      false false := by
  unfold handleCreditRequest answerCreditRequest
  cases inner.conns.lookup key with
  | none => exact (Quiet.refl inner).answers
  | some conn =>
    have quiet := Quiet.modify inner key fun conn => { conn with unreported := 0 }
    refine ⟨?_, congrArg (· + 0) quiet.size⟩
    change (inner.modify key _).outbox.pushBack _ = _
    rw [quiet.outbox]
    rfl

variable (packet : Packet)

theorem handleRequest_answers (now : Nat) :
    Answers inner (inner.handleRequest key packet now) inner.outbox (inner.answerRequest key)
      ((inner.offer key.1 key).2 && (inner.conns.lookup key).isNone) false := by
  unfold handleRequest answerRequest
  obtain ⟨waiting, _, table⟩ := inner.offer_rest key.1 key
  generalize inner.offer key.1 key = offer at waiting table
  obtain ⟨next, accepted⟩ := offer
  cases accepted with
  | false =>
    refine ⟨?_, congrArg size table⟩
    change next.outbox.pushBack _ = _
    rw [waiting]
    rfl
  | true =>
    obtain ⟨outbox, size, window⟩ := insert_size next key key.2 .established now
    simp only [if_true]
    generalize next.insert key key.2 .established now = entered at outbox size window ⊢
    obtain ⟨after, conn⟩ := entered
    have quiet := Quiet.modify after key fun conn =>
      { conn with credit := conn.credit.observe packet.bufAlloc packet.fwdCnt }
    constructor
    · change (after.modify key _).outbox.pushBack _ = _
      rw [quiet.outbox, outbox, waiting, window]
      rfl
    · change Table.size (after.modify key _).conns + 0 = _
      rw [quiet.size, size, table]
      cases (inner.conns.lookup key).isNone <;> rfl

theorem offer_observe :
    ((inner.observe key packet).offer key.1 key).2 = (inner.offer key.1 key).2 := by
  have listeners : (inner.observe key packet).listeners = inner.listeners := by
    unfold observe modify touch
    cases inner.conns.lookup key with
    | none => rfl
    | some conn =>
      split_ifs <;> rfl
  unfold offer
  rw [listeners]
  cases inner.listeners.lookup key.1 with
  | none => rfl
  | some listener =>
    simp only
    split_ifs <;> rfl

variable {key}

/-- A packet from the guest queues its answer and nothing else, opens at most one
connection and ends at most one.

Proof: the credit it carries is heard first, which no answer depends on; then each
operation by its own lemma. -/
theorem handle_answers (now : Nat) :
    Answers inner (inner.handle packet now) (inner.leftWaiting packet) (inner.answer packet)
      (inner.opens packet) (inner.ends packet) := by
  have quiet := Quiet.observe inner (guestKey packet) packet
  have found := (inner.observe_rest (guestKey packet) packet).2.2
  have offered := offer_observe inner (guestKey packet) packet
  unfold handle leftWaiting answer opens ends
  generalize guestKey packet = key at quiet found offered ⊢
  let heard := inner.observe key packet
  cases packet.op with
  | invalid => exact quiet.answers
  | creditUpdate => exact quiet.answers
  | response => exact (quiet.trans (Quiet.modify _ key _)).answers
  | rst =>
    obtain ⟨outbox, size⟩ := remove_size heard key
    refine ⟨outbox.trans quiet.outbox, ?_⟩
    rw [quiet.size, found] at size
    cases present : inner.conns.lookup key <;> simpa [present] using size
  | rw =>
    have answers := (handleRw_answers heard key packet.payload).after_quiet quiet
    have same : heard.answerRw key = inner.answerRw key := by
      unfold answerRw
      rw [found]
      cases inner.conns.lookup key <;> rfl
    rw [quiet.outbox, same] at answers
    exact answers
  | shutdown =>
    have answers := (handleShutdown_answers heard key packet.flags).after_quiet quiet
    have same : heard.answerShutdown key packet.flags = inner.answerShutdown key packet.flags := by
      unfold answerShutdown
      rw [found]
      cases inner.conns.lookup key <;> rfl
    have left : heard.leftByShutdown key packet.flags = inner.leftByShutdown key packet.flags := by
      unfold leftByShutdown dropInput
      rw [found, quiet.outbox]
      cases inner.conns.lookup key <;> rfl
    rw [left, same] at answers
    exact answers
  | creditRequest =>
    have answers := (handleCreditRequest_answers heard key).after_quiet quiet
    have same : heard.answerCreditRequest key = inner.answerCreditRequest key := by
      unfold answerCreditRequest
      rw [found]
      cases inner.conns.lookup key <;> rfl
    rw [quiet.outbox, same] at answers
    exact answers
  | request =>
    have answers := (handleRequest_answers heard key packet now).after_quiet quiet
    have fresh : (heard.conns.lookup key).isNone = (inner.conns.lookup key).isNone := by
      rw [found]
      cases inner.conns.lookup key <;> rfl
    have same : heard.answerRequest key = inner.answerRequest key := by
      unfold answerRequest
      rw [offered]
    rw [quiet.outbox, same, offered, fresh] at answers
    exact answers

variable {inner}

/-- A payload in the guest's buffers is answered like one in the packet. -/
theorem handleGuestRw_answers (settings : Settings) (memory : GuestMemory) (inner : Inner)
    (packet : Packet) (head : UInt16) (spans : List (Nat × Nat)) (now : Nat) :
    Answers inner (inner.handleGuestRw settings memory packet head spans now).1 inner.outbox
      (inner.answerRw (guestKey packet)) false false := by
  rcases handleGuestRw_cases settings memory inner packet head spans now with
    ⟨absent, outcome⟩ | ⟨conn, found, outcome⟩
  · rw [outcome, answerRw, absent]
    exact ⟨rfl, rfl⟩
  have silent : inner.answerRw (guestKey packet) = none := by rw [answerRw, found]
  rw [silent]
  have counted := Quiet.set found (Inner.counted conn packet spans now)
  rcases outcome with ⟨_, outcome⟩ | ⟨_, _, _, outcome⟩ | ⟨_, outcome⟩
  · rw [outcome]
    exact ((Quiet.set found _).trans (Quiet.touch _ _)).answers
  · rw [outcome]
    exact ((counted.trans (Quiet.hold _ _ head spans)).trans (Quiet.touch _ _)).answers
  · rw [outcome]
    exact ((counted.trans (Quiet.arrive _ _ _)).trans (Quiet.touch _ _)).answers

/-- A send fills a lane up to the limit at most, and opens and ends nothing. -/
structure Fills (before after : Inner) : Prop where
  waiting : ∀ lane, after.outbox.waiting lane ≤ max (before.outbox.waiting lane) outboxLimit
  size : Table.size after.conns = Table.size before.conns

theorem Quiet.fills (quiet : Quiet before after) : Fills before after :=
  ⟨fun _ => by rw [quiet.outbox]; exact Nat.le_max_left _ _, quiet.size⟩

theorem sendPacket_waiting (inner : Inner) (key : ConnKey) (window fwdCnt : UInt32)
    (payload : List UInt8) (lane : Bool) :
    (inner.sendPacket key window fwdCnt payload).outbox.waiting lane =
        inner.outbox.waiting lane + (if Outbox.laneOf key = lane then 1 else 0) ∧
      size (inner.sendPacket key window fwdCnt payload).conns = size inner.conns := by
  constructor
  · rw [outbox_sendPacket, Outbox.waiting_pushBack]
    rfl
  · exact (Quiet.modify (inner.queue (rwPacket key window fwdCnt payload)) key _).size

variable (key)

/-- The loop queues at most as many packets as it was given room for. -/
theorem sendLoop_waiting (window fwdCnt : UInt32) (room allowed : Nat)
    (data : List UInt8) (inner : Inner) (lane : Bool) :
    (sendLoop key window fwdCnt room allowed data inner).1.outbox.waiting lane ≤
        inner.outbox.waiting lane + (if Outbox.laneOf key = lane then room else 0) ∧
      size (sendLoop key window fwdCnt room allowed data inner).1.conns =
        size inner.conns := by
  induction room generalizing allowed data inner with
  | zero => exact ⟨Nat.le_add_right _ _, rfl⟩
  | succ room ih =>
    rw [sendLoop]
    split
    · exact ⟨Nat.le_add_right _ _, rfl⟩
    simp only
    generalize min (min allowed maxPayload) data.length = count
    obtain ⟨one, table⟩ := sendPacket_waiting inner key window fwdCnt (data.take count) lane
    obtain ⟨more, others⟩ := ih (allowed - count) (data.drop count)
      (inner.sendPacket key window fwdCnt (data.take count))
    refine ⟨?_, others.trans table⟩
    rw [one] at more
    split_ifs at more ⊢ <;> omega

theorem sendLoop_fills (window fwdCnt : UInt32) (allowed : Nat)
    (data : List UInt8) (inner : Inner) : Fills inner
      (sendLoop key window fwdCnt (inner.outbox.room key) allowed data inner).1 := by
  constructor
  · intro lane
    obtain ⟨filled, _⟩ :=
      sendLoop_waiting key window fwdCnt (inner.outbox.room key) allowed data inner lane
    refine filled.trans ?_
    rw [Outbox.room_eq]
    split_ifs with mine
    · rw [mine]
      omega
    · omega
  · exact (sendLoop_waiting key window fwdCnt _ allowed data inner true).2

variable (inner) (data : List UInt8)

theorem trySend_fills : Fills inner (inner.trySend key data).1 := by
  unfold trySend
  cases inner.conns.lookup key with
  | none => exact (Quiet.refl inner).fills
  | some conn =>
    simp only
    split
    · exact (Quiet.refl inner).fills
    · cases conn.state with
      | connecting | closed => exact (Quiet.refl inner).fills
      | established => exact sendLoop_fills key _ _ _ data inner

theorem sendPass_fills : Fills inner (inner.sendPass key data).1 := by
  unfold sendPass
  cases inner.conns.lookup key with
  | none => exact (Quiet.refl inner).fills
  | some conn =>
    simp only
    split
    · exact (Quiet.refl inner).fills
    · split
      · exact (Quiet.refl inner).fills
      · exact sendLoop_fills key _ _ _ data inner

theorem sendOwnedPiece_fills : Fills inner (inner.sendOwnedPiece key data).1 := by
  unfold sendOwnedPiece
  cases inner.conns.lookup key with
  | none => exact (Quiet.refl inner).fills
  | some conn =>
    simp only
    split
    · exact (Quiet.refl inner).fills
    cases conn.state with
    | connecting | closed => exact (Quiet.refl inner).fills
    | established =>
      simp only
      split
      · exact (Quiet.refl inner).fills
      next open_ =>
      have room : 0 < inner.outbox.room key := Nat.pos_of_ne_zero (not_or.mp open_).1
      rw [Outbox.room_eq] at room
      constructor
      · intro lane
        rw [(sendPacket_waiting inner key _ _ _ lane).1]
        split_ifs with mine
        · rw [← mine]
          omega
        · omega
      · exact (sendPacket_waiting inner key _ _ _ true).2

theorem trySendOwned_fills : Fills inner (inner.trySendOwned key data).1 := by
  unfold trySendOwned
  split
  · grind [sendOwnedPiece_fills]
  · exact sendOwnedPiece_fills inner key data

variable {key} {inner}

/-- Every lane is within the limit, with so many packets more for each connection in
the table. -/
def Bounded (constant : Nat) (inner : Inner) : Prop :=
  ∀ lane, inner.outbox.waiting lane ≤ outboxLimit + constant * Table.size inner.conns

instance (constant : Nat) (inner : Inner) : Decidable (Bounded constant inner) :=
  inferInstanceAs (Decidable (∀ _ : Bool, _))

end Inner

namespace Act

/-- A packet from the guest, or a send by the host. -/
def Traffic : Act → Prop
  | .handle _ _ | .guestRw _ _ _ _ _ => True
  | .trySend _ _ | .trySendOwned _ _ | .sendPass _ _ => True
  | _ => False

/-- The answer a section gives the guest. -/
def answer (inner : Inner) : Act → Option Packet
  | .handle packet _ => inner.answer packet
  | .guestRw _ packet _ _ _ => inner.answerRw (guestKey packet)
  | _ => none

/-- What a section leaves waiting before it answers. -/
def leftWaiting (inner : Inner) : Act → Outbox
  | .handle packet _ => inner.leftWaiting packet
  | _ => inner.outbox

def opens (inner : Inner) : Act → Bool
  | .handle packet _ => inner.opens packet
  | _ => false

def ends (inner : Inner) : Act → Bool
  | .handle packet _ => inner.ends packet
  | _ => false

/-- The connections in the table once a section is over. -/
def connections (inner : Inner) (act : Act) : Nat :=
  Table.size inner.conns + (act.opens inner).toNat - (act.ends inner).toNat

/-- An answer finds room in its lane, and a section that ends a connection leaves no
more waiting than the other connections account for. -/
structure Roomy (constant : Nat) (inner : Inner) (act : Act) : Prop where
  answered : ∀ reply, act.answer inner = some reply →
    (act.leftWaiting inner).waiting (Outbox.isControl reply) <
      outboxLimit + constant * act.connections inner
  ended : act.ends inner = true → ∀ lane,
    (act.leftWaiting inner).waiting lane ≤ outboxLimit + constant * act.connections inner

end Act

theorem Inner.leftWaiting_le (inner : Inner) (packet : Packet) (lane : Bool) :
    (inner.leftWaiting packet).waiting lane ≤ inner.outbox.waiting lane := by
  unfold leftWaiting
  split
  · unfold leftByShutdown
    cases inner.conns.lookup (guestKey packet) with
    | none => exact Nat.le_refl _
    | some conn =>
      simp only
      split
      · exact Outbox.waiting_retain_le _ _ lane
      · exact Nat.le_refl _
  · exact Nat.le_refl _

/-- A guest packet keeps the bound exactly when its answer finds room. -/
theorem Inner.Answers.bounded_iff {constant : Nat} {after : Inner} {act : Act}
    (bounded : inner.Bounded constant)
    (answers : inner.Answers after (act.leftWaiting inner) (act.answer inner)
      (act.opens inner) (act.ends inner))
    (left : ∀ lane, (act.leftWaiting inner).waiting lane ≤ inner.outbox.waiting lane) :
    after.Bounded constant ↔ act.Roomy constant inner := by
  have size : Table.size after.conns = act.connections inner := by
    have count := answers.size
    unfold Act.connections
    omega
  have lanes (lane : Bool) : after.outbox.waiting lane =
      (act.leftWaiting inner).waiting lane + Outbox.adds (act.answer inner) lane := by
    rw [answers.outbox, Outbox.waiting_add]
  constructor
  · intro kept
    constructor
    · intro reply drawn
      have within := kept (Outbox.isControl reply)
      rw [lanes, size, drawn] at within
      simpa [Outbox.adds] using within
    · intro _ lane
      have within := kept lane
      rw [lanes, size] at within
      omega
  intro roomy lane
  have before := (left lane).trans (bounded lane)
  rw [lanes, size]
  -- The lane left is within the bound, which shrinks only with the table.
  have within : (act.leftWaiting inner).waiting lane ≤
      outboxLimit + constant * act.connections inner := by
    cases ended : act.ends inner with
    | true => exact roomy.ended ended lane
    | false =>
      have more : Table.size inner.conns ≤ act.connections inner := by
        simp [Act.connections, ended]
      exact before.trans (Nat.add_le_add_left (Nat.mul_le_mul_left constant more) _)
  cases drawn : act.answer inner with
  | none => exact within
  | some reply =>
    have answered := roomy.answered
    grind [Outbox.isControl, Outbox.adds]

/-- A send keeps the bound, and asks for nothing. -/
theorem Inner.Fills.bounded {constant : Nat} {after : Inner} (bounded : inner.Bounded constant)
    (fills : inner.Fills after) : after.Bounded constant := by
  intro lane
  have filled := fills.waiting lane
  have before := bounded lane
  rw [fills.size]
  omega

theorem Act.roomy_of_silent (constant : Nat) {act : Act} (silent : act.answer inner = none)
    (lasting : act.ends inner = false) : act.Roomy constant inner := by
  constructor
  · intro reply drawn
    rw [silent] at drawn
    cases drawn
  · intro ended
    rw [lasting] at ended
    cases ended

/-- One section of traffic keeps the bound if and only if its answer finds room. -/
theorem bounded_step_iff (settings : Settings) (constant : Nat) (inner : Inner) (act : Act)
    (traffic : act.Traffic) (bounded : inner.Bounded constant) :
    (step settings inner act).Bounded constant ↔ act.Roomy constant inner := by
  cases act with
  | handle packet now =>
    exact (inner.handle_answers packet now).bounded_iff bounded (inner.leftWaiting_le packet)
  | guestRw memory packet head spans now =>
    exact (inner.handleGuestRw_answers settings memory packet head spans now).bounded_iff
      bounded (fun _ => Nat.le_refl _)
  | trySend key data =>
    exact iff_of_true ((inner.trySend_fills key data).bounded bounded)
      (Act.roomy_of_silent constant rfl rfl)
  | trySendOwned key data =>
    exact iff_of_true ((inner.trySendOwned_fills key data).bounded bounded)
      (Act.roomy_of_silent constant rfl rfl)
  | sendPass key data =>
    exact iff_of_true ((inner.sendPass_fills key data).bounded bounded)
      (Act.roomy_of_silent constant rfl rfl)
  | _ => exact traffic.elim

/-- From any state within the bound, over any sequence of guest packets and host
sends with no receive buffer posted: the lanes stay within the limit, and so many
packets more for each connection in the table, at every moment if and only if every
answer a guest packet draws finds room for itself.

Proof: one section at a time. -/
theorem outbox_bounded_iff (settings : Settings) (constant : Nat) (inner : Inner)
    (acts : List Act) (traffic : ∀ act ∈ acts, act.Traffic)
    (bounded : ∀ lane,
      inner.outbox.waiting lane ≤ outboxLimit + constant * Table.size inner.conns) :
    (∀ earlier, earlier <+: acts → ∀ lane,
      (run (step settings) inner earlier).outbox.waiting lane ≤
        outboxLimit + constant * Table.size (run (step settings) inner earlier).conns) ↔
      Legal (Act.Roomy constant) (step settings) inner acts :=
  holds_throughout_iff (Act.Roomy constant) (step settings) Act.Traffic
    (Inner.Bounded constant) (bounded_step_iff settings constant) inner acts traffic bounded

/-- A guest asks for credit twice on a connection that sends in between. -/
def creditAsked : List Act :=
  [.handle { Packet.control .creditRequest 7 5000 with bufAlloc := 64 } 0,
    .trySend (5000, 7) [1, 2, 3],
    .handle (Packet.control .creditRequest 7 5000) 0]

/-- Four packets wait, well within the limit. -/
theorem outbox_bounded_iff_asked :
    (run (step ⟨false, false⟩) openedByGuest creditAsked).outbox.waiting false = 4 ∧
      Legal (Act.Roomy 0) (step ⟨false, false⟩) openedByGuest creditAsked := by
  refine ⟨by decide, (outbox_bounded_iff ⟨false, false⟩ 0 openedByGuest creditAsked ?_
    (by decide)).mp ?_⟩
  · intro act member
    simp only [creditAsked, mem_cons, not_mem_nil, or_false] at member
    rcases member with rfl | rfl | rfl <;> trivial
  intro earlier before
  have short : earlier ∈ creditAsked.inits := (mem_inits _ _).mpr before
  simp only [creditAsked, inits, map, mem_cons, not_mem_nil,
    or_false] at short
  rcases short with rfl | rfl | rfl | rfl <;> decide

/-- Payloads for a connection that is not there are each refused, however many
refusals wait. -/
theorem run_refused (settings : Settings) (packet : Packet) (kind : packet.op = .rw)
    (bulk : Outbox.laneOf (guestKey packet) = false) (count : Nat) (inner : Inner)
    (absent : inner.conns.lookup (guestKey packet) = none) :
    let after := run (step settings) inner (replicate count (.handle packet 0))
    after.outbox.waiting false = inner.outbox.waiting false + count ∧
      after.conns = inner.conns := by
  induction count generalizing inner with
  | zero => exact ⟨rfl, rfl⟩
  | succ count ih =>
    have handled : inner.handle packet 0 = inner.queue (Inner.refusal (guestKey packet)) := by
      simp [Inner.handle, kind, Inner.observe, Inner.handleRw, absent, Inner.refuse, Inner.refusal]
    have first : step settings inner (.handle packet 0) =
        inner.queue (Inner.refusal (guestKey packet)) := handled
    obtain ⟨waiting, table⟩ := ih (inner.queue (Inner.refusal (guestKey packet))) absent
    rw [replicate_succ, run_cons, first]
    refine ⟨waiting.trans ?_, table⟩
    have one : (inner.queue (Inner.refusal (guestKey packet))).outbox.waiting false =
        inner.outbox.waiting false + 1 := by
      change (inner.outbox.pushBack _).waiting false = _
      rw [Outbox.waiting_pushBack]
      exact congrArg _ (if_pos bulk)
    omega

/-- A guest that sends to a port nobody has makes the device queue more than the
limit with no connection at all, so no constant for each connection bounds it. -/
theorem refusals_exceed_limit :
    let after := run (step ⟨false, false⟩) (Inner.new 0)
      (List.replicate 1025 (.handle (Packet.control .rw 7 5000) 0))
    after.outbox.bulk.length = 1025 ∧
      ∀ constant, outboxLimit + constant * Table.size after.conns < after.outbox.bulk.length := by
  have refused := run_refused ⟨false, false⟩ (Packet.control .rw 7 5000) rfl (by decide) 1025
    (Inner.new 0) rfl
  generalize run (step ⟨false, false⟩) (Inner.new 0) _ = after at refused ⊢
  obtain ⟨waiting, table⟩ := refused
  have long : after.outbox.bulk.length = 1025 := by
    simp only [Outbox.waiting, Bool.false_eq_true, if_false] at waiting
    exact waiting
  have none : size after.conns = 0 := congrArg size table
  refine ⟨long, ?_⟩
  intro constant
  rw [long, none, Nat.mul_zero, outboxLimit]
  omega

end Lighter.Vsock
