import Lighter.Vsock.Sections

/-!
# A graceful close by the guest

The guest declares that it will send no more and that it will read no more, in
any order and as often as it likes. The connection then ends once every byte
received has been acknowledged, and the end is noticed in two places: when the
guest declares and when the host acknowledges. `Parting` follows one connection
the host never closes, with the unbounded counts of bytes beside the device's
wrapping ones.

The device compares the wrapped counts. They agree with the true ones as long as
less than a lap is outstanding; the credit the device advertises keeps a guest
that honours it far below that.
-/

namespace Lighter.Vsock

open Packet Transition List
open Vsock.Inner (declareShutdown heard lookup_set_self queue resetPacket)

/-- How many resets wait for a connection. -/
def resetsFor (key : ConnKey) (outbox : Outbox) : Nat :=
  (outbox.control ++ outbox.bulk).countP fun packet => packet.op = .rst && packet.key = key

theorem resetsFor_pushBack (key : ConnKey) (outbox : Outbox) (packet : Packet) :
    resetsFor key (outbox.pushBack packet) =
      resetsFor key outbox + if packet.op = .rst ∧ packet.key = key then 1 else 0 := by
  unfold resetsFor Outbox.pushBack
  split
  · grind
  · grind

/-- Dropping stream bytes drops no reset. -/
theorem resetsFor_dropInput (key other : ConnKey) (inner : Inner) :
    resetsFor key (inner.dropInput other).outbox = resetsFor key inner.outbox := by
  unfold resetsFor Inner.dropInput Outbox.retain
  rw [← filter_append, countP_filter]
  apply countP_congr
  intro packet _
  cases kind : packet.op <;> simp

theorem resetsFor_pushFront (key : ConnKey) (outbox : Outbox) (packet : Packet) :
    resetsFor key (outbox.pushFront packet) =
      resetsFor key outbox + if packet.op = .rst ∧ packet.key = key then 1 else 0 := by
  unfold resetsFor Outbox.pushFront
  split
  · grind
  · grind

theorem resetsFor_popFront {outbox rest : Outbox} {packet : Packet}
    (popped : outbox.popFront = some (packet, rest)) (key : ConnKey) :
    resetsFor key outbox =
      resetsFor key rest + if packet.op = .rst ∧ packet.key = key then 1 else 0 := by
  rw [resetsFor, Outbox.popFront_packets popped]
  simp [resetsFor, countP_cons]

/-- Delivery queues no reset: what is put back of a packet stands for it. -/
theorem resetsFor_deliverNext (key : ConnKey) (inner : Inner) (room : Nat) :
    resetsFor key (inner.deliverNext room).outbox ≤ resetsFor key inner.outbox := by
  unfold Inner.deliverNext
  cases popped : inner.outbox.popFront with
  | none => exact Nat.le_refl _
  | some pair =>
    obtain ⟨packet, later⟩ := pair
    rw [resetsFor_popFront popped key]
    unfold Device.cut
    by_cases long : packet.payload.length > room
    · simp only [if_pos long, resetsFor_pushFront]
      exact Nat.le_refl _
    · simp only [if_neg long]
      exact Nat.le_add_right _ _

/-- A connection is still there, as far along as it was. -/
structure Abides (before after : Conn) : Prop extends Still before after where
  id : after.id = before.id
  fwdCnt : after.credit.fwdCnt = before.credit.fwdCnt

theorem Abides.refl (conn : Conn) : Abides conn conn :=
  ⟨⟨rfl, rfl, rfl, fun was => was⟩, rfl, rfl⟩

theorem Abides.trans {first second third : Conn} (early : Abides first second)
    (late : Abides second third) : Abides first third where
  received := late.received.trans early.received
  guestDone := late.guestDone.trans early.guestDone
  guestReceiveClosed := late.guestReceiveClosed.trans early.guestReceiveClosed
  living := fun was => late.living (early.living was)
  id := late.id.trans early.id
  fwdCnt := late.fwdCnt.trans early.fwdCnt

/-- Work that leaves a key's connection there as it was, and queues no reset for it. -/
structure Stays (key : ConnKey) (before after : Inner) : Prop where
  conn : ∀ earlier, before.conns.lookup key = some earlier →
    ∃ later, after.conns.lookup key = some later ∧ Abides earlier later
  resets : resetsFor key after.outbox ≤ resetsFor key before.outbox

variable {inner before after : Inner} {key : ConnKey} {extra : Move → Prop}

namespace Stays

theorem refl (key : ConnKey) (inner : Inner) : Stays key inner inner :=
  ⟨fun prior found => ⟨prior, found, .refl prior⟩, Nat.le_refl _⟩

theorem trans {middle : Inner} (first : Stays key before middle)
    (second : Stays key middle after) : Stays key before after := by
  refine ⟨?_, second.resets.trans first.resets⟩
  intro prior present
  obtain ⟨between, stands, early⟩ := first.conn prior present
  obtain ⟨later, found, late⟩ := second.conn between stands
  exact ⟨later, found, early.trans late⟩

/-- The table is as it was. -/
theorem of_table (table : after.conns = before.conns)
    (resets : resetsFor key after.outbox ≤ resetsFor key before.outbox) :
    Stays key before after := by
  refine ⟨?_, resets⟩
  intro prior found
  rw [table]
  exact ⟨prior, found, .refl prior⟩

/-- A connection is put where one stood. -/
theorem of_set {other : ConnKey} {conn : Conn} (present : inner.conns.lookup other = some conn)
    (changed : Conn) (table : after.conns = (inner.set other changed).conns)
    (abides : other = key → Abides conn changed)
    (resets : resetsFor key after.outbox ≤ resetsFor key inner.outbox) : Stays key inner after := by
  refine ⟨?_, resets⟩
  intro prior found
  rw [table, Inner.lookup_set]
  by_cases same : key = other
  · grind
  · exact ⟨prior, (if_neg same).trans found, .refl prior⟩

end Stays

/-- Moves that change how far a key's connection has come, or end it. -/
def Move.advances (key : ConnKey) : Move → Bool
  | .edit other _ | .consume other _ | .remove other | .insert other _ _ _ => other = key
  | .queue packet => packet.op = .rst && packet.key = key
  | .reset => true
  | _ => false

/-- Every other move leaves it there. -/
theorem Inner.apply_stays {move : Move} (sound : Sound inner move)
    (legal : Routine inner move ∨ move.advances key = false) :
    Stays key inner (inner.apply move) := by
  cases move with
  | edit other conn =>
    obtain ⟨before, present, kept⟩ := sound
    refine Stays.of_set present conn rfl ?_ (Nat.le_refl _)
    intro same
    rcases legal with routine | apart
    · exact { toStill := routine before present, id := kept.id, fwdCnt := kept.fwdCnt }
    · simp [Move.advances, same] at apart
  | consume other bytes =>
    have apart : other ≠ key := by simpa [Move.advances] using legal.resolve_left id
    exact onConn_holds (Stays key inner) (Stays.refl key inner) fun conn present =>
      Stays.of_set present _ rfl (fun same => absurd same apart) (Nat.le_refl _)
  | queue packet =>
    refine Stays.of_table rfl ?_
    have other : ¬(packet.op = .rst ∧ packet.key = key) := by
      rcases legal with routine | apart
      · exact fun both => routine both.1
      · simpa [Move.advances] using apart
    rw [apply, queue, resetsFor_pushBack, if_neg other]
    exact Nat.le_refl _
  | send other payload =>
    obtain ⟨conn, present, _⟩ := sound
    rw [apply, onConn_present present, sendPacket_present present]
    refine Stays.of_set present _ rfl (fun _ => ⟨⟨rfl, rfl, rfl, id⟩, rfl, rfl⟩) ?_
    simp [Inner.set, queue, resetsFor_pushBack, rwPacket, Packet.control]
  | halfClose other =>
    obtain ⟨conn, present, _⟩ := sound
    rw [apply, onConn_present present]
    refine Stays.of_table rfl ?_
    simp [queue, resetsFor_pushBack, halfClosePacket, Packet.control]
  | dropInput other => exact Stays.of_table rfl (resetsFor_dropInput key other inner).le
  | arrive other bytes | hold other head spans | leave other left finished taken | grow other
  | shrink other =>
    exact onConn_holds (Stays key inner) (Stays.refl key inner) fun conn present =>
      Stays.of_set present _ rfl (fun _ => ⟨⟨rfl, rfl, rfl, id⟩, rfl, rfl⟩) (Nat.le_refl _)
  | remove other =>
    have apart : key ≠ other := by
      simpa [Move.advances, eq_comm] using legal.resolve_left id
    refine onConn_holds (Stays key inner) (Stays.refl key inner) fun conn present =>
      ⟨fun prior found => ?_, Nat.le_refl _⟩
    rw [conns_retire, Table.lookup_erase_ite, if_neg apart]
    exact ⟨prior, found, .refl prior⟩
  | insert other guestPort state now =>
    have apart : key ≠ other := by
      simpa [Move.advances, eq_comm] using legal.resolve_left id
    have table : (inner.apply (.insert other guestPort state now)).conns = inner.conns.insert other
          (Conn.new guestPort state Budget.opened (inner.nextId + 1) now) := by
      simp only [apply]
      cases inner.conns.lookup other <;> rfl
    refine ⟨?_, ?_⟩
    · intro prior found
      rw [table, Table.lookup_insert_ite, if_neg apart]
      exact ⟨prior, found, .refl prior⟩
    · rw [(apply_frame sound).outbox rfl]
  | finish now =>
    refine ⟨?_, ?_⟩
    · intro prior found
      obtain ⟨held, same⟩ := lookup_finishDone now inner key
      rw [found] at same
      exact ⟨_, same, ⟨rfl, rfl, rfl, id⟩, rfl, rfl⟩
    · rw [(apply_frame sound).outbox rfl]
  | deliver room => grind [apply, deliverNext, Stays.of_table, resetsFor_deliverNext]
  | reset =>
    cases legal.resolve_left id
  | aside fields | complete heads => exact Stays.of_table rfl (Nat.le_refl _)

/-- A stretch of work without such a move. -/
theorem Does.stays (does : Does extra before after)
    (spared : ∀ move, extra move → move.advances key = false) : Stays key before after := by
  refine does.invariant (Stays key before) ?_ (Stays.refl key before)
  intro state move stays ⟨sound, legal⟩
  exact stays.trans (Inner.apply_stays sound (legal.imp_right (spared move)))

/-- The sections that can change how far a key's connection has come. -/
def Act.advances (key : ConnKey) : Act → Bool
  | .openConn _ _ | .sweep _ _ | .reset => true
  | .handle packet _ =>
      guestKey packet = key &&
        (packet.op = .request || packet.op = .rst || packet.op = .shutdown || packet.op = .rw)
  | .guestRw _ packet _ _ _ => guestKey packet = key
  | .acknowledge other _ _ | .shutdown other _ | .abandon other => other = key
  | _ => false

theorem Act.extra_spared {act : Act} (spared : act.advances key = false) (move : Move)
    (named : act.extra move) : move.advances key = false := by
  cases move with
  | edit other conn =>
    cases act with
    | handle packet now =>
      obtain ⟨kind | kind, rfl⟩ := named <;> simpa [Act.advances, Move.advances, kind] using spared
    | guestRw memory packet head spans now | shutdown closing now =>
      cases named
      exact spared
    | _ => exact named.elim
  | consume other bytes =>
    cases act with
    | acknowledge reader count now =>
      obtain ⟨rfl, _⟩ := named
      exact spared
    | _ => exact named.elim
  | remove other =>
    cases act with
    | handle packet now =>
      obtain ⟨kind | kind, rfl⟩ := named <;> simpa [Act.advances, Move.advances, kind] using spared
    | acknowledge reader count now | abandon given =>
      cases named
      exact spared
    | sweep => cases spared
    | _ => exact named.elim
  | insert other guestPort state now =>
    cases act with
    | openConn => cases spared
    | handle packet now =>
      obtain ⟨kind, rfl⟩ := named
      simpa [Act.advances, Move.advances, kind] using spared
    | _ => exact named.elim
  | queue reply =>
    have filed {other : ConnKey} (rst : reply.op = .rst) (mine : reply.key = other)
        (apart : other ≠ key) : Move.advances key (.queue reply) = false := by
      simp [Move.advances, rst, mine, apart]
    cases act with
    | handle packet now =>
      obtain ⟨kind | kind | kind, rst, mine⟩ := named <;>
        exact filed rst mine (by simpa [Act.advances, kind] using spared)
    | guestRw memory packet head spans now | acknowledge reader count now | abandon given =>
      exact filed named.1 named.2 (by simpa [Act.advances] using spared)
    | sweep => cases spared
    | _ => exact named.elim
  | reset =>
    cases act with
    | reset => cases spared
    | _ => exact named.elim
  | _ => rfl

/-- A section that leaves the connection in the table has left it as it was. -/
def Spares (key : ConnKey) (before after : Inner) : Prop :=
  (after.conns.lookup key).isSome →
    (before.conns.lookup key).isSome ∧ Stays key before after

namespace Spares

theorem trans {middle : Inner} (first : Spares key before middle)
    (second : Spares key middle after) : Spares key before after := by
  intro found
  obtain ⟨between, late⟩ := second found
  obtain ⟨start, early⟩ := first between
  exact ⟨start, early.trans late⟩

/-- Routine work neither removes nor opens a connection. -/
theorem of_routine (does : Does (fun _ => False) before after) : Spares key before after := by
  intro present
  refine ⟨?_, does.stays fun _ named => named.elim⟩
  have carried := does.invariant
    (fun state => (state.conns.lookup key).isSome → (before.conns.lookup key).isSome) ?_ id
  · exact carried present
  intro state move prior ⟨sound, legal⟩ found
  obtain ⟨later, stands⟩ := Option.isSome_iff_exists.mp found
  rcases Inner.lookup_apply sound key later stands with ⟨conn, was, _⟩ | opened
  · grind
  obtain ⟨guestPort, kind, now, rfl, _⟩ := opened
  rcases legal with routine | named
  · exact routine.elim
  · exact named.elim

/-- A removal with its reset: it ends this connection or has nothing to do with it. -/
theorem of_ending (other : ConnKey) :
    Spares key inner ((inner.queue (resetPacket other)).remove other).1 := by
  by_cases same : key = other
  · subst same
    intro present
    have gone : ((inner.queue (resetPacket key)).remove key).1.conns.lookup key =
        none := by
      simp only [Inner.remove, Inner.conns_touch]
      cases found : (inner.queue (resetPacket key)).conns.lookup key with
      | none => simpa using found
      | some conn => simp
    rw [gone] at present
    cases present
  have ended : Does (fun move => move = .remove other ∨
      move = .queue (resetPacket other)) inner
      ((inner.queue (resetPacket other)).remove other).1 :=
    (Does.reset rfl rfl (Or.inr rfl)).trans (Does.remove other (Or.inl rfl))
  intro present
  refine ⟨?_, ended.stays ?_⟩
  · have table : ((inner.queue (resetPacket other)).remove other).1.conns.lookup key =
        inner.conns.lookup key := by
      simp only [Inner.remove, Inner.conns_touch]
      cases found : (inner.queue (resetPacket other)).conns.lookup other with
      | none => simp [queue]
      | some conn => grind [Inner.conns_retire, Table.lookup_erase_ite, queue]
    rw [table] at present
    exact present
  · rintro move (rfl | rfl)
    · simpa [Move.advances, eq_comm] using same
    · have apart : (resetPacket other).key ≠ key := fun filed => same filed.symm
      simp [Move.advances, apart]

/-- Fields no law reads do not matter. -/
theorem withAside (spares : Spares key before after) (fields : Aside) :
    Spares key before (after.withAside fields) := by
  intro found
  obtain ⟨start, stays⟩ := spares found
  exact ⟨start, stays.trans (Stays.of_table rfl (Nat.le_refl _))⟩

theorem each {α : Type} (part : Inner → α → Inner)
    (spares : ∀ state entry, Spares key state (part state entry)) (entries : List α) :
    Spares key inner (entries.foldl part inner) := by
  induction entries generalizing inner with
  | nil => exact fun found => ⟨found, Stays.refl key _⟩
  | cons entry rest ih => exact (spares inner entry).trans ih

/-- The warden spares a connection it does not end. -/
theorem sweep (now : Nat) (order : List ConnKey) : Spares key inner (inner.sweep now order) := by
  have idle (state : Inner) : Spares key state state :=
    fun present => ⟨present, Stays.refl key state⟩
  have expire (state : Inner) (other : ConnKey) (closed : Bool) :
      Spares key state (state.expire other closed) :=
    (of_ending other).withAside { Inner.aside _ with warden := _ }
  have watch (state : Inner) : Spares key state (state.watch now order) := by
    unfold Inner.watch
    split
    · exact (idle state).withAside { state.aside with ringFullSince := none }
    simp only
    have timed : Spares key state
        { state with ringFullSince := some (state.ringFullSince.getD now) } :=
      (idle state).withAside
        { state.aside with ringFullSince := some (state.ringFullSince.getD now) }
    refine timed.trans ?_
    split
    · cases Inner.worst _ order with
      | none => exact idle _
      | some found =>
        exact (of_ending found.1).withAside
          { Inner.aside _ with warden := _, ringFullSince := none }
    · exact idle _
  refine (each Inner.endOne ?_ _).trans ((each Inner.cutOne ?_ _).trans (watch _))
  · grind [Inner.endOne]
  intro state entry
  unfold Inner.cutOne
  split
  · exact of_routine (Does.cutWindow _ _)
  · exact idle state

end Spares

variable {conn : Conn}

/-- A living connection whose guest has declared both ends and whose bytes are all
acknowledged ends with one reset. -/
theorem Inner.finishShutdown_ends (found : inner.conns.lookup key = some conn)
    (declared : conn.guestDone ∧ conn.guestReceiveClosed)
    (delivered : conn.received = conn.credit.fwdCnt) :
    (inner.finishShutdown key).conns.lookup key = none ∧
      resetsFor key (inner.finishShutdown key).outbox = resetsFor key inner.outbox + 1 := by
  have ready : ¬(¬conn.state = .closed ∧
      ¬((conn.guestDone ∧ conn.guestReceiveClosed) ∧ conn.received = conn.credit.fwdCnt)) :=
    fun both => both.2 ⟨declared, delivered⟩
  unfold finishShutdown
  simp only [found, if_neg ready, remove, conns_touch]
  rw [touch_eq]
  simp only [queue, withAside, found]
  constructor
  · rw [conns_retire]
    exact AList.lookup_erase _ _
  · simp only [retire, discard]
    rw [resetsFor_pushBack, if_pos ⟨rfl, rfl⟩]

/-- Otherwise it waits. -/
theorem Inner.finishShutdown_waits (found : inner.conns.lookup key = some conn)
    (living : conn.state ≠ .closed)
    (early : ¬((conn.guestDone ∧ conn.guestReceiveClosed) ∧ conn.received = conn.credit.fwdCnt)) :
    inner.finishShutdown key = inner := by
  unfold finishShutdown
  grind

/-- A declaration is noted, and the close finished if it can be. -/
theorem Inner.handleShutdown_present {packet : Packet}
    (present : inner.conns.lookup (guestKey packet) = some conn) (kind : packet.op = .shutdown)
    (now : Nat) :
    ∃ middle : Inner, middle.conns.lookup (guestKey packet) =
        some (declareShutdown (heard conn packet) packet.flags) ∧
      resetsFor (guestKey packet) middle.outbox = resetsFor (guestKey packet) inner.outbox ∧
      inner.handle packet now = middle.finishShutdown (guestKey packet) := by
  obtain ⟨found, outbox⟩ := observe_heard present packet
  let declared := declareShutdown (heard conn packet) packet.flags
  let noted := (inner.observe (guestKey packet) packet).set (guestKey packet) declared
  have stands : noted.conns.lookup (guestKey packet) = some declared := lookup_set_self _ _ _
  have handled : inner.handle packet now =
      (if declared.guestReceiveClosed then noted.dropInput (guestKey packet)
        else noted).finishShutdown (guestKey packet) := by
    simp only [handle, kind, handleShutdown, found]
    rw [modify_present found]
  split at handled
  · refine ⟨noted.dropInput (guestKey packet), stands, ?_, handled⟩
    rw [resetsFor_dropInput]
    exact congrArg _ outbox
  · exact ⟨noted, stands, congrArg _ outbox, handled⟩

/-- One connection with what the guest and the host have done on it: bytes sent by
the guest and bytes acknowledged, which ends the guest declared closed, and the
resets queued for it. -/
structure Parting where
  inner : Inner
  received : Nat
  acked : Nat
  sendDone : Bool
  receiveDone : Bool
  resets : Nat

namespace Parting

def start (inner : Inner) : Parting := ⟨inner, 0, 0, false, false, 0⟩

/-- The stream bytes the guest sends. -/
def arrives (key : ConnKey) : Act → Nat
  | .handle packet _ =>
      if packet.op = .rw ∧ guestKey packet = key then packet.payload.length else 0
  | .guestRw _ packet _ spans _ =>
      if guestKey packet = key then (spans.map Prod.snd).sum else 0
  | _ => 0

def acknowledges (key : ConnKey) : Act → Nat
  | .acknowledge reader bytes _ => if reader = key then bytes.toNat else 0
  | _ => 0

/-- Whether the guest declares an end closed. -/
def declares (key : ConnKey) (flag : UInt32) : Act → Bool
  | .handle packet _ =>
      packet.op = .shutdown && guestKey packet = key && packet.flags &&& flag != 0
  | _ => false

def step (settings : Settings) (key : ConnKey) (parting : Parting) (act : Act) : Parting :=
  let after := Vsock.step settings parting.inner act
  { inner := after
    received := parting.received + arrives key act
    acked := parting.acked + acknowledges key act
    sendDone := parting.sendDone || declares key shutdownSend act
    receiveDone := parting.receiveDone || declares key shutdownRcv act
    resets := parting.resets +
      (resetsFor key after.outbox - resetsFor key parting.inner.outbox) }

/-- The guest has declared both ends closed and every byte received is
acknowledged. -/
def Complete (parting : Parting) : Prop :=
  parting.sendDone = true ∧ parting.receiveDone = true ∧ parting.acked = parting.received

instance (parting : Parting) : Decidable parting.Complete :=
  inferInstanceAs (Decidable (_ ∧ _ ∧ _))

/-- What happens while the connection is under way: nobody resets it, replaces it or
closes our end; only received bytes are acknowledged, among them every byte a
writer took; and less than a lap of the counters is outstanding. -/
def Gentle (key : ConnKey) (parting : Parting) : Act → Prop
  | .reset => False
  | .shutdown other _ | .abandon other => other ≠ key
  | .openConn guestPort _ => (parting.inner.nextPort, guestPort) ≠ key
  | .sweep now order => ((parting.inner.sweep now order).conns.lookup key).isSome
  | .handle packet _ => guestKey packet = key →
      packet.op ≠ .rst ∧ packet.op ≠ .request ∧
        (packet.op = .rw →
          parting.received + packet.payload.length < parting.acked + 2 ^ 32)
  | .guestRw _ packet _ spans _ => guestKey packet = key →
      parting.received + (spans.map Prod.snd).sum < parting.acked + 2 ^ 32
  | .acknowledge reader bytes _ =>
      reader = key → parting.acked + bytes.toNat ≤ parting.received
  | _ => True

/-- A run goes on until the close is complete. -/
structure Allowed (key : ConnKey) (parting : Parting) (act : Act) : Prop where
  underway : ¬parting.Complete
  gentle : parting.Gentle key act

/-- The device's connection is where the true counts say. -/
structure Matches (parting : Parting) (conn : Conn) : Prop where
  living : conn.state ≠ .closed
  received : conn.received = UInt32.ofNat parting.received
  fwdCnt : conn.credit.fwdCnt = UInt32.ofNat parting.acked
  guestDone : conn.guestDone = parting.sendDone
  guestReceiveClosed : conn.guestReceiveClosed = parting.receiveDone

/-- Before the close is complete the connection stands and no reset was queued. -/
structure Stands (key : ConnKey) (id : Nat) (parting : Parting) : Prop where
  keyed : Keyed parting.inner
  ordered : parting.acked ≤ parting.received
  near : parting.received < parting.acked + 2 ^ 32
  silent : parting.resets = 0
  conn : ∃ conn, parting.inner.conns.lookup key = some conn ∧ conn.id = id ∧
    parting.Matches conn

/-- Once it is complete the connection is gone and one reset was queued. -/
structure Ended (key : ConnKey) (parting : Parting) : Prop where
  gone : parting.inner.conns.lookup key = none
  once : parting.resets = 1

/-- Where a connection is on its way. -/
structure Follows (key : ConnKey) (id : Nat) (parting : Parting) : Prop where
  before : ¬parting.Complete → Stands key id parting
  after : parting.Complete → Ended key parting

/-- The device sees the close complete exactly when it is. -/
theorem Matches.complete_iff {parting : Parting} {conn : Conn} (same : parting.Matches conn)
    (ordered : parting.acked ≤ parting.received)
    (near : parting.received < parting.acked + 2 ^ 32) :
    ((conn.guestDone ∧ conn.guestReceiveClosed) ∧ conn.received = conn.credit.fwdCnt) ↔
      parting.Complete := by
  rw [same.guestDone, same.guestReceiveClosed, same.received, same.fwdCnt,
    Fixed.ofNat_eq_iff _ _ ordered (by omega), and_assoc, eq_comm (a := parting.received)]
  exact Iff.rfl

variable {settings : Settings} {id : Nat} {parting : Parting} {act : Act}

/-- A connection has gained what a section brings it. -/
structure Gained (key : ConnKey) (act : Act) (before after : Conn) : Prop where
  living : before.state ≠ .closed → after.state ≠ .closed
  received : after.received = before.received + UInt32.ofNat (arrives key act)
  fwdCnt : after.credit.fwdCnt = before.credit.fwdCnt + UInt32.ofNat (acknowledges key act)
  guestDone : after.guestDone = (before.guestDone || declares key shutdownSend act)
  guestReceiveClosed : after.guestReceiveClosed =
    (before.guestReceiveClosed || declares key shutdownRcv act)

theorem Matches.step {conn later : Conn} (agrees : parting.Matches conn)
    (gained : Gained key act conn later) : (parting.step settings key act).Matches later where
  living := gained.living agrees.living
  received := by
    rw [gained.received, agrees.received, ← UInt32.ofNat_add]
    rfl
  fwdCnt := by
    rw [gained.fwdCnt, agrees.fwdCnt, ← UInt32.ofNat_add]
    rfl
  guestDone := by
    rw [gained.guestDone, agrees.guestDone]
    rfl
  guestReceiveClosed := by
    rw [gained.guestReceiveClosed, agrees.guestReceiveClosed]
    rfl

/-- A payload for a living connection is counted, whether held or copied out. -/
theorem handleGuestRw_gained {inner : Inner} {conn : Conn} {packet : Packet}
    (present : inner.conns.lookup (guestKey packet) = some conn) (living : conn.state ≠ .closed)
    (settings : Settings) (memory : GuestMemory) (head : UInt16) (spans : List (Nat × Nat))
    (now : Nat) :
    ∃ later,
      (inner.handleGuestRw settings memory packet head spans now).1.conns.lookup
        (guestKey packet) = some later ∧
      (inner.handleGuestRw settings memory packet head spans now).1.outbox = inner.outbox ∧
      later.id = conn.id ∧
      Gained (guestKey packet) (.guestRw memory packet head spans now) conn later := by
  let counted := Inner.counted conn packet spans now
  have gained : counted.id = conn.id ∧
      Gained (guestKey packet) (.guestRw memory packet head spans now) conn counted := by
    simp only [counted, Inner.counted, Inner.countIn]
    split <;> refine ⟨rfl, fun living => living, ?_, ?_, ?_, ?_⟩ <;>
      simp [heard, Credit.observe, arrives, acknowledges, declares]
  have stands := lookup_set_self inner (guestKey packet) counted
  rcases Inner.handleGuestRw_cases settings memory inner packet head spans now with
    ⟨absent, _⟩ | ⟨other, found, outcome⟩
  · cases absent.symm.trans present
  cases Option.some.inj (found.symm.trans present)
  rcases outcome with ⟨closed, _⟩ | ⟨_, _, _, outcome⟩ | ⟨_, outcome⟩
  · exact absurd closed living
  · rw [outcome, Inner.apply, Inner.onConn_present stands, Inner.touch_eq]
    exact ⟨_, lookup_set_self _ _ _, rfl, gained.1, { gained.2 with }⟩
  · rw [outcome, Inner.apply, Inner.onConn_present stands, Inner.touch_eq]
    exact ⟨_, lookup_set_self _ _ _, rfl, gained.1, { gained.2 with }⟩

/-- What is outstanding after a section. -/
theorem Stands.outstanding (stands : Stands key id parting) (gentle : parting.Gentle key act) :
    parting.acked + acknowledges key act ≤ parting.received + arrives key act ∧
      parting.received + arrives key act < parting.acked + acknowledges key act + 2 ^ 32 := by
  have ordered := stands.ordered
  have near := stands.near
  cases act with
  | handle packet now =>
    simp only [arrives, acknowledges]
    split
    · rename_i mine
      have room := (gentle mine.2).2.2 mine.1
      omega
    · omega
  | guestRw memory packet head spans now =>
    simp only [arrives, acknowledges]
    split
    · rename_i mine
      have room := gentle mine
      omega
    · omega
  | acknowledge reader bytes now =>
    simp only [arrives, acknowledges]
    split
    · rename_i mine
      have had := gentle mine
      omega
    · omega
  | _ => exact ⟨ordered, near⟩

section

variable (stands : Stands key id parting) (gentle : parting.Gentle key act)
include stands gentle

/-- A section that queues no reset and leaves a connection that matches the counts
after it. -/
theorem follows_of_stands {conn : Conn}
    (found : (parting.step settings key act).inner.conns.lookup key = some conn)
    (same : conn.id = id) (agrees : (parting.step settings key act).Matches conn)
    (resets : resetsFor key (parting.step settings key act).inner.outbox ≤
      resetsFor key parting.inner.outbox) (incomplete : ¬(parting.step settings key act).Complete) :
    Follows key id (parting.step settings key act) := by
  obtain ⟨ordered, near⟩ := stands.outstanding gentle
  refine ⟨fun _ => ⟨?_, ordered, near, ?_, conn, found, same, agrees⟩,
    fun complete => absurd complete incomplete⟩
  · exact step_keyed settings parting.inner stands.keyed act
  · have none : resetsFor key (Vsock.step settings parting.inner act).outbox -
        resetsFor key parting.inner.outbox = 0 := Nat.sub_eq_zero_of_le resets
    simp [step, stands.silent, none]

/-- A section in which nothing is acknowledged and no end declared closed.

Proof: bytes that arrive while some are outstanding do not complete a close. -/
theorem follows_of_quiet (incomplete : ¬parting.Complete) {conn later : Conn}
    (same : conn.id = id) (agrees : parting.Matches conn)
    (found : (Vsock.step settings parting.inner act).conns.lookup key = some later)
    (kept : later.id = conn.id) (gained : Gained key act conn later)
    (resets : resetsFor key (Vsock.step settings parting.inner act).outbox ≤
      resetsFor key parting.inner.outbox)
    (quiet : acknowledges key act = 0 ∧ declares key shutdownSend act = false ∧
      declares key shutdownRcv act = false) : Follows key id (parting.step settings key act) := by
  obtain ⟨unacked, sending, receiving⟩ := quiet
  refine follows_of_stands stands gentle found (kept.trans same) (agrees.step gained) resets ?_
  have ordered := stands.ordered
  simp only [Complete, step, unacked, sending, receiving, Bool.or_false]
  rintro ⟨sent, read, all⟩
  exact incomplete ⟨sent, read, by omega⟩

/-- A section that leaves the connection as it was. -/
theorem follows_of_stays (incomplete : ¬parting.Complete)
    (stays : Stays key parting.inner (Vsock.step settings parting.inner act))
    (quiet : arrives key act = 0 ∧ acknowledges key act = 0 ∧
      declares key shutdownSend act = false ∧ declares key shutdownRcv act = false) :
    Follows key id (parting.step settings key act) := by
  obtain ⟨conn, present, same, agrees⟩ := stands.conn
  obtain ⟨later, found, abides⟩ := stays.conn conn present
  refine follows_of_quiet stands gentle incomplete same agrees found abides.id
    ⟨abides.living, ?_, ?_, ?_, ?_⟩ stays.resets quiet.2
  · simp [abides.received, quiet]
  · simp [abides.fwdCnt, quiet]
  · simp [abides.guestDone, quiet]
  · simp [abides.guestReceiveClosed, quiet]

end

/-- A section that does not advance the connection. -/
theorem quiet_of_spared (spared : act.advances key = false) :
    arrives key act = 0 ∧ acknowledges key act = 0 ∧
      declares key shutdownSend act = false ∧ declares key shutdownRcv act = false := by
  cases act with
  | handle packet now =>
    by_cases mine : guestKey packet = key
    · have kind : packet.op ≠ .shutdown ∧ packet.op ≠ .rw := by
        simp [Act.advances, mine] at spared
        tauto
      simp [arrives, acknowledges, declares, kind]
    · simp [arrives, acknowledges, declares, mine]
  | guestRw memory packet head spans now =>
    have apart : guestKey packet ≠ key := by simpa [Act.advances] using spared
    simp [arrives, acknowledges, declares, apart]
  | acknowledge reader bytes now =>
    have apart : reader ≠ key := by simpa [Act.advances] using spared
    simp [arrives, acknowledges, declares, apart]
  | _ => exact ⟨rfl, rfl, rfl, rfl⟩

variable (stands : Stands key id parting)
include stands

/-- A packet's bytes, handled whole. -/
theorem handleRw_follows (incomplete : ¬parting.Complete)
    {packet : Packet} {now : Nat} (gentle : parting.Gentle key (.handle packet now))
    (kind : packet.op = .rw) (mine : guestKey packet = key) :
    Follows key id (parting.step settings key (.handle packet now)) := by
  obtain ⟨conn, present, same, agrees⟩ := stands.conn
  subst mine
  obtain ⟨found, outbox⟩ := Inner.observe_heard present packet
  let later : Conn := { Inner.heard conn packet with
    received := conn.received + UInt32.ofNat packet.payload.length
    outbound := conn.outbound ++ [.owned packet.payload] }
  have handled : Vsock.step settings parting.inner (.handle packet now) =
      (parting.inner.observe (guestKey packet) packet).set (guestKey packet) later := by
    simp only [Vsock.step, Inner.handle, kind, Inner.handleRw, found]
    rw [Inner.modify_present found]
    exact if_neg agrees.living
  have stored : (Vsock.step settings parting.inner (.handle packet now)).conns.lookup
      (guestKey packet) = some later := by
    rw [handled]
    exact Inner.lookup_set_self _ _ _
  refine follows_of_quiet stands gentle incomplete same agrees stored rfl
    ⟨fun living => living, ?_, ?_, ?_, ?_⟩ ?_ ?_
  · simp [later, arrives, kind]
  · simp [later, Inner.heard, acknowledges, Credit.observe]
  · simp [later, Inner.heard, declares, kind]
  · simp [later, Inner.heard, declares, kind]
  · rw [handled]
    exact (congrArg _ outbox).le
  · simp [acknowledges, declares, kind]

/-- A payload in the guest's buffers, held there or copied out. -/
theorem guestRw_follows (incomplete : ¬parting.Complete)
    {memory : GuestMemory} {packet : Packet} {head : UInt16} {spans : List (Nat × Nat)}
    {now : Nat} (gentle : parting.Gentle key (.guestRw memory packet head spans now))
    (mine : guestKey packet = key) :
    Follows key id (parting.step settings key (.guestRw memory packet head spans now)) := by
  obtain ⟨conn, present, same, agrees⟩ := stands.conn
  subst mine
  obtain ⟨later, found, outbox, kept, gained⟩ :=
    handleGuestRw_gained present agrees.living settings memory head spans now
  exact follows_of_quiet stands gentle incomplete same agrees found kept gained
    (congrArg _ outbox).le ⟨rfl, rfl, rfl⟩

/-- A section that leaves a connection to be ended if its close is complete.

Proof: the device's test is the true one, and the reset and the removal come
together. -/
theorem follows_of_finish (gentle : parting.Gentle key act)
    {middle : Inner} {conn : Conn} (found : middle.conns.lookup key = some conn)
    (same : conn.id = id) (agrees : (parting.step settings key act).Matches conn)
    (resets : resetsFor key middle.outbox = resetsFor key parting.inner.outbox)
    (finish : Vsock.step settings parting.inner act = middle.finishShutdown key) :
    Follows key id (parting.step settings key act) := by
  obtain ⟨ordered, near⟩ := stands.outstanding gentle
  have complete := agrees.complete_iff ordered near
  by_cases ready : (conn.guestDone ∧ conn.guestReceiveClosed) ∧
      conn.received = conn.credit.fwdCnt
  · obtain ⟨gone, once⟩ := Inner.finishShutdown_ends found ready.1 ready.2
    refine ⟨fun incomplete => absurd (complete.mp ready) incomplete, fun _ => ⟨?_, ?_⟩⟩
    · simp only [step, finish]
      exact gone
    · simp only [step, finish, once, resets, stands.silent]
      omega
  · have waits := Inner.finishShutdown_waits found agrees.living ready
    rw [waits] at finish
    refine follows_of_stands stands gentle ?_ same agrees ?_ (fun all => ready (complete.mpr all))
    · simp only [step, finish]
      exact found
    · simp only [step, finish, resets]
      exact Nat.le_refl _

/-- The guest declares ends closed. -/
theorem handleShutdown_follows {packet : Packet} {now : Nat}
    (gentle : parting.Gentle key (.handle packet now)) (kind : packet.op = .shutdown)
    (mine : guestKey packet = key) :
    Follows key id (parting.step settings key (.handle packet now)) := by
  obtain ⟨conn, found, same, agrees⟩ := stands.conn
  subst mine
  obtain ⟨middle, stood, resets, handled⟩ := Inner.handleShutdown_present found kind now
  refine follows_of_finish stands gentle stood same
    (agrees.step ⟨fun living => living, ?_, ?_, ?_, ?_⟩) resets handled
  · simp [declareShutdown, heard, arrives, kind]
  · simp [declareShutdown, heard, acknowledges, Credit.observe]
  · simp [declareShutdown, heard, declares, kind]
  · simp [declareShutdown, heard, declares, kind]

/-- The host acknowledges bytes. -/
theorem acknowledge_follows {bytes : UInt32} {now : Nat}
    (gentle : parting.Gentle key (.acknowledge key bytes now)) :
    Follows key id (parting.step settings key (.acknowledge key bytes now)) := by
  obtain ⟨conn, present, same, agrees⟩ := stands.conn
  let after := parting.step settings key (.acknowledge key bytes now)
  let consumed : Conn := { conn with
    credit := conn.credit.consumed bytes
    drained := if bytes > 0 then now else conn.drained }
  have matching : after.Matches consumed := by
    refine agrees.step ⟨fun living => living, ?_, ?_, ?_, ?_⟩
    · simp [consumed, arrives]
    · simp [consumed, acknowledges, Credit.consumed]
    · simp [consumed, declares]
    · simp [consumed, declares]
  obtain ⟨ordered, near⟩ := stands.outstanding gentle
  have complete := matching.complete_iff ordered near
  have acting : Vsock.step settings parting.inner (.acknowledge key bytes now) =
      parting.inner.acknowledge settings key bytes now := rfl
  unfold Inner.acknowledge at acting
  simp only [present] at acting
  by_cases ready : conn.guestDone ∧ conn.guestReceiveClosed ∧
      conn.received = (conn.credit.consumed bytes).fwdCnt
  · rw [if_pos ready, Inner.modify_present present] at acting
    exact follows_of_finish stands gentle (lookup_set_self parting.inner key consumed) same
      matching rfl acting
  have under : ¬after.Complete := fun all => ready (and_assoc.mp (complete.mpr all))
  rw [if_neg ready] at acting
  split at acting
  · rw [Inner.modify_present present] at acting
    let counted : Conn := { consumed with unreported := Fixed.saturatingAdd conn.unreported bytes }
    have found : after.inner.conns.lookup key = some counted := by
      simp only [after, step, acting]
      exact lookup_set_self parting.inner key counted
    refine follows_of_stands stands gentle found same { matching with } ?_ under
    simp only [step, acting]
    exact Nat.le_refl _
  · rw [Inner.modify_present present] at acting
    let grown : Conn :=
      { consumed with
        unreported := 0, window := (parting.inner.budget.grow conn.window).2 }
    have found : after.inner.conns.lookup key = some grown := by
      simp only [after, step, acting]
      exact lookup_set_self parting.inner key grown
    refine follows_of_stands stands gentle found same { matching with } ?_ under
    simp only [step, acting, queue, resetsFor_pushBack, Packet.control]
    exact Nat.le_refl _

omit stands

/-- Every allowed section keeps the connection on its way. -/
theorem follows_step (settings : Settings) (key : ConnKey) (id : Nat) (parting : Parting)
    (act : Act) (follows : Follows key id parting) (allowed : parting.Allowed key act) :
    Follows key id (parting.step settings key act) := by
  have stands := follows.before allowed.underway
  have gentle := allowed.gentle
  cases spared : act.advances key with
  | false =>
    exact follows_of_stays stands gentle allowed.underway
      ((step_does settings parting.inner stands.keyed act).stays (Act.extra_spared spared))
      (quiet_of_spared spared)
  | true =>
    cases act with
    | openConn guestPort now =>
      let opening : Move := .insert (parting.inner.nextPort, guestPort) guestPort .connecting now
      have opened : Does (· = opening) parting.inner (parting.inner.openConn guestPort now).1 :=
        Does.openConn guestPort now rfl
      refine follows_of_stays stands gentle allowed.underway (opened.stays ?_) ⟨rfl, rfl, rfl, rfl⟩
      rintro move rfl
      have apart : (parting.inner.nextPort, guestPort) ≠ key := gentle
      simpa [Move.advances, opening] using apart
    | sweep now order =>
      exact follows_of_stays stands gentle allowed.underway (Spares.sweep now order gentle).2
        ⟨rfl, rfl, rfl, rfl⟩
    | handle packet now =>
      obtain ⟨mine, kinds⟩ : guestKey packet = key ∧ (((packet.op = .request ∨
          packet.op = .rst) ∨ packet.op = .shutdown) ∨ packet.op = .rw) := by
        simpa [Act.advances] using spared
      obtain ⟨noReset, noRequest, _⟩ := gentle mine
      rcases kinds with ((request | reset) | shutdown) | rw
      · exact absurd request noRequest
      · exact absurd reset noReset
      · exact handleShutdown_follows stands gentle shutdown mine
      · exact handleRw_follows stands allowed.underway gentle rw mine
    | guestRw memory packet head spans now =>
      have mine : guestKey packet = key := by simpa [Act.advances] using spared
      exact guestRw_follows stands allowed.underway gentle mine
    | acknowledge reader bytes now =>
      have mine : reader = key := by simpa [Act.advances] using spared
      subst mine
      exact acknowledge_follows stands gentle
    | shutdown other now | abandon other =>
      exact absurd (by simpa [Act.advances] using spared) gentle
    | reset => exact gentle.elim
    | _ => cases spared

/-- A connection as it is opened: nothing received, nothing acknowledged and neither
end closed. -/
def Begun (conn : Conn) : Prop :=
  conn.state ≠ .closed ∧ conn.received = 0 ∧ conn.credit.fwdCnt = 0 ∧
    conn.guestDone = false ∧ conn.guestReceiveClosed = false

theorem start_follows {inner : Inner} {conn : Conn} (keyed : Keyed inner)
    (found : inner.conns.lookup key = some conn) (begun : Begun conn) :
    Follows key conn.id (start inner) := by
  obtain ⟨living, received, fwdCnt, guestDone, guestReceiveClosed⟩ := begun
  constructor
  · intro _
    refine ⟨keyed, Nat.le_refl _, by simp [start], rfl, conn, found, rfl, living, ?_, ?_, ?_, ?_⟩
    · rw [received]
      rfl
    · rw [fwdCnt]
      rfl
    · exact guestDone
    · exact guestReceiveClosed
  · rintro ⟨sent, _⟩
    cases sent

end Parting

/-- From any state with a connection just opened, in every run of sections in any
order that neither reset, replace nor close it on our side, with less than a lap
of bytes outstanding: as long as the guest has not declared both ends closed or a
byte received is not acknowledged, the connection is in the table and no reset
was queued for it; and when first both hold, it is gone and exactly one was.

Proof: the end is tested wherever a test can come to hold, and the wrapped test
is the true one. -/
theorem graceful_close (settings : Settings) (key : ConnKey) (inner : Inner) (conn : Conn)
    (keyed : Keyed inner) (present : inner.conns.lookup key = some conn)
    (begun : Parting.Begun conn) (acts : List Act)
    (legal : Legal (Parting.Allowed key) (Parting.step settings key) (Parting.start inner)
      acts) :
    let parting := run (Parting.step settings key) (Parting.start inner) acts
    (¬(parting.sendDone = true ∧ parting.receiveDone = true ∧
        parting.acked = parting.received) →
      parting.resets = 0 ∧ ∃ later, parting.inner.conns.lookup key = some later ∧
        later.id = conn.id ∧ later.state ≠ .closed) ∧
    (parting.sendDone = true ∧ parting.receiveDone = true ∧
        parting.acked = parting.received →
      parting.resets = 1 ∧ parting.inner.conns.lookup key = none) := by
  intro parting
  have follows : parting.Follows key conn.id :=
    run_invariant (Parting.Allowed key) (Parting.step settings key)
      (Parting.Follows key conn.id) (Parting.follows_step settings key conn.id)
      (Parting.start inner) acts (Parting.start_follows keyed present begun) legal
  constructor
  · intro incomplete
    obtain ⟨_, _, _, silent, later, found, same, agrees⟩ := follows.before incomplete
    exact ⟨silent, later, found, same, agrees.living⟩
  · intro complete
    obtain ⟨gone, once⟩ := follows.after complete
    exact ⟨once, gone⟩

/-- A device with one connection, which a guest opened to a listener. -/
def openedByGuest : Inner :=
  run (step ⟨false, false⟩) (Inner.new 0)
    [.listen 5000, .handle (Packet.control .request 7 5000) 0]

theorem openedByGuest_keyed : Keyed openedByGuest := by
  refine run_preserves (step ⟨false, false⟩) Keyed ?_ (Inner.new 0) _ ?_
  · grind [step_keyed]
  · intro key conn found
    simp [Inner.new] at found

theorem openedByGuest_begun :
    ∃ conn, openedByGuest.conns.lookup (5000, 7) = some conn ∧ Parting.Begun conn := by
  have view : (openedByGuest.conns.lookup (5000, 7)).map
      (fun conn => (conn.state, conn.received, conn.credit.fwdCnt, conn.guestDone,
        conn.guestReceiveClosed)) = some (.established, 0, 0, false, false) := by decide
  obtain ⟨conn, found, same⟩ := Option.map_eq_some_iff.mp view
  simp only [Prod.mk.injEq] at same
  obtain ⟨state, received, fwdCnt, guestDone, guestReceiveClosed⟩ := same
  exact ⟨conn, found, by simp [state], received, fwdCnt, guestDone, guestReceiveClosed⟩

/-- The guest sends three bytes and declares its ends closed one after the other, a
writer takes the bytes in between, and they are acknowledged last. -/
def drainedLast : List Act :=
  [.handle { Packet.control .rw 7 5000 with payload := [1, 2, 3] } 0,
    .handle { Packet.control .shutdown 7 5000 with flags := shutdownSend } 0,
    .take (5000, 7),
    .handle { Packet.control .shutdown 7 5000 with flags := shutdownRcv } 0,
    .acknowledge (5000, 7) 3 0]

/-- The acknowledgement ends the connection. -/
theorem graceful_close_drained :
    Legal (Parting.Allowed (5000, 7)) (Parting.step ⟨false, false⟩ (5000, 7))
        (Parting.start openedByGuest) drainedLast ∧
      let parting := run (Parting.step ⟨false, false⟩ (5000, 7)) (Parting.start openedByGuest)
        drainedLast
      parting.Complete ∧ parting.resets = 1 ∧
        parting.inner.conns.lookup (5000, 7) = none := by
  have legal : Legal (Parting.Allowed (5000, 7)) (Parting.step ⟨false, false⟩ (5000, 7))
      (Parting.start openedByGuest) drainedLast := by
    refine ⟨⟨by decide, fun _ => ⟨by decide, by decide, fun _ => by decide⟩⟩,
      ⟨by decide, fun _ => ⟨by decide, by decide, nofun⟩⟩, ⟨by decide, trivial⟩,
      ⟨by decide, fun _ => ⟨by decide, by decide, nofun⟩⟩,
      ⟨by decide, fun _ => by decide⟩, trivial⟩
  have complete : (run (Parting.step ⟨false, false⟩ (5000, 7)) (Parting.start openedByGuest)
      drainedLast).Complete := by decide
  obtain ⟨conn, present, begun⟩ := openedByGuest_begun
  exact ⟨legal, complete, (graceful_close ⟨false, false⟩ (5000, 7) openedByGuest conn
    openedByGuest_keyed present begun drainedLast legal).2 complete⟩

/-- Sixty-four chains, the share of a connection, stay held; the next one is copied
out each time and comes back to be used again. -/
def lapHeads : List UInt16 := (List.range 64).map UInt16.ofNat ++ List.replicate 16320 64

/-- Payloads that add up to a lap of the counters, none acknowledged, then both ends
declared closed at once. -/
def lapOutstanding : List Act :=
  lapHeads.map (fun head =>
    .guestRw ⟨[⟨0, 262144⟩], fun _ => 0⟩ (Packet.control .rw 7 5000) head [(0, 262144)] 0) ++
    [.handle { Packet.control .shutdown 7 5000 with flags := shutdownBoth } 0]

/-- Payloads are counted modulo a lap, whatever is outstanding. -/
theorem run_payloads (settings : Settings) (memory : GuestMemory) (packet : Packet)
    (spans : List (Nat × Nat)) (now : Nat) (heads : List UInt16) (parting : Parting)
    {conn : Conn} (present : parting.inner.conns.lookup (guestKey packet) = some conn)
    (agrees : parting.Matches conn) :
    let after := run (Parting.step settings (guestKey packet)) parting
      (heads.map fun head => .guestRw memory packet head spans now)
    (∃ later, after.inner.conns.lookup (guestKey packet) = some later ∧ after.Matches later) ∧
      after.received = parting.received + heads.length * (spans.map Prod.snd).sum ∧
      after.acked = parting.acked ∧ after.sendDone = parting.sendDone ∧
      after.receiveDone = parting.receiveDone ∧ after.resets = parting.resets := by
  induction heads generalizing parting conn with
  | nil => exact ⟨⟨conn, present, agrees⟩, by simp, rfl, rfl, rfl, rfl⟩
  | cons head rest ih =>
    obtain ⟨later, found, outbox, _, gained⟩ :=
      Parting.handleGuestRw_gained present agrees.living settings memory head spans now
    let next := parting.step settings (guestKey packet) (.guestRw memory packet head spans now)
    have received : next.received = parting.received + (spans.map Prod.snd).sum := by
      simp [next, Parting.step, Parting.arrives]
    have others : next.acked = parting.acked ∧ next.sendDone = parting.sendDone ∧
        next.receiveDone = parting.receiveDone ∧ next.resets = parting.resets := by
      simp [next, Parting.step, Parting.acknowledges, Parting.declares, Vsock.step, outbox]
    obtain ⟨acked, sendDone, receiveDone, resets⟩ := others
    obtain ⟨there, total, unacked, sending, receiving, silent⟩ := ih next found (agrees.step gained)
    refine ⟨there, ?_, unacked.trans acked, sending.trans sendDone, receiving.trans receiveDone,
      silent.trans resets⟩
    rw [length_cons, Nat.succ_mul]
    refine total.trans ?_
    rw [received]
    omega

/-- With a whole lap outstanding the wrapped counts agree, and the connection is
ended though not a byte was acknowledged. -/
theorem lap_ends_early :
    let parting := run (Parting.step ⟨false, false⟩ (5000, 7)) (Parting.start openedByGuest)
      lapOutstanding
    parting.received = 2 ^ 32 ∧ parting.acked = 0 ∧ parting.resets = 1 ∧
      parting.inner.conns.lookup (5000, 7) = none := by
  obtain ⟨conn, present, begun⟩ := openedByGuest_begun
  obtain ⟨_, _, _, _, first, found, _, agrees⟩ :=
    (Parting.start_follows openedByGuest_keyed present begun).before (by decide)
  have payloads := run_payloads ⟨false, false⟩ ⟨[⟨0, 262144⟩], fun _ => 0⟩
    (Packet.control .rw 7 5000) [(0, 262144)] 0 lapHeads (Parting.start openedByGuest) found
    agrees
  have mine : guestKey (Packet.control .rw 7 5000) = (5000, 7) := rfl
  rw [mine] at payloads
  simp only [lapOutstanding, run_append]
  generalize run _ (Parting.start openedByGuest) _ = full at payloads ⊢
  obtain ⟨⟨later, stands, matching⟩, received, acked, _, _, resets⟩ := payloads
  let closing : Packet := { Packet.control .shutdown 7 5000 with flags := shutdownBoth }
  have lap : full.received = 2 ^ 32 := by
    rw [received, lapHeads, length_append, length_map, length_range,
      length_replicate]
    rfl
  have unacked : full.acked = 0 := acked
  have standing : full.inner.conns.lookup (guestKey closing) = some later := stands
  obtain ⟨middle, stood, same, handled⟩ := Inner.handleShutdown_present standing rfl 0
  let ended := declareShutdown (heard later closing) closing.flags
  have declared : ended.guestDone ∧ ended.guestReceiveClosed := by
    have flagged : (shutdownBoth &&& shutdownSend != 0) = true ∧
        (shutdownBoth &&& shutdownRcv != 0) = true := by decide
    exact ⟨by simp [ended, closing, declareShutdown, flagged],
      by simp [ended, closing, declareShutdown, flagged]⟩
  -- The received count has come round to the acknowledged one.
  have level : ended.received = ended.credit.fwdCnt := by
    change later.received = later.credit.fwdCnt
    rw [matching.received, matching.fwdCnt, lap, unacked]
    rfl
  obtain ⟨gone, once⟩ := Inner.finishShutdown_ends stood declared level
  rw [same, ← handled] at once
  rw [← handled] at gone
  let last := full.step ⟨false, false⟩ (5000, 7) (.handle closing 0)
  have counts : last.received = full.received ∧ last.acked = full.acked := by
    simp [last, Parting.step, Parting.arrives, Parting.acknowledges, closing, Packet.control]
  have ending : last.resets = 1 := by
    change full.resets + (resetsFor (guestKey closing) (full.inner.handle closing 0).outbox -
      resetsFor (guestKey closing) full.inner.outbox) = 1
    rw [once, resets, Nat.add_sub_cancel_left]
    rfl
  change last.received = _ ∧ last.acked = 0 ∧ last.resets = 1 ∧ _
  rw [counts.1, counts.2]
  exact ⟨lap, unacked, ending, gone⟩

end Lighter.Vsock
