import Lighter.Lib.Stamped
import Lighter.Vsock.Turns

/-!
# What the guest is handed for one key

`Feed` follows one key through a run of the device. Every packet that waits for
the key or was handed to the guest keeps a stamp beside it: the connection under
the key it was queued for, and the bytes acknowledged on that connection by then.
`received` is what the passes over the receive ring wrote for the key, and
`accepted` what senders were told was taken, with the connection that took it.

None of this is visible to the device. `Tracked` ties it to the device's own
state, and every section keeps it.
-/

namespace Lighter.Vsock

open Packet Transition Stamped List Outbox

/-- A connection's identity and the bytes acknowledged on it. -/
structure Stamp where
  id : Nat
  total : Nat
deriving DecidableEq, Repr

/-- An earlier connection under the key, or the same one with less acknowledged. -/
instance : Preorder Stamp where
  le first second := first.id < second.id ∨ first.id = second.id ∧ first.total ≤ second.total
  le_refl stamp := Or.inr ⟨rfl, Nat.le_refl _⟩
  le_trans first second third := by
    rintro (older | ⟨same, less⟩) (newer | ⟨still, more⟩)
    · exact Or.inl (older.trans newer)
    · exact Or.inl (still ▸ older)
    · exact Or.inl (same ▸ newer)
    · exact Or.inr ⟨same.trans still, less.trans more⟩

theorem Stamp.le_iff {first second : Stamp} : first ≤ second ↔
    first.id < second.id ∨ first.id = second.id ∧ first.total ≤ second.total := Iff.rfl

structure Feed where
  inner : Inner
  stamp : Stamp
  line : Line Packet Stamp
  received : List Packet
  accepted : List (Nat × List UInt8)
  /-- The last connection whose guest closed its receive side. -/
  closed : Nat

/-- What a receive chain is handed for a key. -/
def arrivals (inner : Inner) (key : ConnKey) (memory : GuestMemory) (chain : Chain) :
    List Packet :=
  (Device.drainRx ⟨inner.outbox, memory, [], []⟩ [chain]).delivered.filter fun packet =>
    packet.key = key

/-- How a packet is cut to a receive chain. -/
def cutTo (chain : Chain) (packet : Packet) : Packet × Option Packet :=
  Device.cut packet (Device.capacity chain - hdrLen)

namespace Feed

def start (now ring : Nat) : Feed :=
  ⟨{ Inner.new now with txRing := ring }, ⟨0, 0⟩, Line.empty, [], [], 0⟩

/-- The connection a section leaves under the key, or the last one there. -/
def stampAfter (key : ConnKey) (feed : Feed) (after : Inner) (act : Act) : Stamp :=
  let id := ((after.conns.lookup key).map Conn.id).getD feed.stamp.id
  if id = feed.stamp.id then ⟨id, feed.stamp.total + acknowledged feed.inner key act⟩
  else ⟨id, 0⟩

def step (settings : Settings) (key : ConnKey) (feed : Feed) (act : Act) : Feed :=
  let after := Vsock.step settings feed.inner act
  match act with
  | .rx memory chain =>
      let arrived := arrivals feed.inner key memory chain
      { feed with
        inner := after
        line := if arrived = [] then feed.line else feed.line.hand (cutTo chain)
        received := feed.received ++ arrived }
  | act =>
      let stamp := feed.stampAfter key after act
      let kept := feed.line.keep (keeps feed.inner key act)
      { inner := after
        stamp := stamp
        line := kept.push stamp ((after.outbox.pending key).drop kept.waiting.length)
        received := feed.received
        accepted := feed.accepted ++ [(stamp.id, accepts feed.inner key act)]
        closed := if closing feed.inner key act then feed.stamp.id else feed.closed }

/-- The stamps are those of the packets that wait and of those handed over, in
order, and the present stamp is the connection's. -/
structure Tracked (key : ConnKey) (feed : Feed) : Prop where
  keyed : Keyed feed.inner
  numbered : Numbered feed.inner
  sorted : feed.inner.outbox.Sorted
  waiting : feed.line.waiting.map Prod.fst = feed.inner.outbox.pending key
  handed : feed.line.delivered.map Prod.fst = feed.received
  ordered : feed.line.Ordered feed.stamp
  known : feed.stamp.id ≤ feed.inner.nextId
  current : ∀ conn, feed.inner.conns.lookup key = some conn →
    conn.id = feed.stamp.id ∧ conn.credit.fwdCnt = UInt32.ofNat feed.stamp.total

theorem start_tracked (key : ConnKey) (now ring : Nat) : Tracked key (start now ring) where
  keyed := by
    intro other conn found
    simp [start, Inner.new] at found
  numbered := by
    intro other conn found
    simp [start, Inner.new] at found
  sorted := empty_sorted
  waiting := by simp [start, Line.empty, Inner.new, pending, empty]
  handed := rfl
  ordered := Line.Ordered.empty _
  known := Nat.le_refl _
  current := by
    intro conn found
    simp [start, Inner.new] at found

/-- A chain takes the first packet of the key, or the part of it that fits, or
nothing of the key at all. -/
theorem rx_pending (inner : Inner) (key : ConnKey) (memory : GuestMemory) (chain : Chain)
    (sorted : inner.outbox.Sorted) :
    (arrivals inner key memory chain = [] ∧
      (inner.rx memory chain).outbox.pending key = inner.outbox.pending key) ∨
    ∃ packet later, inner.outbox.pending key = packet :: later ∧
      arrivals inner key memory chain = [(cutTo chain packet).1] ∧
      (inner.rx memory chain).outbox.pending key = (cutTo chain packet).2.toList ++ later := by
  rw [Inner.rx_eq]
  unfold arrivals
  rw [Device.drainRx]
  cases popped : inner.outbox.popFront with
  | none => grind [Inner.deliverNext]
  | some pair =>
    obtain ⟨packet, rest⟩ := pair
    simp only [Device.drainRx, Device.fillRx, popped]
    split
    · exact Or.inl ⟨rfl, rfl⟩
    have ahead := pending_popFront popped key
    have ordered := popFront_sorted sorted popped
    have sameKey : (cutTo chain packet).1.key = packet.key ∧
        ∀ part, (cutTo chain packet).2 = some part → part.key = packet.key := by
      unfold cutTo Device.cut
      split
      · refine ⟨rfl, fun part cut => ?_⟩
        rw [← Option.some.inj cut]
        rfl
      · exact ⟨rfl, fun part cut => by cases cut⟩
    have behind : (inner.deliverNext (Device.capacity chain - hdrLen)).outbox.pending key =
        (if packet.key = key then (cutTo chain packet).2.toList else []) ++ rest.pending key := by
      simp only [Inner.deliverNext, popped]
      rw [← cutTo]
      cases part : (cutTo chain packet).2 with
      | none => simp
      | some left => grind [pending_pushFront]
    by_cases mine : packet.key = key
    · refine Or.inr ⟨packet, rest.pending key, ?_, ?_, ?_⟩
      · rw [ahead, if_pos mine]
        rfl
      · simp only [nil_append]
        exact filter_cons_of_pos (decide_eq_true (sameKey.1.trans mine))
      · rw [behind, if_pos mine]
    · refine Or.inl ⟨?_, ?_⟩
      · simp only [nil_append]
        refine filter_cons_of_neg fun same => mine ?_
        exact sameKey.1.symm.trans (of_decide_eq_true same)
      · rw [behind, ahead, if_neg mine, if_neg mine]

variable (settings : Settings) {key : ConnKey}

/-- A delivery hands over the first packet of the key with its stamp. -/
theorem rx_tracked {feed : Feed}
    (tracked : Tracked key feed) (memory : GuestMemory) (chain : Chain) :
    Tracked key (feed.step settings key (.rx memory chain)) := by
  have keyed := step_keyed settings feed.inner tracked.keyed (.rx memory chain)
  have numbered := step_numbered settings feed.inner tracked.keyed tracked.numbered
    (.rx memory chain)
  have sorted := step_sorted settings feed.inner tracked.keyed tracked.sorted (.rx memory chain)
  rcases rx_pending feed.inner key memory chain tracked.sorted with
    ⟨nothing, same⟩ | ⟨packet, later, first, one, behind⟩
  · refine ⟨keyed, numbered.1, sorted, ?_, ?_, ?_, tracked.known, tracked.current⟩
    · simp only [step, nothing, if_true]
      exact tracked.waiting.trans same.symm
    · simp only [step, nothing, if_true, append_nil]
      exact tracked.handed
    · simp only [step, nothing, if_true]
      exact tracked.ordered
  have waiting := tracked.waiting
  rw [first] at waiting
  obtain ⟨⟨item, stamp⟩, others, split, itemIs, othersAre⟩ := map_eq_cons_iff.mp waiting
  simp only at itemIs
  subst itemIs
  refine ⟨keyed, numbered.1, sorted, ?_, ?_, ?_, tracked.known, tracked.current⟩
  · simp only [step, one, Line.hand, split, Vsock.step]
    simp [behind, othersAre, Function.comp_def]
  · simp only [step, one, Line.hand, split]
    simp [tracked.handed]
  · simp only [step, one]
    exact tracked.ordered.hand (cutTo chain)

/-- What a section other than a delivery does to the stamps of a key: it keeps what
it keeps, and stamps what it queued with what the connection then is. -/
structure Advance (key : ConnKey) (feed : Feed) (act : Act) (next : Feed)
    (fresh : List Packet) : Prop where
  line : next.line = (feed.line.keep (keeps feed.inner key act)).push next.stamp fresh
  waiting : next.inner.outbox.pending key =
    (feed.inner.outbox.pending key).filter (keeps feed.inner key act) ++ fresh
  content : fresh.flatMap streamed = accepts feed.inner key act
  told : ∀ packet ∈ fresh, packet.op = .rst ∨
    (act = .shutdownWrite key ∧ packet.fwdCnt = 0 ∧ ∃ conn,
      feed.inner.conns.lookup key = some conn ∧ conn.guestReceiveClosed = false) ∨
    packet.fwdCnt = UInt32.ofNat next.stamp.total
  later : feed.stamp ≤ next.stamp
  current : ∀ conn, next.inner.conns.lookup key = some conn →
    conn.id = next.stamp.id ∧ conn.credit.fwdCnt = UInt32.ofNat next.stamp.total
  known : next.stamp.id ≤ next.inner.nextId
  /-- A connection that still receives was not just closed, and was there before or
  is new. -/
  receiving : ∀ conn, next.inner.conns.lookup key = some conn →
    conn.guestReceiveClosed = false →
    feed.stamp.id < conn.id ∨ (closing feed.inner key act = false ∧
      ∃ earlier, feed.inner.conns.lookup key = some earlier ∧ earlier.id = conn.id ∧
        earlier.guestReceiveClosed = false)

/-- Every section but a delivery advances the stamps.

Proof: its turn either carries the connection on, whose count and total then grow
by what was acknowledged, or opens one whose identity is above all before it. -/
theorem step_advance {feed : Feed}
    (tracked : Tracked key feed) (act : Act) (kind : ∀ memory chain, act ≠ .rx memory chain) :
    ∃ fresh, Advance key feed act (feed.step settings key act) fresh := by
  have numbered := step_numbered settings feed.inner tracked.keyed tracked.numbered act
  have unfolded : feed.step settings key act =
      { inner := Vsock.step settings feed.inner act
        stamp := feed.stampAfter key (Vsock.step settings feed.inner act) act
        line := (feed.line.keep (keeps feed.inner key act)).push
          (feed.stampAfter key (Vsock.step settings feed.inner act) act)
          (((Vsock.step settings feed.inner act).outbox.pending key).drop
            (feed.line.keep (keeps feed.inner key act)).waiting.length)
        received := feed.received
        accepted := feed.accepted ++
          [((feed.stampAfter key (Vsock.step settings feed.inner act) act).id,
            accepts feed.inner key act)]
        closed := if closing feed.inner key act then feed.stamp.id else feed.closed } := by
    cases act with
    | rx memory chain => exact absurd rfl (kind memory chain)
    | _ => rfl
  rw [unfolded]
  have turn := step_turn settings feed.inner key act tracked.keyed tracked.sorted kind
  generalize Vsock.step settings feed.inner act = after at numbered turn
  have length : (feed.line.keep (keeps feed.inner key act)).waiting.length =
      ((feed.inner.outbox.pending key).filter (keeps feed.inner key act)).length := by
    rw [← tracked.waiting, filter_map, length_map]
    rfl
  have dropped {fresh : List Packet} (waiting : after.outbox.pending key =
      (feed.inner.outbox.pending key).filter (keeps feed.inner key act) ++ fresh) :
      (after.outbox.pending key).drop
        (feed.line.keep (keeps feed.inner key act)).waiting.length = fresh := by
    rw [waiting, length, drop_left]
  cases turn with
  | carried fresh waiting content told count =>
    have stamp : feed.stampAfter key after act =
        ⟨feed.stamp.id, feed.stamp.total + acknowledged feed.inner key act⟩ := by
      unfold stampAfter
      cases found : after.conns.lookup key with
      | none => simp
      | some later =>
        have current := tracked.current
        grind
    refine ⟨fresh, ?_⟩
    constructor
    · simp [dropped waiting]
    · exact waiting
    · exact content
    · have current := tracked.current
      grind [UInt32.ofNat_add]
    · simp only [stamp]
      exact Or.inr ⟨rfl, Nat.le_add_right _ _⟩
    · have current := tracked.current
      grind [UInt32.ofNat_add]
    · simp only [stamp]
      exact tracked.known.trans numbered.2
    · grind
  | opened fresh later waiting content told present id count =>
    have newer : feed.stamp.id < later.id := by
      rw [id]
      exact Nat.lt_succ_of_le tracked.known
    have stamp : feed.stampAfter key after act = ⟨later.id, 0⟩ := by
      unfold stampAfter
      rw [present]
      exact if_neg newer.ne'
    refine ⟨fresh, ?_⟩
    constructor
    · simp [dropped waiting]
    · exact waiting
    · exact content
    · intro packet member
      rcases told packet member with reset | tells
      · exact Or.inl reset
      · refine Or.inr (Or.inr ?_)
        simp only [stamp]
        exact tells
    · simp only [stamp]
      exact Or.inl newer
    · intro conn found
      rw [present] at found
      rw [← Option.some.inj found]
      simp only [stamp]
      exact ⟨trivial, count⟩
    · simp only [stamp]
      exact numbered.1 key later present
    · grind

/-- Every section keeps the stamps tied to the device. -/
theorem step_tracked {feed : Feed}
    (tracked : Tracked key feed) (act : Act) : Tracked key (feed.step settings key act) := by
  by_cases delivery : ∃ memory chain, act = .rx memory chain
  · grind [rx_tracked]
  have kind (memory : GuestMemory) (chain : Chain) : act ≠ .rx memory chain :=
    fun same => delivery ⟨memory, chain, same⟩
  obtain ⟨fresh, advance⟩ := step_advance settings tracked act kind
  have inner : (feed.step settings key act).inner = Vsock.step settings feed.inner act := by
    cases act <;> rfl
  have received : (feed.step settings key act).received = feed.received := by
    cases act with
    | rx memory chain => exact absurd rfl (kind memory chain)
    | _ => rfl
  constructor
  · rw [inner]
    exact step_keyed settings feed.inner tracked.keyed act
  · rw [inner]
    exact (step_numbered settings feed.inner tracked.keyed tracked.numbered act).1
  · rw [inner]
    exact step_sorted settings feed.inner tracked.keyed tracked.sorted act
  · rw [advance.line, advance.waiting, ← tracked.waiting]
    simp only [Line.push, Line.keep, map_append, filter_map]
    simp [Function.comp_def]
  · rw [advance.line, received]
    exact tracked.handed
  · rw [advance.line]
    exact (tracked.ordered.keep _).push advance.later fresh
  · exact advance.known
  · exact advance.current

/-- A delivered packet and what is left of it carry the same kind, ports and count,
and together its payload. -/
theorem cutTo_parts (chain : Chain) (packet part : Packet)
    (member : part ∈ (cutTo chain packet).1 :: (cutTo chain packet).2.toList) :
    part.op = packet.op ∧ part.fwdCnt = packet.fwdCnt := by
  unfold cutTo Device.cut at member
  split at member
  · rcases mem_cons.mp member with rfl | rest
    · exact ⟨rfl, rfl⟩
    · rw [Option.toList_some, mem_singleton] at rest
      subst rest
      exact ⟨rfl, rfl⟩
  · grind

end Feed
end Lighter.Vsock
