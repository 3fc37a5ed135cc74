import Lighter.Vsock.Delivery

/-!
# The consumed counts the guest is told

Every packet for a live connection carries how much the host has consumed of it,
and the guest takes that count from every packet. The counts a connection's
packets carry are those the connection had when each was queued, so in delivery
order they never move backwards, whatever queued them, however they were split
and whichever lane they took.

One section breaks this: `shutdown_write` leaves the count of its packet at zero.
The law therefore holds of the runs whose half-closes happen before anything has
been acknowledged. Resets are outside it.
-/

namespace Lighter.Vsock

open Packet Transition Stamped Feed

namespace Feed

/-- A packet that is not a reset tells the bytes acknowledged when it was queued. -/
def Honest (packet : Packet) (stamp : Stamp) : Prop :=
  packet.op = .rst ∨ packet.fwdCnt = UInt32.ofNat stamp.total

/-- A half-close of the key finds nothing acknowledged. -/
def HalfClosesAtZero (key : ConnKey) (feed : Feed) (act : Act) : Prop :=
  act = .shutdownWrite key → ∀ conn, feed.inner.conns.lookup key = some conn →
    conn.guestReceiveClosed = false → conn.credit.fwdCnt = 0

/-- A half-close touches no connection. -/
theorem conns_shutdownWrite (inner : Inner) (key : ConnKey) :
    (inner.shutdownWrite key).conns = inner.conns := by
  unfold Inner.shutdownWrite
  cases inner.conns.lookup key with
  | none => rfl
  | some conn =>
    simp only
    split <;> rfl

/-- Every section but a half-close at another count keeps every packet honest. -/
theorem step_honest (settings : Settings) {key : ConnKey} {feed : Feed}
    (tracked : Tracked key feed) (honest : feed.line.All Honest) (act : Act)
    (allowed : HalfClosesAtZero key feed act) : (feed.step settings key act).line.All Honest := by
  by_cases delivery : ∃ memory chain, act = .rx memory chain
  · obtain ⟨memory, chain, rfl⟩ := delivery
    simp only [step]
    split
    · exact honest
    refine honest.hand fun item stamp law part member => ?_
    obtain ⟨op, count⟩ := cutTo_parts chain item part member
    rw [Honest, op, count]
    exact law
  have kind (memory : GuestMemory) (chain : Chain) : act ≠ .rx memory chain :=
    fun same => delivery ⟨memory, chain, same⟩
  obtain ⟨fresh, advance⟩ := step_advance settings tracked act kind
  rw [advance.line]
  refine (honest.keep _).push fun packet member => ?_
  rcases advance.told packet member with reset | half | tells
  · exact Or.inl reset
  · obtain ⟨rfl, zero, conn, found, receiving⟩ := half
    have count := allowed rfl conn found receiving
    have stands : (feed.step settings key (.shutdownWrite key)).inner.conns.lookup key =
        some conn := by
      simp only [step, Vsock.step]
      rw [conns_shutdownWrite]
      exact found
    refine Or.inr ?_
    rw [zero, ← (advance.current conn stands).2, count]
  · exact Or.inr tells

/-- At another count it breaks the law: the condition is exact. -/
theorem halfClose_honest_iff (settings : Settings) {key : ConnKey} {feed : Feed}
    (tracked : Tracked key feed) (honest : feed.line.All Honest) {conn : Conn}
    (present : feed.inner.conns.lookup key = some conn)
    (receiving : conn.guestReceiveClosed = false) :
    (feed.step settings key (.shutdownWrite key)).line.All Honest ↔
      conn.credit.fwdCnt = 0 := by
  constructor
  · intro still
    obtain ⟨fresh, advance⟩ := step_advance settings tracked (.shutdownWrite key) (fun _ _ => nofun)
    have queued : (feed.inner.shutdownWrite key).outbox.pending key =
        feed.inner.outbox.pending key ++ [Inner.halfClosePacket key conn] := by
      simp only [Inner.shutdownWrite, present, receiving]
      refine (Outbox.pending_pushBack _ _ _ tracked.sorted).trans ?_
      exact congrArg _ (if_pos rfl)
    have one : fresh = [Inner.halfClosePacket key conn] := by
      have both := advance.waiting
      rw [filter_keeps rfl] at both
      exact (List.append_cancel_left (queued.symm.trans both)).symm
    have stands : (feed.step settings key (.shutdownWrite key)).inner.conns.lookup key =
        some conn := by
      simp only [step, Vsock.step]
      rw [conns_shutdownWrite]
      exact present
    have member : (Inner.halfClosePacket key conn,
        (feed.step settings key (.shutdownWrite key)).stamp) ∈
        (feed.step settings key (.shutdownWrite key)).line.entries := by
      rw [advance.line, Line.entries_push, one]
      simp
    rcases still _ member with reset | tells
    · cases reset
    · rw [(advance.current conn stands).2, ← tells]
      rfl
  · intro zero
    refine step_honest settings tracked honest _ fun _ other found _ => ?_
    rw [present] at found
    rw [← Option.some.inj found]
    exact zero

end Feed

/-- In every run whose half-closes of a key find nothing acknowledged: the packets
handed to the guest for the key and those that wait, in delivery order, each
carry the connection's consumed count of the moment it was queued, resets apart;
along one connection the counts grow by exactly the bytes acknowledged in
between, connections follow one another, and the connection in the table has the
present count. A half-close at any other count breaks this.

Proof: every section stamps what it queues with what the connection is after it,
stamps never decrease, and a delivery splits packets without touching what they
tell. -/
theorem counts_told_in_order (settings : Settings) (key : ConnKey) (now ring : Nat)
    (acts : List Act)
    (legal : Legal (Feed.HalfClosesAtZero key) (Feed.step settings key)
      (Feed.start now ring) acts) :
    let feed := run (Feed.step settings key) (Feed.start now ring) acts
    feed.line.delivered.map Prod.fst = feed.received ∧
      feed.line.waiting.map Prod.fst = feed.inner.outbox.pending key ∧
      (∀ entry ∈ feed.line.entries, entry.1.op ≠ .rst →
        entry.1.fwdCnt = UInt32.ofNat entry.2.total) ∧
      feed.line.entries.Pairwise (fun first second =>
        first.2.id ≤ second.2.id ∧ (first.2.id = second.2.id →
          first.2.total ≤ second.2.total ∧
          (first.1.op ≠ .rst → second.1.op ≠ .rst → second.1.fwdCnt =
            first.1.fwdCnt + UInt32.ofNat (second.2.total - first.2.total)))) ∧
      (∀ conn, feed.inner.conns.lookup key = some conn →
        conn.id = feed.stamp.id ∧ conn.credit.fwdCnt = UInt32.ofNat feed.stamp.total ∧
        (conn.guestReceiveClosed = false →
          ((feed.step settings key (.shutdownWrite key)).line.All Feed.Honest ↔
            conn.credit.fwdCnt = 0))) := by
  intro feed
  have both : Tracked key feed ∧ feed.line.All Honest := by
    refine run_invariant (HalfClosesAtZero key) (Feed.step settings key)
      (fun feed => Tracked key feed ∧ feed.line.All Honest) ?_ (Feed.start now ring)
      acts ⟨start_tracked key now ring, Line.All.empty⟩ legal
    intro state act ⟨tracked, honest⟩ allowed
    exact ⟨step_tracked settings tracked act,
      step_honest settings tracked honest act allowed⟩
  obtain ⟨tracked, honest⟩ := both
  have tells (entry : Packet × Stamp) (member : entry ∈ feed.line.entries)
      (kind : entry.1.op ≠ .rst) : entry.1.fwdCnt = UInt32.ofNat entry.2.total :=
    (honest entry member).resolve_left kind
  refine ⟨tracked.handed, tracked.waiting, tells, ?_, ?_⟩
  · refine tracked.ordered.rising.imp_of_mem ?_
    rintro first second early late (older | ⟨same, less⟩)
    · exact ⟨older.le, fun equal => absurd equal older.ne⟩
    refine ⟨same.le, fun _ => ⟨less, fun firstKind secondKind => ?_⟩⟩
    rw [tells first early firstKind, tells second late secondKind, ← UInt32.ofNat_add]
    congr 1
    omega
  · have current := tracked.current
    grind [halfClose_honest_iff]

/-- A chain with room for a header and some payload, in mapped memory. -/
def smallChain : Chain := (9, [⟨0, 64, Virtio.descWrite, 0⟩])

/-- A guest connects and a quarter of its window is acknowledged; what waits is
delivered. -/
def acknowledgedQuarter : List Act :=
  [.listen 5000,
    .handle (Packet.control .request 7 5000) 0,
    .guestRw ⟨[], fun _ => 0⟩ (Packet.control .rw 7 5000) 1 [(4096, 16384)] 0,
    .take (5000, 7),
    .acknowledge (5000, 7) 16384 0]

/-- The response and the credit update carry the two counts the connection had. -/
theorem counts_told_in_order_quarter :
    Legal (Feed.HalfClosesAtZero (5000, 7)) (Feed.step ⟨false, false⟩ (5000, 7))
        (Feed.start 0 256) acknowledgedQuarter ∧
      (run (Feed.step ⟨false, false⟩ (5000, 7)) (Feed.start 0 256)
        acknowledgedQuarter).line.waiting.map (fun entry => (entry.1.op, entry.1.fwdCnt)) =
          [(.response, 0), (.creditUpdate, 16384)] ∧
      (run (Feed.step ⟨false, false⟩ (5000, 7)) (Feed.start 0 256)
        acknowledgedQuarter).stamp = ⟨1, 16384⟩ ∧
      ∀ conn, (run (Feed.step ⟨false, false⟩ (5000, 7)) (Feed.start 0 256)
        acknowledgedQuarter).inner.conns.lookup (5000, 7) = some conn →
          conn.credit.fwdCnt = 16384 := by
  have legal : Legal (HalfClosesAtZero (5000, 7)) (Feed.step ⟨false, false⟩ (5000, 7))
      (Feed.start 0 256) acknowledgedQuarter :=
    ⟨nofun, nofun, nofun, nofun, nofun, trivial⟩
  have stamp : (run (Feed.step ⟨false, false⟩ (5000, 7)) (Feed.start 0 256)
      acknowledgedQuarter).stamp = ⟨1, 16384⟩ := by decide
  refine ⟨legal, by decide, stamp, fun conn found => ?_⟩
  have law := counts_told_in_order ⟨false, false⟩ (5000, 7) 0 256 acknowledgedQuarter legal
  rw [(law.2.2.2.2 conn found).2.1, stamp]
  rfl

/-- After the same the host half-closes. In delivery order the guest is told of 0,
16384 and again 0 bytes, though 16384 were acknowledged when the last packet was
queued. -/
theorem halfClose_tells_zero :
    (run (Feed.step ⟨false, false⟩ (5000, 7)) (Feed.start 0 256)
      (acknowledgedQuarter ++ [.shutdownWrite (5000, 7),
        .rx ⟨[⟨0, 4096⟩], fun _ => 0⟩ smallChain, .rx ⟨[⟨0, 4096⟩], fun _ => 0⟩ smallChain,
        .rx ⟨[⟨0, 4096⟩], fun _ => 0⟩ smallChain])).line.delivered.map
          (fun entry => (entry.1.op, entry.1.fwdCnt, entry.2)) =
      [(.response, 0, ⟨1, 0⟩), (.creditUpdate, 16384, ⟨1, 16384⟩),
        (.shutdown, 0, ⟨1, 16384⟩)] := by
  decide

end Lighter.Vsock
