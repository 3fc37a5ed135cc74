import Lighter.Lib.Transition
import Lighter.Vsock.Credit

/-!
# Credit never overruns the peer

One direction of a connection, with its unbounded true counts beside the wrapped
counters the two ends keep. The sender sends at most what its credit makes
available. The receiver takes what arrives into a buffer of fixed size, consumes
it at its own pace, and every now and then tells the sender its buffer's size
and its wrapped total. What it tells waits in a first-in-first-out queue for an
arbitrary time. No bound is put on the totals: the counters may wrap any number
of times during a run.
-/

namespace Lighter.Vsock.CreditFlow

open Transition List

/-- A credit message: the receiver's buffer size and wrapped consumed total. -/
structure Message where
  bufAlloc : UInt32
  fwdCnt : UInt32
deriving DecidableEq, Repr

structure Flow where
  /-- The sender's counters, as the program keeps them. -/
  credit : Credit
  /-- Bytes sent, taken in by the receiver, and consumed by its application. -/
  sent : Nat
  arrived : Nat
  consumed : Nat
  /-- Credit messages on their way, the oldest first. -/
  messages : List Message
  /-- The consumed total the receiver last told, if it has told any. -/
  told : Option Nat
deriving DecidableEq, Repr

inductive Action where
  | send (bytes : Nat)
  | arrive (bytes : Nat)
  | consume (bytes : Nat)
  | tell
  | hear
deriving DecidableEq, Repr

def start : Flow := ⟨Credit.new, 0, 0, 0, [], none⟩

def step (buffer : UInt32) (flow : Flow) : Action → Flow
  | .send bytes =>
      { flow with credit := flow.credit.sent (UInt32.ofNat bytes), sent := flow.sent + bytes }
  | .arrive bytes => { flow with arrived := flow.arrived + bytes }
  | .consume bytes => { flow with consumed := flow.consumed + bytes }
  | .tell =>
      { flow with
        messages := flow.messages ++ [⟨buffer, UInt32.ofNat flow.consumed⟩]
        told := some flow.consumed }
  | .hear =>
      match flow.messages with
      | [] => flow
      | message :: rest =>
          { flow with
            credit := flow.credit.observe message.bufAlloc message.fwdCnt
            messages := rest }

/-- A send takes at most what is available; only bytes sent arrive, and only
bytes that arrived are consumed. Messages are sent and heard at any time. -/
def Allowed (flow : Flow) : Action → Prop
  | .send bytes => bytes ≤ flow.credit.available.toNat
  | .arrive bytes => flow.arrived + bytes ≤ flow.sent
  | .consume bytes => flow.consumed + bytes ≤ flow.arrived
  | .tell => True
  | .hear => True

instance (flow : Flow) (action : Action) : Decidable (Allowed flow action) := by
  cases action <;> unfold Allowed <;> infer_instance

/-- The sender's wrapped counters stand for true totals: what it sent, and a
total `heard` that the receiver reported and that no message still on its way
falls behind. Before it has heard anything it has sent nothing. -/
structure Tracks (buffer : UInt32) (flow : Flow) (heard : Nat) (pending : List Nat) :
    Prop where
  tx : flow.credit.txCnt = UInt32.ofNat flow.sent
  peer : flow.credit.peerFwdCnt = UInt32.ofNat heard
  wire : flow.messages = pending.map fun total => ⟨buffer, UInt32.ofNat total⟩
  ordered : (heard :: pending).Pairwise (· ≤ ·)
  reported : ∀ total ∈ heard :: pending, total ≤ flow.consumed
  last : ∀ total, flow.told = some total → (heard :: pending).getLast? = some total
  taken : flow.consumed ≤ flow.arrived ∧ flow.arrived ≤ flow.sent
  room : flow.sent ≤ heard + flow.credit.peerBufAlloc.toNat
  /-- A report that was told and is no longer on its way has been heard. -/
  buffered : flow.credit.peerBufAlloc = buffer ∨
    (flow.credit.peerBufAlloc = 0 ∧ heard = 0 ∧ (flow.told.isSome → pending ≠ []))

theorem start_tracks (buffer : UInt32) : Tracks buffer start 0 [] where
  tx := rfl
  peer := rfl
  wire := rfl
  ordered := by simp
  reported := by simp [start]
  last := by simp [start]
  taken := by simp [start]
  room := by simp [start]
  buffered := Or.inr ⟨rfl, rfl, by simp [start]⟩

/-- What is available is the peer's buffer less what was sent since `heard`. -/
theorem available_tracked {buffer : UInt32} {flow : Flow} {heard : Nat}
    {pending : List Nat} (tracks : Tracks buffer flow heard pending) :
    flow.credit.available.toNat =
      flow.credit.peerBufAlloc.toNat - (flow.sent - heard) := by
  have reported := tracks.reported heard (by simp)
  have taken := tracks.taken
  have room := tracks.room
  have width := flow.credit.peerBufAlloc.toNat_lt
  exact Credit.available_exact flow.credit flow.sent heard tracks.tx tracks.peer
    (by omega) (by omega)

/-- One step keeps the counters true to some totals.

Proof: a send stays within what is available, hence within the buffer beyond
`heard`; a consumption only raises the bound on reports; telling appends the
present total, which no earlier report exceeds; hearing moves the oldest report
into `heard`, which the order of reports allows only to grow. -/
theorem step_tracks {buffer : UInt32} {flow : Flow} {heard : Nat} {pending : List Nat}
    (tracks : Tracks buffer flow heard pending) (action : Action) (allowed : Allowed flow action) :
    ∃ heard' pending', Tracks buffer (step buffer flow action) heard' pending' := by
  have available := available_tracked tracks
  obtain ⟨tx, peer, wire, ordered, reported, last, taken, room, buffered⟩ := tracks
  have heardReported := reported heard (by simp)
  cases action with
  | send bytes =>
    have bounded : bytes ≤ flow.credit.available.toNat := allowed
    refine ⟨heard, pending, ?_⟩
    exact {
      tx := by simp [step, Credit.sent, tx]
      peer := by simpa [step, Credit.sent] using peer
      wire := by simpa [step] using wire
      ordered := ordered
      reported := reported
      last := last
      taken := by simp only [step]; omega
      room := by simp only [step, Credit.sent]; omega
      buffered := by simpa [step, Credit.sent] using buffered }
  | arrive bytes =>
    have bounded : flow.arrived + bytes ≤ flow.sent := allowed
    exact ⟨heard, pending, tx, peer, wire, ordered, reported, last,
      by simp only [step]; omega, room, buffered⟩
  | consume bytes =>
    have bounded : flow.consumed + bytes ≤ flow.arrived := allowed
    refine ⟨heard, pending, tx, peer, wire, ordered, ?_, last,
      by simp only [step]; omega, room, buffered⟩
    intro total member
    exact Nat.le_trans (reported total member) (Nat.le_add_right _ _)
  | tell =>
    refine ⟨heard, pending ++ [flow.consumed], tx, peer, ?_, ?_, ?_, ?_, taken, room, ?_⟩
    · simp [step, wire]
    · grind
    · intro total member
      rw [← cons_append, mem_append, mem_singleton] at member
      rcases member with prior | rfl
      · exact reported total prior
      · exact Nat.le_refl _
    · intro total same
      have told : flow.consumed = total := Option.some.inj same
      rw [← cons_append, getLast?_concat, told]
    · exact buffered.imp id fun unheard => ⟨unheard.1, unheard.2.1, by simp⟩
  | hear =>
    cases pending with
    | nil =>
      have empty : flow.messages = [] := by simpa using wire
      refine ⟨heard, [], ?_⟩
      simp only [step, empty]
      exact ⟨tx, peer, by simpa using empty, ordered, reported, last, taken, room, buffered⟩
    | cons next rest =>
      have oldest : flow.messages = ⟨buffer, UInt32.ofNat next⟩ ::
          rest.map (fun total => ⟨buffer, UInt32.ofNat total⟩) := by simpa using wire
      have later : heard ≤ next := (pairwise_cons.mp ordered).1 next (by simp)
      refine ⟨next, rest, ?_⟩
      simp only [step, oldest]
      exact {
        tx := tx
        peer := rfl
        wire := rfl
        ordered := (pairwise_cons.mp ordered).2
        reported := fun total member => reported total (by simp [mem_cons.mp member])
        last := by
          intro total same
          have prior := last total same
          simpa using prior
        taken := taken
        room := by
          simp only [Credit.observe]
          rcases buffered with same | ⟨unset, zero, _⟩
          · rw [same] at room
            omega
          · rw [unset] at room
            simp at room
            omega
        buffered := Or.inl rfl }

/-- Every legal run keeps the counters true to some totals. -/
theorem run_tracks (buffer : UInt32) (actions : List Action)
    (legal : Legal Allowed (step buffer) start actions) :
    ∃ heard pending, Tracks buffer (run (step buffer) start actions) heard pending :=
  run_invariant Allowed (step buffer)
    (fun flow => ∃ heard pending, Tracks buffer flow heard pending)
    (fun _ action ⟨_, _, tracks⟩ allowed => step_tracks tracks action allowed)
    start actions ⟨0, [], start_tracks buffer⟩ legal

/-- In every legal run, of any length, the bytes sent and not yet consumed fit
the receiver's buffer. Once every credit message has been heard and the last of
them told the receiver's present total, exactly the rest of the buffer is
available.

Proof: the sender is at most a buffer ahead of a total the receiver really
reported, and the receiver has consumed at least that. With nothing on its way
the total heard is the one last told. -/
theorem credit_exact (buffer : UInt32) (actions : List Action)
    (legal : Legal Allowed (step buffer) start actions) :
    let flow := run (step buffer) start actions
    flow.consumed ≤ flow.sent ∧ flow.sent - flow.consumed ≤ buffer.toNat ∧
      (flow.messages = [] → flow.told = some flow.consumed →
        flow.credit.available.toNat = buffer.toNat - (flow.sent - flow.consumed)) := by
  intro flow
  obtain ⟨heard, pending, tracks⟩ := run_tracks buffer actions legal
  change Tracks buffer flow heard pending at tracks
  have heardReported := tracks.reported heard (by simp)
  have taken := tracks.taken
  have room := tracks.room
  have available := available_tracked tracks
  have small : flow.credit.peerBufAlloc.toNat ≤ buffer.toNat := by
    rcases tracks.buffered with same | ⟨unset, _, _⟩
    · exact Nat.le_of_eq (congrArg UInt32.toNat same)
    · rw [unset]
      simp
  refine ⟨by omega, by omega, ?_⟩
  intro empty current
  have nothing : pending = [] := by
    have wire := tracks.wire
    rw [empty] at wire
    simpa using wire.symm
  subst nothing
  have present : heard = flow.consumed := by
    simpa using tracks.last flow.consumed current
  have same : flow.credit.peerBufAlloc = buffer := by
    have buffered := tracks.buffered
    grind
  rw [available, same, present]

/-- A sender told of a 1000-byte buffer sends 600 bytes; 200 are consumed and
told. -/
theorem credit_exact_partial :
    let actions : List Action :=
      [.tell, .hear, .send 600, .arrive 600, .consume 200, .tell, .hear]
    Legal Allowed (step 1000) start actions ∧
      (run (step 1000) start actions).credit.available.toNat = 600 := by
  have legal : Legal Allowed (step 1000) start
      [.tell, .hear, .send 600, .arrive 600, .consume 200, .tell, .hear] := by
    refine ⟨?_, ?_, ?_, ?_, ?_, ?_, ?_, trivial⟩ <;> decide
  exact ⟨legal, (credit_exact 1000 _ legal).2.2 (by decide) (by decide)⟩

/-- With every message heard but the last consumption not told, the sender still
counts the consumed bytes as in flight: 995 are available though nothing is. -/
theorem untold_consumption_not_available :
    let actions : List Action := [.tell, .hear, .send 5, .arrive 5, .consume 5]
    Legal Allowed (step 1000) start actions ∧
      (run (step 1000) start actions).messages = [] ∧
      (run (step 1000) start actions).credit.available.toNat ≠
        1000 - ((run (step 1000) start actions).sent -
          (run (step 1000) start actions).consumed) := by
  refine ⟨⟨?_, ?_, ?_, ?_, ?_, trivial⟩, ?_, ?_⟩ <;> decide

end Lighter.Vsock.CreditFlow
