import Lighter.Vsock.ChainAccounting
import Lighter.Vsock.WindowBudget

/-!
# A device reset and what it leaves behind

The driver resets the device and starts a new session with empty rings. The
reset empties the table and the outbox in place. It does not retire the
connections, so it returns neither the windows they had grown nor the chains
they held, and it does not clear the count of held chains, their holders or the
done ones. A session then starts clean exactly when nothing had been granted and
no chain was held.

`Session` runs the device across resets. The histories of heads taken and handed
back are those of the present session; a writer keeps what it had in hands.
-/

namespace Lighter.Vsock

open Packet Transition List

/-- The shared accounting of a fresh device. -/
def Fresh (inner : Inner) : Prop :=
  inner.conns = ∅ ∧ inner.outbox = Outbox.empty ∧ inner.budget.granted = 0 ∧
    inner.held = 0 ∧ inner.holders = ∅ ∧ inner.done = []

namespace Session

/-- A reset starts new histories; every other section is as before. -/
def step (settings : Settings) (custody : Custody) : Act → Custody
  | .reset => ⟨custody.inner.reset, custody.hands, [], []⟩
  | act => custody.step settings act

/-- Nothing has been granted and no chain is held. -/
def Clean (inner : Inner) : Prop := inner.budget.granted = 0 ∧ inner.held = 0

/-- The driver and the writers keep their promises, and resets are clean. -/
def Allowed (custody : Custody) : Act → Prop
  | .reset => Clean custody.inner
  | act => custody.Allowed act

/-- The books of a session: its chains balance and its windows are funded. -/
structure Kept (custody : Custody) : Prop where
  balanced : custody.Balanced
  funded : Funded custody.inner

variable {custody : Custody}

/-- With no chain held, none has a holder, waits to go back, or is in hands. -/
theorem nothing_held (balanced : custody.Balanced) (none : custody.inner.held = 0) :
    custody.inner.holders = ∅ ∧ custody.inner.done = [] ∧ custody.hands = [] ∧
      queuedHeads custody.inner.conns = [] := by
  have books := balanced.accounted
  have keys : custody.inner.holders.keys = [] := by
    apply eq_nil_of_length_eq_zero
    rw [← books.held]
    exact none
  have held : heldHeads custody.inner custody.hands = [] := by
    have same := books.owned
    rw [keys] at same
    exact same.nil_eq.symm
  have empty : custody.inner.holders = ∅ := Table.eq_empty_of_entries _ (map_eq_nil_iff.mp keys)
  simp only [heldHeads, append_eq_nil_iff] at held
  exact ⟨empty, held.2, held.1.2, held.1.1⟩

/-- A clean reset leaves a fresh device. -/
theorem fresh_of_clean (balanced : custody.Balanced)
    (clean : Clean custody.inner) : Fresh custody.inner.reset := by
  obtain ⟨holders, done, _, _⟩ := nothing_held balanced clean.2
  exact ⟨rfl, rfl, clean.1, clean.2, holders, done⟩

/-- With no chain held, a reset leaves the accounts in order. -/
theorem reset_accounted (balanced : custody.Balanced)
    (none : custody.inner.held = 0) : Accounted custody.inner.reset custody.hands := by
  obtain ⟨holders, done, hands, _⟩ := nothing_held balanced none
  have books := balanced.accounted
  have absent (key : ConnKey) (conn : Conn) :
      (∅ : Table ConnKey Conn).lookup key ≠ some conn := by simp
  refine ⟨?_, books.held, ?_, ?_, books.ownerIds, books.ringLimit, ?_⟩
  · simp [heldHeads, queuedHeads, Inner.reset, holders, done, hands]
  · intro key conn found
    exact absurd found (absent key conn)
  · intro key conn found
    exact absurd found (absent key conn)
  · intro key conn found
    exact absurd found (absent key conn)

/-- A table without connections is filed. -/
theorem reset_keyed (inner : Inner) : Keyed inner.reset := by
  intro key conn found
  simp [Inner.reset] at found

theorem reset_kept {custody : Custody} (kept : Kept custody) (clean : Clean custody.inner) :
    Kept ⟨custody.inner.reset, custody.hands, [], []⟩ := by
  refine ⟨⟨reset_keyed _, reset_accounted kept.balanced clean.2, ?_⟩, ?_⟩
  · obtain ⟨holders, _⟩ := nothing_held kept.balanced clean.2
    simp [Inner.reset, holders]
  · refine ⟨clean.1, kept.funded.within, kept.funded.total, ?_⟩
    intro key conn found
    simp [Inner.reset] at found

theorem step_kept (settings : Settings) (custody : Custody) (act : Act) (kept : Kept custody)
    (allowed : Allowed custody act) : Kept (step settings custody act) := by
  by_cases resets : act = .reset
  · subst resets
    exact reset_kept kept allowed
  have same : step settings custody act = custody.step settings act := by
    cases act <;> first | rfl | exact absurd rfl resets
  have promised : custody.Allowed act := by
    cases act <;> first | exact allowed | exact absurd rfl resets
  rw [same]
  exact ⟨Custody.step_balanced settings custody act kept.balanced promised,
    step_funded settings custody.inner act resets kept.balanced.keyed kept.funded⟩

theorem run_kept (settings : Settings) (now ring : Nat) (acts : List Act)
    (legal : Legal Allowed (step settings) (Custody.start now ring) acts) :
    Kept (run (step settings) (Custody.start now ring) acts) :=
  run_invariant Allowed (step settings) Kept (step_kept settings) (Custody.start now ring) acts
    ⟨Custody.start_balanced now ring, (Funded.start now).of_eq rfl rfl⟩ legal

end Session

/-- In every run whose earlier resets were clean, a reset leaves the accounting of a
fresh device exactly when nothing has been granted and no chain is held; no
writer then holds a head from before it, and whatever is handed back in a
session was taken in that session.

Proof: the reset itself changes neither the grants nor the count of held chains,
which gives one direction. In the other, a count of zero leaves no holder, no
done head and no head in hands, so the books balance again from empty
histories. -/
theorem reset_fresh_iff (settings : Settings) (now ring : Nat) (acts : List Act)
    (legal : Legal Session.Allowed (Session.step settings) (Custody.start now ring) acts) :
    let custody := run (Session.step settings) (Custody.start now ring) acts
    (Fresh custody.inner.reset ↔
        custody.inner.budget.granted = 0 ∧ custody.inner.held = 0) ∧
      (custody.inner.held = 0 → custody.hands = []) ∧
      custody.taken.Perm (custody.returned ++ heldHeads custody.inner custody.hands) ∧
      (∀ head ∈ custody.returned, head ∈ custody.taken) ∧
      custody.inner.held + custody.returned.length = custody.taken.length := by
  intro custody
  have kept : Session.Kept custody := Session.run_kept settings now ring acts legal
  have history := kept.balanced.history
  refine ⟨⟨?_, ?_⟩, ?_, ?_, ?_, ?_⟩
  · rintro ⟨_, _, granted, held, _, _⟩
    exact ⟨granted, held⟩
  · intro clean
    exact Session.fresh_of_clean kept.balanced clean
  · intro none
    exact (Session.nothing_held kept.balanced none).2.2.1
  · exact history.trans (kept.balanced.accounted.owned.append_left custody.returned)
  · grind
  · have count := history.length_eq
    rw [length_append, ← kept.balanced.accounted.held] at count
    omega

/-- A session in which a connection came and nothing was left of it. -/
theorem reset_fresh_iff_idle :
    let acts : List Act := [.listen 5000, .handle (Packet.control .request 7 5000) 0, .reset]
    Legal Session.Allowed (Session.step ⟨false, false⟩) (Custody.start 0 4) acts ∧
      Fresh (run (Session.step ⟨false, false⟩) (Custody.start 0 4) acts).inner.reset := by
  intro acts
  have legal : Legal Session.Allowed (Session.step ⟨false, false⟩) (Custody.start 0 4) acts := by
    refine ⟨trivial, trivial, ⟨?_, ?_⟩, trivial⟩ <;> decide
  refine ⟨legal, (reset_fresh_iff ⟨false, false⟩ 0 4 acts legal).1.mpr ⟨?_, ?_⟩⟩ <;> decide

/-- A guest sends a quarter of its window, which is written and acknowledged, and
then a payload that a writer has in hands. -/
def grownAndInHands : List Act :=
  [.listen 5000,
    .handle (Packet.control .request 7 5000) 0,
    .guestRw ⟨[], fun _ => 0⟩ (Packet.control .rw 7 5000) 1 [(4096, 16384)] 0,
    .take (5000, 7),
    .complete [1],
    .finishDone 0,
    .acknowledge (5000, 7) 16384 0,
    .guestRw ⟨[], fun _ => 0⟩ (Packet.control .rw 7 5000) 3 [(4096, 10)] 0,
    .take (5000, 7)]

/-- The reset keeps the grown window's charge and counts the chain in the writer's
hands. When the writer completes it, its head is handed to a driver that offered
none. -/
theorem reset_leaves_stale_accounting :
    Legal Session.Allowed (Session.step ⟨false, false⟩) (Custody.start 0 4) grownAndInHands ∧
      (run (Session.step ⟨false, false⟩) (Custody.start 0 4)
        (grownAndInHands ++ [.reset])).inner.budget.granted = 65536 ∧
      (run (Session.step ⟨false, false⟩) (Custody.start 0 4)
        (grownAndInHands ++ [.reset])).inner.held = 1 ∧
      (run (Session.step ⟨false, false⟩) (Custody.start 0 4)
        (grownAndInHands ++ [.reset, .complete [3], .finishDone 0])).taken = [] ∧
      (run (Session.step ⟨false, false⟩) (Custody.start 0 4)
        (grownAndInHands ++ [.reset, .complete [3], .finishDone 0])).returned = [3] := by
  refine ⟨⟨trivial, trivial, ?_, trivial, ?_, trivial, trivial, ?_, trivial, trivial⟩,
    ?_, ?_, ?_, ?_⟩
  · change count _ _ = count _ _
    decide
  · change Subperm _ _
    decide
  · change count _ _ = count _ _
    decide
  all_goals decide

end Lighter.Vsock
