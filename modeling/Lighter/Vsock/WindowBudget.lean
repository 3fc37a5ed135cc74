import Lighter.Vsock.Sections

/-!
# The windows and the budget they come from

Growing, cutting, closing, replacing and expiring a connection all move one
shared counter, with arithmetic that saturates. The law is that the counter is
at all times what the windows in the table hold beyond the least each, so no
subtraction ever saturates and an empty table owes nothing. A device reset is
left out here: it empties the table without returning the windows.
-/

namespace Lighter.Vsock

open Packet Transition Budget Vsock.Inner Table

/-- What the windows of a table hold beyond the least each. -/
def windowsBeyondLeast (conns : Table ConnKey Conn) : Nat :=
  Table.sum (fun _ conn => beyondLeast conn.window) conns

/-- The budget has granted what the table's windows hold. -/
structure Funded (inner : Inner) : Prop where
  granted : inner.budget.granted = windowsBeyondLeast inner.conns
  within : inner.budget.granted ≤ inner.budget.total
  total : inner.budget.total = Credit.budgetTotal
  sized : ∀ key conn, inner.conns.lookup key = some conn → Sized conn.window

namespace Funded

variable {inner : Inner} {key : ConnKey} {conn changed : Conn}

theorem start (now : Nat) : Funded (Inner.new now) where
  granted := rfl
  within := Nat.zero_le _
  total := rfl
  sized := by
    intro key conn found
    simp [Inner.new] at found

/-- Replacing a connection is paid for when the budget moves by the difference of
the two windows. -/
theorem replace (funded : Funded inner) (present : inner.conns.lookup key = some conn)
    (budget : Budget) (fits : Sized changed.window)
    (paid : budget.granted + beyondLeast conn.window =
      inner.budget.granted + beyondLeast changed.window)
    (within : budget.granted ≤ budget.total) (total : budget.total = inner.budget.total) :
    Funded { inner.set key changed with budget := budget } where
  granted := by
    have moved := sum_replace (fun _ conn => beyondLeast conn.window) key conn changed
      inner.conns present
    have before := funded.granted
    change budget.granted = sum _ (inner.conns.insert key changed)
    unfold windowsBeyondLeast at before
    omega
  within := within
  total := total.trans funded.total
  sized := all_insert (fun tested found _ => funded.sized tested found) fits

/-- A connection that keeps its window costs nothing. -/
theorem same_window (funded : Funded inner) (found : inner.conns.lookup key = some conn)
    (window : changed.window = conn.window) : Funded (inner.set key changed) := by
  have fits : Sized changed.window := window ▸ funded.sized key conn found
  exact funded.replace found inner.budget fits (by rw [window]) funded.within rfl

section

variable (funded : Funded inner)
include funded

/-- The law speaks of the table and the budget only. -/
theorem of_eq {other : Inner} (conns : other.conns = inner.conns)
    (budget : other.budget = inner.budget) : Funded other := by
  obtain ⟨granted, within, total, sized⟩ := funded
  rw [← conns, ← budget] at granted
  rw [← budget] at within total
  rw [← conns] at sized
  exact ⟨granted, within, total, sized⟩

/-- A connection that leaves the table takes its window's charge with it. -/
theorem close (found : inner.conns.lookup key = some conn) :
    (inner.budget.close conn.window).granted =
      windowsBeyondLeast (inner.conns.erase key) := by
  have split := sum_of_lookup (fun _ conn => beyondLeast conn.window) key conn inner.conns found
  have before := funded.granted
  unfold windowsBeyondLeast at before ⊢
  simp only [Budget.close]
  omega

theorem remove (present : inner.conns.lookup key = some conn) :
    Funded ({ inner with conns := inner.conns.erase key }.retire conn) where
  granted := funded.close present
  within := (Nat.sub_le _ _).trans funded.within
  total := funded.total
  sized := all_erase fun tested found _ => funded.sized tested found

/-- A new connection opens at the least, and one it replaces is closed. -/
theorem insert (guestPort : UInt32) (state : State) (now : Nat) :
    Funded (inner.apply (.insert key guestPort state now)) := by
  have sized (tested : ConnKey) (found : Conn)
      (lookup : (inner.conns.insert key (Conn.new guestPort state opened
        (inner.nextId + 1) now)).lookup tested = some found) : Sized found.window :=
    all_insert (fun tested found _ => funded.sized tested found) opened_sized tested found lookup
  have weight : windowsBeyondLeast (inner.conns.insert key
      (Conn.new guestPort state opened (inner.nextId + 1) now)) =
        windowsBeyondLeast (inner.conns.erase key) := by
    unfold windowsBeyondLeast
    rw [sum_insert]
    simp [Conn.new]
  simp only [Inner.apply]
  cases present : inner.conns.lookup key with
  | none =>
    refine ⟨?_, funded.within, funded.total, sized⟩
    refine Eq.trans ?_ weight.symm
    rw [erase_of_lookup_none key inner.conns present]
    exact funded.granted
  | some old =>
    refine ⟨?_, (Nat.sub_le _ _).trans funded.within, funded.total, sized⟩
    exact (funded.close present).trans weight.symm

theorem giveBack (now : Nat) (head : UInt16) : Funded (Inner.giveBack now inner head) := by
  unfold Inner.giveBack
  simp only
  cases inner.holders.lookup head with
  | none => exact funded.of_eq rfl rfl
  | some owner =>
    obtain ⟨key, id⟩ := owner
    simp only
    cases found : inner.conns.lookup key with
    | none => exact funded.of_eq rfl rfl
    | some conn =>
      simp only
      split
      · have kept : Funded (inner.set key { conn with held := conn.held - 1 }) :=
          funded.same_window found rfl
        exact kept.of_eq rfl rfl
      · exact funded.of_eq rfl rfl

theorem finishDone (now : Nat) : Funded (inner.finishDone now).1 := by
  have walk (list : List UInt16) (start : Inner) (initial : Funded start) :
      Funded (list.foldl (Inner.giveBack now) start) := by
    induction list generalizing start with
    | nil => exact initial
    | cons head _ ih => exact ih _ (initial.giveBack now head)
  exact walk inner.done _ (funded.of_eq rfl rfl)

/-- Every sound move but a reset keeps the budget and the windows in step.

Proof: only four moves change a window or remove one. Growth and cutting charge
the budget the difference, by their own laws; a connection that leaves returns
what it held, also when a new one takes its key. -/
theorem apply {move : Move} (sound : Sound inner move)
    (kind : move ≠ .reset) : Funded (inner.apply move) := by
  cases move with
  | edit key conn =>
    obtain ⟨before, found, kept⟩ := sound
    exact funded.same_window found kept.window
  | consume key bytes | arrive key bytes =>
    exact onConn_holds Funded funded fun conn found => funded.same_window found rfl
  | send key payload =>
    obtain ⟨conn, found, _⟩ := sound
    simp only [Inner.apply]
    rw [onConn_present found, sendPacket_present found]
    have queued : Funded (inner.queue
        (Inner.rwPacket key conn.window conn.credit.fwdCnt payload)) := funded.of_eq rfl rfl
    exact queued.same_window found rfl
  | hold key head spans =>
    refine onConn_holds Funded funded fun conn found => ?_
    have kept : Funded (inner.set key { conn with
        outbound := conn.outbound ++ [.guest head spans], held := conn.held + 1 }) :=
      funded.same_window found rfl
    exact kept.of_eq rfl rfl
  | leave key left finished taken =>
    refine onConn_holds Funded funded fun conn found => ?_
    have kept : Funded (inner.set key { conn with outbound := left }) :=
      funded.same_window found rfl
    exact kept.of_eq rfl rfl
  | grow key =>
    refine onConn_holds Funded funded fun conn found => ?_
    obtain ⟨fits, paid, within, total⟩ :=
      grow_exact inner.budget conn.window (funded.sized key conn found) funded.within
    exact funded.replace found _ fits paid within total
  | shrink key =>
    refine onConn_holds Funded funded fun conn found => ?_
    have least := shrink_least inner.budget conn.window (funded.sized key conn found)
    have share := weight_le_sum (fun _ conn => beyondLeast conn.window) key conn inner.conns found
    have before := funded.granted
    unfold windowsBeyondLeast at before
    refine funded.replace found _ ?_ ?_ ((Nat.sub_le _ _).trans funded.within) rfl
    · rw [least]
      exact opened_sized
    have none : beyondLeast (inner.budget.shrink conn.window).2 = 0 := by
      rw [least]
      exact beyondLeast_opened
    simp only [none]
    simp only [Budget.shrink]
    omega
  | remove key => exact onConn_holds Funded funded fun conn found => funded.remove found
  | insert key guestPort state now => exact funded.insert guestPort state now
  | finish now => exact funded.finishDone now
  | deliver room =>
    simp only [Inner.apply, Inner.deliverNext]
    cases inner.outbox.popFront with
    | none => exact funded
    | some pair => exact funded.of_eq rfl rfl
  | halfClose key =>
    exact onConn_holds Funded funded fun _ _ => funded.of_eq rfl rfl
  | reset => exact absurd rfl kind
  | aside fields | queue packet | dropInput key | complete heads => exact funded.of_eq rfl rfl

end

end Funded

/-- No section but a reset makes the reset move. -/
theorem Act.extra_not_reset {act : Act} (kind : act ≠ .reset) {move : Move}
    {inner : Inner} (legal : Routine inner move ∨ act.extra move) : move ≠ .reset := by
  rintro rfl
  rcases legal with routine | named
  · exact routine
  · cases act with
    | reset => exact kind rfl
    | _ => exact named

theorem step_funded (settings : Settings) (inner : Inner) (act : Act) (kind : act ≠ .reset)
    (keyed : Keyed inner) (funded : Funded inner) : Funded (step settings inner act) :=
  (step_does settings inner keyed act).invariant Funded
    (fun _ _ funded legal =>
      funded.apply legal.1 (Act.extra_not_reset kind legal.2)) funded

/-- The fresh table files nothing wrongly. -/
theorem new_keyed (now : Nat) : Keyed (Inner.new now) := by
  intro key conn found
  simp [Inner.new] at found

/-- In every run of the device without a reset, in any order and with any clock
readings, the budget has granted exactly what the windows in the table hold
beyond the least, no more than its total, and every window lies between the
least and a full one. When the table is empty nothing is granted. -/
theorem granted_eq_windows (settings : Settings) (now : Nat) (acts : List Act)
    (legal : Legal (fun _ act => act ≠ .reset) (step settings) (Inner.new now) acts) :
    let inner := run (step settings) (Inner.new now) acts
    inner.budget.granted =
        Table.sum (fun _ conn => conn.window.toNat - Credit.minWindow.toNat) inner.conns ∧
      inner.budget.granted ≤ inner.budget.total ∧
      inner.budget.total = Credit.budgetTotal ∧
      (∀ key conn, inner.conns.lookup key = some conn →
        Credit.minWindow ≤ conn.window ∧ conn.window ≤ Credit.bufAlloc) ∧
      (inner.conns = ∅ → inner.budget.granted = 0) := by
  intro inner
  have both : Keyed inner ∧ Funded inner :=
    run_invariant (fun _ act => act ≠ .reset) (step settings)
      (fun state => Keyed state ∧ Funded state)
      (fun state act ⟨keyed, funded⟩ kind =>
        ⟨step_keyed settings state keyed act, step_funded settings state act kind keyed funded⟩)
      (Inner.new now) acts ⟨new_keyed now, Funded.start now⟩ legal
  obtain ⟨_, funded⟩ := both
  refine ⟨?_, funded.within, funded.total, ?_, ?_⟩
  · have same := funded.granted
    simpa only [windowsBeyondLeast, beyondLeast_eq] using same
  · intro key conn found
    obtain ⟨least, most⟩ := funded.sized key conn found
    exact ⟨UInt32.le_iff_toNat_le.mpr least, UInt32.le_iff_toNat_le.mpr most⟩
  · intro empty
    have same := funded.granted
    rw [empty] at same
    exact same

/-- A connection we opened, the guest answered, and a quarter of whose window was
drained. -/
def drainedQuarter : List Act :=
  [.openConn 1024 0,
    .handle { Packet.control .response 1024 firstEphemeralPort with bufAlloc := 262144 } 0,
    .acknowledge (firstEphemeralPort, 1024) 16384 0]

/-- Its window doubled, and the budget has granted the gain. -/
theorem granted_eq_windows_doubled :
    let inner := run (step ⟨false, false⟩) (Inner.new 0) drainedQuarter
    inner.budget.granted = 65536 ∧
      Table.sum (fun _ conn => conn.window.toNat - Credit.minWindow.toNat) inner.conns =
        65536 := by
  intro inner
  have legal : Legal (fun _ act => act ≠ .reset) (step ⟨false, false⟩) (Inner.new 0)
      drainedQuarter := by
    refine ⟨?_, ?_, ?_, trivial⟩ <;> exact fun same => by cases same
  have grown : inner.budget.granted = 65536 := by decide
  exact ⟨grown, (granted_eq_windows ⟨false, false⟩ 0 drainedQuarter legal).1 ▸ grown⟩

end Lighter.Vsock
