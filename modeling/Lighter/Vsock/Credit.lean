import Lighter.Lib.Fixed

/-!
# Flow control: one connection's counters and the windows they share

Each side of a connection publishes the size of its receive buffer and how much
its application has consumed since the connection opened. The sender derives
what it may send. Every counter wraps at 32 bits, by the protocol's definition.

The windows the host advertises come out of one budget. A window opens at the
least, doubles as its connection drains as far as the budget allows, and is cut
back to the least or returned with its connection. The budget counts only what
windows hold beyond the least.
-/

namespace Lighter.Vsock

open Fixed

namespace Credit

/-- The most a window can be. -/
def bufAlloc : UInt32 := 4 * 1024 * 1024

/-- What a connection keeps however tight the budget. -/
def minWindow : UInt32 := 64 * 1024

/-- What every window together may promise beyond the least each keeps. -/
def budgetTotal : Nat := 128 * 1024 * 1024

end Credit

/-- One direction's accounting for one connection. -/
structure Credit where
  /-- The peer's receive buffer, as it last reported. -/
  peerBufAlloc : UInt32
  /-- What the peer's application has consumed, as it last reported. -/
  peerFwdCnt : UInt32
  /-- What we have sent. -/
  txCnt : UInt32
  /-- What our own application has consumed. -/
  fwdCnt : UInt32
deriving DecidableEq, Repr

namespace Credit

/-- Nothing may be sent before the peer has advertised a buffer. -/
def new : Credit := ⟨0, 0, 0, 0⟩

def observe (credit : Credit) (bufAlloc fwdCnt : UInt32) : Credit :=
  { credit with peerBufAlloc := bufAlloc, peerFwdCnt := fwdCnt }

/-- How many bytes may be sent now. The bytes in flight wrap; a peer that
reports more consumed than was sent leaves nothing available. -/
def available (credit : Credit) : UInt32 :=
  saturatingSub credit.peerBufAlloc (credit.txCnt - credit.peerFwdCnt)

def sent (credit : Credit) (bytes : UInt32) : Credit :=
  { credit with txCnt := credit.txCnt + bytes }

def consumed (credit : Credit) (bytes : UInt32) : Credit :=
  { credit with fwdCnt := credit.fwdCnt + bytes }

/-- True counts less than a lap apart determine what is available. -/
theorem available_exact (credit : Credit) (sentTotal heard : Nat)
    (tx : credit.txCnt = UInt32.ofNat sentTotal) (peer : credit.peerFwdCnt = UInt32.ofNat heard)
    (ordered : heard ≤ sentTotal) (near : sentTotal - heard < 2 ^ 32) :
    credit.available.toNat = credit.peerBufAlloc.toNat - (sentTotal - heard) := by
  rw [available, toNat_saturatingSub, tx, peer, toNat_ofNat_sub sentTotal heard ordered near]

end Credit

/-- The windows every connection advertises, drawn from one total. -/
structure Budget where
  total : Nat
  granted : Nat
deriving DecidableEq, Repr

namespace Budget

open Credit

def new (total : Nat) : Budget := ⟨total, 0⟩

def default : Budget := new budgetTotal

def free (budget : Budget) : Nat := budget.total - budget.granted

/-- A new connection's window is the least; the budget does not change. -/
def opened : UInt32 := minWindow

/-- The window after a connection drained a quarter of it: doubled, as far as
the budget and a full window allow. -/
def grow (budget : Budget) (window : UInt32) : Budget × UInt32 :=
  let want := min (window.toNat * 2) bufAlloc.toNat
  let grown := max (min want (window.toNat + budget.free)) window.toNat
  ({ budget with granted := budget.granted + (grown - window.toNat) }, UInt32.ofNat grown)

/-- What a window holds beyond the least. -/
def beyondLeast (window : UInt32) : Nat := (saturatingSub window minWindow).toNat

/-- The least window, for a connection whose peer stopped or that is idle. -/
def shrink (budget : Budget) (window : UInt32) : Budget × UInt32 :=
  ({ budget with granted := budget.granted - beyondLeast window },
    if window ≤ minWindow then window else minWindow)

/-- A connection is gone and its window with it. -/
def close (budget : Budget) (window : UInt32) : Budget :=
  { budget with granted := budget.granted - beyondLeast window }

/-- A window within its bounds. -/
def Sized (window : UInt32) : Prop :=
  minWindow.toNat ≤ window.toNat ∧ window.toNat ≤ bufAlloc.toNat

theorem beyondLeast_eq (window : UInt32) : beyondLeast window = window.toNat - minWindow.toNat := by
  simp [beyondLeast]

theorem opened_sized : Sized opened := by
  constructor <;> decide

@[simp] theorem beyondLeast_opened : beyondLeast opened = 0 := by
  decide

/-- Growth keeps a window within its bounds, charges the budget exactly what the
window gained and never passes the total.

Proof: the candidate lies between the old window and both a full window and the
old window with everything free, so it fits in 32 bits and its gain is free. -/
theorem grow_exact (budget : Budget) (window : UInt32) (sized : Sized window)
    (within : budget.granted ≤ budget.total) :
    Sized (budget.grow window).2 ∧
      (budget.grow window).1.granted + beyondLeast window =
        budget.granted + beyondLeast (budget.grow window).2 ∧
      (budget.grow window).1.granted ≤ (budget.grow window).1.total ∧
      (budget.grow window).1.total = budget.total := by
  obtain ⟨least, most⟩ := sized
  set grown := max (min (min (window.toNat * 2) bufAlloc.toNat)
    (window.toNat + budget.free)) window.toNat
  have atLeast : window.toNat ≤ grown := Nat.le_max_right _ _
  have atMost : grown ≤ bufAlloc.toNat :=
    Nat.max_le.mpr ⟨(Nat.min_le_left _ _).trans (Nat.min_le_right _ _), most⟩
  have affordable : grown ≤ window.toNat + (budget.total - budget.granted) :=
    Nat.max_le.mpr ⟨Nat.min_le_right _ _, Nat.le_add_right _ _⟩
  have width : bufAlloc.toNat < 2 ^ 32 := bufAlloc.toNat_lt
  have fits : (UInt32.ofNat grown).toNat = grown := by
    rw [UInt32.toNat_ofNat']
    exact Nat.mod_eq_of_lt (by omega)
  have result : budget.grow window =
      ({ budget with granted := budget.granted + (grown - window.toNat) },
        UInt32.ofNat grown) := rfl
  simp only [result, Sized, beyondLeast_eq, fits]
  clear_value grown
  exact ⟨⟨by omega, by omega⟩, by omega, by omega, trivial⟩

/-- Cutting a window returns exactly what it held beyond the least. -/
theorem shrink_least (budget : Budget) (window : UInt32) (sized : Sized window) :
    (budget.shrink window).2 = minWindow := by
  simp only [shrink]
  split
  · next below =>
    apply UInt32.toNat.inj
    exact Nat.le_antisymm (UInt32.le_iff_toNat_le.mp below) sized.1
  · rfl

end Budget
end Lighter.Vsock
