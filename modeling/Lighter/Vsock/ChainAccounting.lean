import Lighter.Vsock.Sections

/-!
# Transmit chains: who holds each, and that each goes back once

A chain left in place for its payload is queued on a connection, then in a
writer's hands, then done, and finally handed back to the driver. It can leave a
connection through a writer, a read that cut across it, a close, a reset, a
replacement under the same key, or the warden. The device keeps two counters and
a map of holders in step with all of that.

What the device cannot see is kept beside it: the heads in writers' hands, and
the history of heads taken and handed back. The driver offers a head only when
it has had it back as often as it was taken, and a writer completes a head it
took once. A device reset is left out.
-/

namespace Lighter.Vsock

open Packet Transition List Vsock.Inner
open Table (all_erase all_insert)

/-- The heads queued on connections. -/
def queuedHeads (conns : Table ConnKey Conn) : List UInt16 :=
  Table.gather (fun _ conn => heads conn.outbound) conns

/-- Every head held: queued, in a writer's hands, or done. -/
def heldHeads (inner : Inner) (hands : List UInt16) : List UInt16 :=
  queuedHeads inner.conns ++ hands ++ inner.done

/-- How many holders name a connection. -/
def holdings (holders : Table UInt16 (ConnKey × Nat)) (owner : ConnKey × Nat) : Nat :=
  Table.sum (fun _ holder => if holder = owner then 1 else 0) holders

/-- The counters and the map of holders agree with the heads held. -/
structure Accounted (inner : Inner) (hands : List UInt16) : Prop where
  owned : inner.holders.keys.Perm (heldHeads inner hands)
  held : inner.held = inner.holders.keys.length
  share : ∀ key conn, inner.conns.lookup key = some conn →
    conn.held = holdings inner.holders (key, conn.id)
  connIds : ∀ key conn, inner.conns.lookup key = some conn → conn.id ≤ inner.nextId
  ownerIds : ∀ head owner, inner.holders.lookup head = some owner → owner.2 ≤ inner.nextId
  ringLimit : inner.held ≤ inner.txLimits.1
  connLimit : ∀ key conn, inner.conns.lookup key = some conn → conn.held ≤ inner.txLimits.2

/-- What a move does to the heads in writers' hands. -/
def Move.hands (hands : List UInt16) : Move → List UInt16
  | .leave _ _ _ taken => hands ++ taken
  | .complete heads => hands.diff heads
  | _ => hands

/-- The promises a move needs: a head held is not held already, and completed
heads are in hands. -/
def Move.Promised (inner : Inner) (hands : List UInt16) : Move → Prop
  | .hold _ head _ => head ∉ heldHeads inner hands
  | .complete heads => heads.Subperm hands
  | .reset => False
  | _ => True

namespace Accounted

variable {inner : Inner} {hands : List UInt16} {key : ConnKey} {conn changed : Conn}

theorem start (now ring : Nat) : Accounted { Inner.new now with txRing := ring } [] where
  owned := List.Perm.nil
  held := rfl
  share := by
    intro key conn found
    simp [Inner.new] at found
  connIds := by
    intro key conn found
    simp [Inner.new] at found
  ownerIds := by
    intro head owner found
    simp [Inner.new] at found
  ringLimit := Nat.zero_le _
  connLimit := by
    intro key conn found
    simp [Inner.new] at found

section

variable (books : Accounted inner hands)
include books

/-- No head is held twice. -/
theorem nodup : (heldHeads inner hands).Nodup :=
  books.owned.nodup_iff.mp inner.holders.keys_nodup

/-- The accounts speak of these fields only. -/
theorem of_eq {other : Inner} (conns : other.conns = inner.conns) (done : other.done = inner.done)
    (held : other.held = inner.held) (holders : other.holders = inner.holders)
    (nextId : other.nextId = inner.nextId) (ring : other.txRing = inner.txRing) :
    Accounted other hands := by
  obtain ⟨owned, count, share, connIds, ownerIds, ringLimit, connLimit⟩ := books
  have limits : other.txLimits = inner.txLimits := by simp [txLimits, ring]
  refine ⟨?_, ?_, ?_, ?_, ?_, ?_, ?_⟩
  · simpa only [heldHeads, conns, done, holders] using owned
  · rw [held, holders]
    exact count
  · rw [conns, holders]
    exact share
  · rw [conns, nextId]
    exact connIds
  · rw [holders, nextId]
    exact ownerIds
  · rw [held, limits]
    exact ringLimit
  · rw [conns, limits]
    exact connLimit

/-- A connection is replaced by one of the same identity and count, and heads move
between its queue, the writers' hands and the done ones. -/
theorem replace
    (present : inner.conns.lookup key = some conn) (changed : Conn) (later done : List UInt16)
    (id : changed.id = conn.id) (held : changed.held = conn.held)
    (moved : (heads conn.outbound ++ hands ++ inner.done).Perm
      (heads changed.outbound ++ later ++ done)) :
    Accounted { inner.set key changed with done := done } later where
  owned := by
    have before := Table.gather_of_lookup (fun _ conn => heads conn.outbound) key conn
      inner.conns present
    have after := Table.gather_insert (fun _ conn => heads conn.outbound) key changed inner.conns
    have all := books.owned
    refine all.trans ?_
    simp only [heldHeads, queuedHeads, Inner.set]
    rw [after, perm_iff_count]
    rw [perm_iff_count] at before moved
    intro head
    have first := before head
    have second := moved head
    simp only [count_append] at first second ⊢
    omega
  held := books.held
  share := by
    refine all_insert (fun tested found _ => books.share tested found) ?_
    rw [held, id]
    exact books.share key conn present
  connIds := by
    refine all_insert (fun tested found _ => books.connIds tested found) ?_
    rw [id]
    exact books.connIds key conn present
  ownerIds := books.ownerIds
  ringLimit := books.ringLimit
  connLimit := by
    refine all_insert (fun tested found _ => books.connLimit tested found) ?_
    rw [held]
    exact books.connLimit key conn present

/-- A connection that keeps its queue, identity and count. -/
theorem same_queue (found : inner.conns.lookup key = some conn) (id : changed.id = conn.id)
    (held : changed.held = conn.held) (outbound : changed.outbound = conn.outbound) :
    Accounted (inner.set key changed) hands :=
  books.replace found changed hands inner.done id held (by rw [outbound])

/-- A head that is not held has no holder. -/
theorem lookup_none {head : UInt16}
    (free : head ∉ heldHeads inner hands) : inner.holders.lookup head = none := by
  apply AList.lookup_eq_none.mpr
  intro member
  exact free (books.owned.mem_iff.mp member)

/-- A free head is taken for a connection under both limits.

Proof: its holder is new to the map, so the map, the ring's count and the
connection's count all grow by one, and no other connection is named. -/
theorem hold
    (present : inner.conns.lookup key = some conn) (head : UInt16) (spans : List (Nat × Nat))
    (free : head ∉ heldHeads inner hands) (share : conn.held < inner.txLimits.2)
    (ring : inner.held < inner.txLimits.1) :
    Accounted (inner.apply (.hold key head spans)) hands := by
  have absent := books.lookup_none free
  have outside : head ∉ inner.holders.keys := AList.lookup_eq_none.mp absent
  have keys : (inner.holders.insert head (key, conn.id)).keys = head :: inner.holders.keys := by
    rw [AList.keys_insert, erase_of_not_mem outside]
  have count (owner : ConnKey × Nat) :
      holdings (inner.holders.insert head (key, conn.id)) owner =
        (if (key, conn.id) = owner then 1 else 0) + holdings inner.holders owner := by
    unfold holdings
    rw [Table.sum_insert, Table.erase_of_lookup_none head inner.holders absent]
  simp only [Inner.apply]
  rw [onConn_present present]
  refine ⟨?_, ?_, ?_, ?_, ?_, ?_, ?_⟩
  · have before := Table.gather_of_lookup (fun _ conn => heads conn.outbound)
      key conn inner.conns present
    have all := books.owned
    simp only [heldHeads, queuedHeads, Inner.set]
    rw [keys, Table.gather_insert, perm_iff_count]
    rw [perm_iff_count] at before all
    intro tested
    have first := before tested
    have second := all tested
    simp only [heldHeads, queuedHeads, heads, Chunk.heads, count_append,
      flatMap_append, flatMap_cons, flatMap_nil, append_nil,
      count_cons, count_nil] at first second ⊢
    omega
  · simp [keys, books.held]
  · refine all_insert (fun tested found other lookup => ?_) ?_
    · have share := books.share
      grind
    · rw [count, if_pos rfl, ← books.share key conn present]
      exact Nat.add_comm _ _
  · exact all_insert (fun tested found _ => books.connIds tested found)
      (books.connIds key conn present)
  · exact all_insert (fun tested owner _ => books.ownerIds tested owner)
      (books.connIds key conn present)
  · exact ring
  · exact all_insert (fun tested found _ => books.connLimit tested found) share

end

/-- A head in hands is given back.

Proof: its holder leaves the map with it, so the map and the ring's count shrink
by one. The connection it names is charged for it exactly when it is still the
one that took the chain; a successor under the same key has another identity. -/
theorem giveBack {head : UInt16} (books : Accounted inner (head :: hands)) (now : Nat) :
    Accounted (Inner.giveBack now inner head) hands := by
  have member : head ∈ inner.holders.keys := books.owned.mem_iff.mpr (by simp [heldHeads])
  obtain ⟨owner, holder⟩ := Option.isSome_iff_exists.mp (AList.lookup_isSome.mpr member)
  obtain ⟨key, id⟩ := owner
  let left := inner.holders.erase head
  have count (tested : ConnKey × Nat) : holdings inner.holders tested =
      (if (key, id) = tested then 1 else 0) + holdings left tested :=
    Table.sum_of_lookup _ head (key, id) inner.holders holder
  have elsewhere (tested : ConnKey) (found : Conn) (lookup : inner.conns.lookup tested = some found)
      (apart : (key, id) ≠ (tested, found.id)) :
      found.held = holdings left (tested, found.id) := by
    have share := books.share
    grind
  have keys : left.keys = inner.holders.keys.erase head := AList.keys_erase head inner.holders
  have owned : left.keys.Perm (heldHeads inner hands) := by
    rw [keys]
    have front : inner.holders.keys.Perm (head :: heldHeads inner hands) := by
      refine books.owned.trans ?_
      simp only [heldHeads, append_assoc, cons_append]
      exact perm_middle
    simpa using front.erase head
  have length : inner.held - 1 = left.keys.length := by
    rw [keys, length_erase_of_mem member, books.held]
  have ownerIds : ∀ tested owner, left.lookup tested = some owner → owner.2 ≤ inner.nextId :=
    Table.all_erase fun tested owner _ => books.ownerIds tested owner
  have ring : inner.held - 1 ≤ inner.txLimits.1 := (Nat.sub_le _ _).trans books.ringLimit
  unfold Inner.giveBack
  simp only [holder]
  cases present : inner.conns.lookup key with
  | none =>
    refine ⟨owned, length, ?_, books.connIds, ownerIds, ring, books.connLimit⟩
    intro tested found lookup
    refine elsewhere tested found lookup fun equal => ?_
    have same : key = tested := congrArg Prod.fst equal
    rw [same] at present
    cases present.symm.trans lookup
  | some conn =>
    simp only
    split
    · next mine =>
      refine ⟨?_, length, ?_, ?_, ownerIds, ring, ?_⟩
      · have same : queuedHeads (inner.conns.insert key { conn with held := conn.held - 1 }) =
            heads conn.outbound ++ queuedHeads (inner.conns.erase key) :=
          Table.gather_insert _ _ _ _
        have before := Table.gather_of_lookup (fun _ conn => heads conn.outbound) key conn
          inner.conns present
        refine owned.trans ?_
        simp only [heldHeads]
        rw [same]
        exact (before.append_right hands).append_right inner.done
      · refine Table.all_insert (fun tested found other lookup => ?_) ?_
        · grind
        · have share := books.share
          grind
      · exact Table.all_insert (fun tested found _ => books.connIds tested found)
          (books.connIds key conn present)
      · exact Table.all_insert (fun tested found _ => books.connLimit tested found)
          ((Nat.sub_le _ _).trans (books.connLimit key conn present))
    · next replaced =>
      refine ⟨owned, length, ?_, books.connIds, ownerIds, ring, books.connLimit⟩
      intro tested found lookup
      refine elsewhere tested found lookup fun equal => ?_
      have same : key = tested := congrArg Prod.fst equal
      rw [same] at present
      have stands : conn = found := Option.some.inj (present.symm.trans lookup)
      exact replaced (stands ▸ (congrArg Prod.snd equal).symm)

/-- The holder of a head given back leaves the map, and nothing else does. -/
theorem keys_giveBack {head : UInt16} (books : Accounted inner (head :: hands)) (now : Nat) :
    inner.holders.keys.Perm (head :: (Inner.giveBack now inner head).holders.keys) := by
  have member : head ∈ inner.holders.keys := books.owned.mem_iff.mpr (by simp [heldHeads])
  obtain ⟨⟨key, id⟩, holder⟩ := Option.isSome_iff_exists.mp (AList.lookup_isSome.mpr member)
  have erased : (Inner.giveBack now inner head).holders = inner.holders.erase head := by
    grind [Inner.giveBack]
  rw [erased, AList.keys_erase]
  exact perm_cons_erase member

section

variable (books : Accounted inner hands)
include books

/-- The done heads are given back, and no others: they leave the map, and the
accounts hold of what remains.

Proof: induction on the heads, those left to give back counting as in hands. -/
theorem finishDone (now : Nat) :
    Accounted (inner.finishDone now).1 hands ∧
      inner.holders.keys.Perm (inner.done ++ (inner.finishDone now).1.holders.keys) := by
  have walk (list : List UInt16) (start : Inner) (initial : Accounted start (list ++ hands)) :
      Accounted (list.foldl (Inner.giveBack now) start) hands ∧
        start.holders.keys.Perm (list ++ (list.foldl (Inner.giveBack now) start).holders.keys) := by
    induction list generalizing start with
    | nil => exact ⟨initial, List.Perm.refl _⟩
    | cons head rest ih =>
      obtain ⟨after, left⟩ := ih _ (initial.giveBack now)
      exact ⟨after, (initial.keys_giveBack now).trans (left.cons head)⟩
  apply walk inner.done
  obtain ⟨owned, held, share, connIds, ownerIds, ringLimit, connLimit⟩ := books
  refine ⟨?_, held, share, connIds, ownerIds, ringLimit, connLimit⟩
  refine owned.trans ?_
  simp only [heldHeads, append_assoc, append_nil]
  exact perm_append_comm.append_left _

/-- A connection leaves the table and its queued heads are done. -/
theorem remove (present : inner.conns.lookup key = some conn) :
    Accounted ({ inner with conns := inner.conns.erase key }.retire conn) hands where
  owned := by
    have before := Table.gather_of_lookup (fun _ conn => heads conn.outbound) key conn
      inner.conns present
    refine books.owned.trans ?_
    simp only [heldHeads, queuedHeads, Inner.retire, Inner.discard]
    rw [perm_iff_count] at before ⊢
    intro head
    have first := before head
    simp only [count_append] at first ⊢
    omega
  held := books.held
  share := all_erase fun tested found _ => books.share tested found
  connIds := all_erase fun tested found _ => books.connIds tested found
  ownerIds := books.ownerIds
  ringLimit := books.ringLimit
  connLimit := all_erase fun tested found _ => books.connLimit tested found

/-- A new connection holds nothing, and the heads of one it replaces are done.

Proof: its identity is above every identity a holder names. -/
theorem insert (guestPort : UInt32) (state : State)
    (now : Nat) : Accounted (inner.apply (.insert key guestPort state now)) hands := by
  let fresh := Conn.new guestPort state Budget.opened (inner.nextId + 1) now
  let table := inner.conns.insert key fresh
  have unnamed : holdings inner.holders (key, inner.nextId + 1) = 0 := by
    apply Table.sum_eq_zero
    intro head owner lookup
    have older := books.ownerIds head owner lookup
    have apart : owner ≠ (key, inner.nextId + 1) := by
      rintro rfl
      simp at older
    exact if_neg apart
  have share : ∀ tested found, table.lookup tested = some found →
      found.held = holdings inner.holders (tested, found.id) :=
    all_insert (fun tested found _ => books.share tested found) unnamed.symm
  have connIds : ∀ tested found, table.lookup tested = some found →
      found.id ≤ inner.nextId + 1 :=
    all_insert (fun tested found _ lookup => (books.connIds tested found lookup).trans (by omega))
      (Nat.le_refl _)
  have ownerIds (head : UInt16) (owner : ConnKey × Nat)
      (lookup : inner.holders.lookup head = some owner) : owner.2 ≤ inner.nextId + 1 :=
    (books.ownerIds head owner lookup).trans (by omega)
  have connLimit : ∀ tested found, table.lookup tested = some found →
      found.held ≤ inner.txLimits.2 :=
    all_insert (fun tested found _ => books.connLimit tested found) (Nat.zero_le _)
  have queued : queuedHeads table = queuedHeads (inner.conns.erase key) :=
    Table.gather_insert _ _ _ _
  simp only [Inner.apply]
  cases present : inner.conns.lookup key with
  | none =>
    refine ⟨?_, books.held, share, connIds, ownerIds, books.ringLimit, connLimit⟩
    refine books.owned.trans ?_
    change (heldHeads inner hands).Perm (queuedHeads table ++ hands ++ inner.done)
    rw [queued, Table.erase_of_lookup_none key inner.conns present]
    exact List.Perm.refl _
  | some old =>
    refine ⟨?_, books.held, share, connIds, ownerIds, books.ringLimit, connLimit⟩
    refine (books.remove present).owned.trans ?_
    change (queuedHeads (inner.conns.erase key) ++ hands ++ (inner.done ++ heads old.outbound)).Perm
      (queuedHeads table ++ hands ++ (inner.done ++ heads old.outbound))
    rw [queued]

/-- Every sound move whose promises are kept keeps the accounts. -/
theorem apply {move : Move} (sound : Sound inner move) (promised : move.Promised inner hands) :
    Accounted (inner.apply move) (move.hands hands) := by
  cases move with
  | edit key conn =>
    obtain ⟨before, found, kept⟩ := sound
    exact books.same_queue found kept.id kept.held kept.outbound
  | consume key bytes =>
    exact onConn_holds (Accounted · hands) books fun conn found =>
      books.same_queue found rfl rfl rfl
  | send key payload =>
    obtain ⟨conn, found, _⟩ := sound
    simp only [Inner.apply]
    rw [onConn_present found, sendPacket_present found]
    have queued : Accounted (inner.queue
        (Inner.rwPacket key conn.window conn.credit.fwdCnt payload)) hands :=
      books.of_eq rfl rfl rfl rfl rfl rfl
    exact queued.same_queue found rfl rfl rfl
  | arrive key bytes =>
    exact onConn_holds (Accounted · hands) books fun conn found =>
      books.replace found { conn with outbound := conn.outbound ++ [.owned bytes] }
        hands inner.done rfl rfl (by simp [heads, Chunk.heads])
  | hold key head spans =>
    obtain ⟨conn, found, _, share, ring⟩ := sound
    exact books.hold found head spans promised share ring
  | leave key left finished taken =>
    obtain ⟨conn, found, split⟩ := sound
    simp only [Inner.apply]
    rw [onConn_present found]
    have moved : (heads conn.outbound ++ hands ++ inner.done).Perm
        (heads left ++ (hands ++ taken) ++ (inner.done ++ finished)) := by grind
    exact books.replace found { conn with outbound := left } (hands ++ taken)
      (inner.done ++ finished) rfl rfl moved
  | complete completed =>
    obtain ⟨owned, held, share, connIds, ownerIds, ringLimit, connLimit⟩ := books
    refine ⟨?_, held, share, connIds, ownerIds, ringLimit, connLimit⟩
    refine owned.trans ?_
    have inHands : (completed ++ hands.diff completed).Perm hands :=
      subperm_append_diff_self_of_count_le (fun head _ => subperm_iff_count.mp promised head)
    simp only [heldHeads, Inner.apply, Inner.complete, Move.hands]
    rw [perm_iff_count] at inHands ⊢
    intro head
    have first := inHands head
    simp only [count_append] at first ⊢
    omega
  | grow key | shrink key =>
    refine onConn_holds (Accounted · hands) books fun conn found => ?_
    have kept (window : UInt32) : Accounted (inner.set key { conn with window := window }) hands :=
      books.same_queue found rfl rfl rfl
    exact (kept _).of_eq rfl rfl rfl rfl rfl rfl
  | remove key =>
    exact onConn_holds (Accounted · hands) books fun conn found =>
      books.remove found
  | insert key guestPort state now => exact books.insert guestPort state now
  | finish now => exact (books.finishDone now).1
  | deliver room =>
    simp only [Inner.apply, Inner.deliverNext]
    cases inner.outbox.popFront with
    | none => exact books
    | some pair => exact books.of_eq rfl rfl rfl rfl rfl rfl
  | halfClose key =>
    exact onConn_holds (Accounted · hands) books fun conn found =>
      books.of_eq rfl rfl rfl rfl rfl rfl
  | reset => exact promised.elim
  | aside fields | queue packet | dropInput key => exact books.of_eq rfl rfl rfl rfl rfl rfl

end

end Accounted

/-- The device with what it cannot see: the heads in writers' hands, and the
histories of heads it took and of heads it handed back. -/
structure Custody where
  inner : Inner
  hands : List UInt16
  taken : List UInt16
  returned : List UInt16

namespace Custody

/-- A fresh device over a transmit ring of the given size. -/
def start (now ring : Nat) : Custody := ⟨{ Inner.new now with txRing := ring }, [], [], []⟩

/-- The heads of the chunks a take hands out. -/
def handedOut : Outbound → List UInt16
  | .chunks chunks => heads chunks
  | _ => []

def handsAfter (custody : Custody) : Act → List UInt16
  | .take key => custody.hands ++ handedOut (custody.inner.tryTakeOutbound key).2
  | .complete heads => custody.hands.diff heads
  | _ => custody.hands

def takenAfter (settings : Settings) (custody : Custody) : Act → List UInt16
  | .guestRw memory packet head spans now =>
      if (custody.inner.handleGuestRw settings memory packet head spans now).2 then
        custody.taken ++ [head]
      else custody.taken
  | _ => custody.taken

def returnedAfter (custody : Custody) : Act → List UInt16
  | .finishDone now => custody.returned ++ (custody.inner.finishDone now).2
  | _ => custody.returned

def step (settings : Settings) (custody : Custody) (act : Act) : Custody where
  inner := Vsock.step settings custody.inner act
  hands := custody.handsAfter act
  taken := custody.takenAfter settings act
  returned := custody.returnedAfter act

/-- The driver offers a chain it has had back as often as it was taken, and a
writer completes heads it has in hands. There is no reset. -/
def Allowed (custody : Custody) : Act → Prop
  | .guestRw _ _ head _ _ => custody.taken.count head = custody.returned.count head
  | .complete heads => heads.Subperm custody.hands
  | .reset => False
  | _ => True

/-- The accounts hold, and every head taken was handed back or has a holder. -/
structure Balanced (custody : Custody) : Prop where
  keyed : Keyed custody.inner
  accounted : Accounted custody.inner custody.hands
  history : custody.taken.Perm (custody.returned ++ custody.inner.holders.keys)

end Custody

namespace Custody

theorem start_balanced (now ring : Nat) : Balanced (start now ring) where
  keyed := by
    intro key conn found
    simp [start, Inner.new] at found
  accounted := Accounted.start now ring
  history := List.Perm.nil

/-- Whether a section leaves the writers' hands and the holders alone. -/
def Quiet : Act → Prop
  | .guestRw _ _ _ _ _ | .take _ | .complete _ | .finishDone _ | .reset => False
  | _ => True

/-- The moves of a quiet section promise nothing and touch no holder. -/
theorem quiet_moves {act : Act} (quiet : Quiet act) {inner : Inner} {move : Move}
    (legal : Routine inner move ∨ act.extra move) (hands : List UInt16) :
    move.Promised inner hands ∧ move.hands hands = hands ∧ move.changesHolders = false := by
  have routineCase (routine : Routine inner move) :
      move.Promised inner hands ∧ move.hands hands = hands ∧ move.changesHolders = false := by
    cases move with
    | leave key left finished taken =>
      obtain ⟨_, none, _⟩ := routine
      refine ⟨trivial, ?_, rfl⟩
      simp [Move.hands, none]
    | edit | aside | queue | grow | shrink | remove => exact ⟨trivial, rfl, rfl⟩
    | consume | send | halfClose | dropInput | arrive | hold | complete | insert | finish
    | deliver | reset => exact routine.elim
  rcases legal with routine | named
  · exact routineCase routine
  cases move with
  | hold key head spans =>
    cases act with
    | guestRw => exact quiet.elim
    | _ => exact named.elim
  | complete heads =>
    cases act with
    | complete => exact quiet.elim
    | _ => exact named.elim
  | finish now =>
    cases act with
    | finishDone => exact quiet.elim
    | _ => exact named.elim
  | reset =>
    cases act with
    | reset => exact quiet.elim
    | _ => exact named.elim
  | leave key left finished taken =>
    refine ⟨trivial, ?_, rfl⟩
    cases act with
    | take => exact quiet.elim
    | read | readExact => simp [Move.hands, named.2]
    | _ => exact named.elim
  | edit | aside | queue | grow | shrink | remove | insert | consume | send | halfClose
  | dropInput | arrive | deliver =>
    exact ⟨trivial, rfl, rfl⟩

/-- A quiet section keeps the accounts with the same hands and holders. -/
theorem quiet_accounted (settings : Settings) {inner : Inner} {hands : List UInt16} {act : Act}
    (quiet : Quiet act) (keyed : Keyed inner) (books : Accounted inner hands) :
    Accounted (Vsock.step settings inner act) hands ∧
      (Vsock.step settings inner act).holders = inner.holders := by
  refine (step_does settings inner keyed act).invariant
    (fun state => Accounted state hands ∧ state.holders = inner.holders) ?_ ⟨books, rfl⟩
  intro state move ⟨kept, same⟩ ⟨sound, legal⟩
  obtain ⟨promised, still, holders⟩ := quiet_moves quiet legal hands
  have after := kept.apply sound promised
  rw [still] at after
  exact ⟨after, ((apply_frame sound).holders holders).trans same⟩

variable {custody : Custody}

/-- A chain from the driver is free when the driver has had it back as often as it
was taken. -/
theorem free_of_allowed (balanced : Balanced custody) {head : UInt16}
    (offered : custody.taken.count head = custody.returned.count head) :
    head ∉ custody.inner.holders.keys := by
  have total := balanced.history.count_eq head
  rw [count_append] at total
  apply count_eq_zero.mp
  omega

variable (settings : Settings)

/-- A payload held in place is the only way a head is taken. -/
theorem guestRw_balanced (balanced : Balanced custody)
    (memory : GuestMemory) (packet : Packet) (head : UInt16) (spans : List (Nat × Nat))
    (now : Nat) (offered : custody.taken.count head = custody.returned.count head) :
    Balanced (step settings custody (.guestRw memory packet head spans now)) := by
  obtain ⟨inner, hands, taken, returned⟩ := custody
  have free := free_of_allowed balanced offered
  have keyed := step_keyed settings inner balanced.keyed (.guestRw memory packet head spans now)
  obtain ⟨filed, books, history⟩ := balanced
  simp only at filed books history free
  have settle {after : Inner} {took : Bool}
      (outcome : inner.handleGuestRw settings memory packet head spans now = (after, took))
      (accounted : Accounted after hands)
      (kept : (if took then taken ++ [head] else taken).Perm (returned ++ after.holders.keys)) :
      Balanced (step settings ⟨inner, hands, taken, returned⟩
        (.guestRw memory packet head spans now)) := by
    refine ⟨keyed, ?_, ?_⟩
    · simp only [step, Vsock.step, handsAfter, outcome]
      exact accounted
    · simp only [step, Vsock.step, takenAfter, returnedAfter, outcome]
      exact kept
  rcases handleGuestRw_cases settings memory inner packet head spans now with
    ⟨_, outcome⟩ | ⟨conn, found, outcome⟩
  · exact settle outcome (books.of_eq rfl rfl rfl rfl rfl rfl) history
  have kept := counted_kept conn packet spans now
  have counting : Accounted (inner.set (guestKey packet) (counted conn packet spans now)) hands :=
    books.same_queue found kept.id kept.held kept.outbound
  have stands := lookup_set_self inner (guestKey packet) (counted conn packet spans now)
  rcases outcome with ⟨_, outcome⟩ | ⟨living, share, ring, outcome⟩ | ⟨living, outcome⟩
  · have hearing := heard_kept conn packet
    have heard := books.same_queue found hearing.id hearing.held hearing.outbound
    rw [touch_eq] at outcome
    exact settle outcome (heard.of_eq rfl rfl rfl rfl rfl rfl) history
  · have unheld : head ∉ heldHeads (inner.set (guestKey packet)
        (counted conn packet spans now)) hands := fun member =>
      free (counting.owned.mem_iff.mpr member)
    have held := counting.hold stands head spans unheld (kept.held ▸ share) ring
    rw [touch_eq] at outcome
    refine settle outcome (held.of_eq rfl rfl rfl rfl rfl rfl) ?_
    change (taken ++ [head]).Perm (returned ++ (Inner.apply _ _).holders.keys)
    rw [apply, onConn_present stands]
    simp only [AList.keys_insert]
    change (taken ++ [head]).Perm (returned ++ head :: inner.holders.keys.erase head)
    rw [erase_of_not_mem free]
    exact (perm_append_singleton head taken).trans ((history.cons head).trans perm_middle.symm)
  · have alive : (counted conn packet spans now).state ≠ .closed := by
      rw [counted, countIn_state]
      exact living
    have sound : Vsock.Sound (inner.set (guestKey packet) (counted conn packet spans now))
        (.arrive (guestKey packet) (copyOut memory spans)) := ⟨_, stands, alive⟩
    have arrived := counting.apply sound trivial
    rw [touch_eq] at outcome
    refine settle outcome (arrived.of_eq rfl rfl rfl rfl rfl rfl) ?_
    change taken.Perm (returned ++ (Inner.apply _ _).holders.keys)
    rw [apply, onConn_present stands]
    exact history

/-- A take moves a queue's heads into the writer's hands. -/
theorem take_balanced (balanced : Balanced custody)
    (key : ConnKey) : Balanced (step settings custody (.take key)) := by
  have keyed := step_keyed settings custody.inner balanced.keyed (.take key)
  rcases custody.inner.tryTakeOutbound_cases key with ⟨conn, present, outcome⟩ | ⟨same, none⟩
  · have sound : Vsock.Sound custody.inner (.leave key [] [] (heads conn.outbound)) :=
      ⟨conn, present, by simp [heads]⟩
    have books := balanced.accounted.apply sound trivial
    have holders := (apply_frame sound).holders rfl
    refine ⟨keyed, ?_, ?_⟩
    · simp only [step, Vsock.step, handsAfter, outcome, handedOut]
      exact books
    · simp only [step, Vsock.step, takenAfter, returnedAfter, outcome, holders]
      exact balanced.history
  · have nothing : handedOut (custody.inner.tryTakeOutbound key).2 = [] := by
      cases found : (custody.inner.tryTakeOutbound key).2 with
      | chunks chunks => exact absurd found (none chunks)
      | empty => rfl
      | finished => rfl
      | gone => rfl
    refine ⟨keyed, ?_, ?_⟩
    · simp only [step, Vsock.step, handsAfter, same, nothing, append_nil]
      exact balanced.accounted
    · simp only [step, Vsock.step, takenAfter, returnedAfter, same]
      exact balanced.history

/-- Every allowed section keeps the books balanced. -/
theorem step_balanced (custody : Custody) (act : Act)
    (balanced : Balanced custody) (allowed : Allowed custody act) :
    Balanced (step settings custody act) := by
  have keyed := step_keyed settings custody.inner balanced.keyed act
  have quietly (quiet : Quiet act) (hands : custody.handsAfter act = custody.hands)
      (taken : custody.takenAfter settings act = custody.taken)
      (returned : custody.returnedAfter act = custody.returned) :
      Balanced (step settings custody act) := by
    obtain ⟨books, holders⟩ := quiet_accounted settings quiet balanced.keyed balanced.accounted
    refine ⟨keyed, ?_, ?_⟩
    · simp only [step, hands]
      exact books
    · simp only [step, taken, returned, holders]
      exact balanced.history
  cases act with
  | guestRw memory packet head spans now =>
    exact guestRw_balanced settings balanced memory packet head spans now allowed
  | take key => exact take_balanced settings balanced key
  | complete heads =>
    have books := balanced.accounted.apply
      (show Vsock.Sound custody.inner (.complete heads) from trivial) allowed
    exact ⟨keyed, books, balanced.history⟩
  | finishDone now =>
    obtain ⟨books, left⟩ := balanced.accounted.finishDone now
    refine ⟨keyed, books, ?_⟩
    refine balanced.history.trans ?_
    simp only [step, Vsock.step, returnedAfter, append_assoc]
    exact left.append_left custody.returned
  | reset => exact allowed.elim
  | openConn | listen | hangUp | handle | trySend | trySendOwned | sendPass | read
  | readExact | acknowledge | shutdownWrite | shutdown | abandon | label | sweep
  | takeTouched | rx => exact quietly trivial rfl rfl rfl

/-- Every allowed run keeps the books balanced. -/
theorem run_balanced (now ring : Nat) (acts : List Act)
    (legal : Legal Allowed (step settings) (start now ring) acts) :
    Balanced (run (step settings) (start now ring) acts) :=
  run_invariant Allowed (step settings) Balanced (step_balanced settings) (start now ring) acts
    (start_balanced now ring) legal

end Custody

/-- No run changes the size of the ring. -/
theorem Custody.run_ring (settings : Settings) (now ring : Nat) (acts : List Act)
    (legal : Legal Allowed (step settings) (start now ring) acts) :
    (run (step settings) (start now ring) acts).inner.txRing = ring := by
  refine (run_invariant Allowed (step settings)
    (fun custody => Keyed custody.inner ∧ custody.inner.txRing = ring) ?_ (start now ring) acts
    ⟨(start_balanced now ring).keyed, rfl⟩ legal).2
  intro custody act ⟨keyed, same⟩ _
  refine ⟨step_keyed settings custody.inner keyed act, ?_⟩
  exact (step_does settings custody.inner keyed act).invariant (fun state => state.txRing = ring)
    (fun _ _ before permitted => (apply_frame permitted.1).txRing.trans before) same

/-- In every run over a transmit ring of at least four entries, of any length and in
any order, without a reset: the device's count of held chains is the number of
heads queued, in writers' hands and done, and the number of holders; every
connection's count is the number of holders that name it; the ring's reserve is
never held and no connection passes its share; no head is held twice, and the
heads ever taken are those handed back and those still held, each as often. A
head that is done goes back when next the done ones are finished.

Proof: the accounts hold of the fresh device and every section keeps them, by the
moves it is made of. -/
theorem chains_accounted (settings : Settings) (now ring : Nat) (large : 4 ≤ ring)
    (acts : List Act)
    (legal : Legal Custody.Allowed (Custody.step settings) (Custody.start now ring) acts) :
    let custody := run (Custody.step settings) (Custody.start now ring) acts
    let inner := custody.inner
    inner.held = (queuedHeads inner.conns).length + custody.hands.length + inner.done.length ∧
      inner.held = inner.holders.entries.length ∧
      (∀ key conn, inner.conns.lookup key = some conn →
        conn.held = holdings inner.holders (key, conn.id)) ∧
      inner.held ≤ ring - ring / 4 ∧
      (∀ key conn, inner.conns.lookup key = some conn → conn.held ≤ ring / 4) ∧
      (heldHeads inner custody.hands).Nodup ∧
      custody.taken.Perm (custody.returned ++ heldHeads inner custody.hands) ∧
      (∀ time, let next := Custody.step settings custody (.finishDone time)
        next.returned = custody.returned ++ inner.done ∧ next.inner.done = []) := by
  intro custody inner
  have balanced : custody.Balanced := Custody.run_balanced settings now ring acts legal
  have size : inner.txRing = ring := Custody.run_ring settings now ring acts legal
  have limits : inner.txLimits = (ring - ring / 4, ring / 4) := by
    have most : max ring 4 = ring := Nat.max_eq_left large
    simp [txLimits, size, txShareDivisor, txReserveDivisor, most]
  obtain ⟨_, accounted, history⟩ := balanced
  have entries : inner.held = inner.holders.entries.length := by
    rw [accounted.held]
    exact length_map _
  refine ⟨?_, entries, accounted.share, ?_, ?_, accounted.nodup, ?_, ?_⟩
  · have count := accounted.owned.length_eq
    rw [← accounted.held] at count
    simpa only [heldHeads, length_append] using count
  · have ringLimit := accounted.ringLimit
    rwa [limits] at ringLimit
  · have connLimit := accounted.connLimit
    grind
  · exact history.trans (accounted.owned.append_left custody.returned)
  · intro time
    exact ⟨rfl, (giveBack_rest time inner.done { inner with done := [] }).2.1⟩

/-- A guest connects and two payloads are held in place, which a writer takes. It completes the
first, whose chain goes back and is offered again. -/
def payloadsTaken : List Act :=
  let payload (head : UInt16) : Act :=
    .guestRw ⟨[], fun _ => 0⟩ (Packet.control .rw 7 5000) head [(4096, 10)] 0
  [.listen 5000, .handle (Packet.control .request 7 5000) 0, payload 3, payload 5,
    .take (5000, 7), .complete [3], .finishDone 0, payload 3]

/-- One chain went back, the writer holds the other, and the first is queued again. -/
theorem chains_accounted_taken :
    Legal Custody.Allowed (Custody.step ⟨false, false⟩) (Custody.start 0 8) payloadsTaken ∧
      let custody := run (Custody.step ⟨false, false⟩) (Custody.start 0 8) payloadsTaken
      custody.hands = [5] ∧ custody.inner.held = 2 ∧
        [3, 5, 3].Perm ([3] ++ heldHeads custody.inner custody.hands) := by
  have legal : Legal Custody.Allowed (Custody.step ⟨false, false⟩) (Custody.start 0 8)
      payloadsTaken := by
    refine ⟨trivial, trivial, ?_, ?_, trivial, ?_, trivial, ?_, trivial⟩
    · change count _ _ = count _ _
      decide
    · change count _ _ = count _ _
      decide
    · exact subperm_of_subset (by decide) (by decide)
    · change count _ _ = count _ _
      decide
  obtain ⟨held, _, _, _, _, _, history, _⟩ :=
    chains_accounted ⟨false, false⟩ 0 8 (by decide) payloadsTaken legal
  refine ⟨legal, by decide, held.trans (by decide), ?_⟩
  have taken : (run (Custody.step ⟨false, false⟩) (Custody.start 0 8) payloadsTaken).taken =
      [3, 5, 3] := by decide
  have returned : (run (Custody.step ⟨false, false⟩) (Custody.start 0 8)
      payloadsTaken).returned = [3] := by decide
  rw [taken, returned] at history
  exact history

end Lighter.Vsock
