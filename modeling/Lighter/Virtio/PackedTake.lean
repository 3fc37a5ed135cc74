import Lighter.Virtio.PackedCells

/-!
# Taking a chain from a packed ring

What the device reads of a chain whose entries stand in the slots from its cursor on:
its length and id when it is taken, and its buffers, one for each call, when it is
walked.
-/

namespace Lighter.Virtio.Packed

open Lap DescriptorChain Virtqueue
open UInt16 (le_iff_toNat_le ofNat)

/-- The slots from a place on hold the chain's entries. -/
def Stands (memory : GuestMemory) (base size place : Nat) (offer : Offer) : Prop :=
  ∀ index desc, offer.entries[index]? = some desc →
    cell memory base size (place + index) = desc

variable {memory : GuestMemory} {base size place : Nat} {queue : Virtqueue} {offer : Offer}

/-- A position some slots on, computed in sixteen bits. -/
theorem toNat_position {start length : UInt16} (small : size ≤ 256)
    (cursor : start.toNat = place % size) (sized : length.toNat = size) {step : Nat}
    (short : step ≤ size) : ((start + ofNat step) % length).toNat = (place + step) % size := by
  rcases Nat.eq_zero_or_pos size with none | positive
  · subst none
    have still : step = 0 := Nat.le_zero.mp short
    have blank : length = 0 := UInt16.toNat_inj.mp sized
    subst still blank
    simpa using cursor
  · have inside : place % size < size := Nat.mod_lt place positive
    have narrow : step % 65536 = step := Nat.mod_eq_of_lt (by omega)
    have sum : (place % size + step) % 65536 = place % size + step := Nat.mod_eq_of_lt (by omega)
    simp [cursor, sized, narrow, sum]

/-- What is read at a position is what its slot holds. -/
theorem reads_cell (located : queue.descAddr = base) (backs : Backs memory base size)
    (positive : 0 < size) {index : UInt16} (named : index.toNat = place % size) :
    Reads memory (queue.descAt index) (cell memory base size place) := by
  have inside := Nat.mod_lt place positive
  rw [descAt, located, named, backs.address_entry inside]
  exact backs.reads inside

/-- An entry is available when its first bit is the device's lap and its second is
not. -/
theorem isAvailable_iff (queue : Virtqueue) (flags : UInt16) :
    queue.isAvailable flags = true ↔
      availBit flags = queue.availWrap ∧ usedBit flags ≠ availBit flags := by
  simp [isAvailable, availBit, usedBit]

/-- The queue after a chain of so many slots has been taken under an id. -/
def taken (queue : Virtqueue) (slots id : UInt16) : Virtqueue :=
  let queue := (queue.advanceAvail slots).markTaken id
  { queue with
    chainLen :=
      (if queue.chainLen.length ≠ queue.size.toNat then List.replicate queue.size.toNat 1
        else queue.chainLen).set id.toNat slots }

section Takes

variable (located : queue.descAddr = base) (sized : queue.size.toNat = size)
  (backs : Backs memory base size) (positive : 0 < size) (small : size ≤ 256)

include located sized backs positive small

/-- A chain of consecutive entries is measured to its end.

Proof: by induction on the entries that may still be read. Having read some, the one
read last continues exactly when another follows, and the next slot holds that one. -/
theorem measure_direct {start : UInt16} (cursor : start.toNat = place % size)
    (stands : Stands memory base size place offer) (direct : offer.Direct)
    (short : offer.slots ≤ size) (left read : Nat) (enough : offer.slots ≤ read + left)
    {desc : PackedDesc} (last : offer.entries[read - 1]? = some desc) (begun : 0 < read) :
    queue.measure memory start left (ofNat read) desc.flags desc.id =
      (ofNat offer.slots, offer.id) := by
  have ended : ∀ read desc, 0 < read → offer.entries[read - 1]? = some desc →
      offer.slots ≤ read →
      (ofNat read, desc.id) = (ofNat offer.slots, offer.id) := by
    intro read desc begun last whole
    have inside : read - 1 < offer.slots := (List.getElem?_eq_some_iff.mp last).1
    have same : read = offer.slots := by omega
    have final : offer.entries.getLast? = some desc := by
      rw [List.getLast?_eq_getElem?, ← last, same]
      rfl
    rw [same, direct.id desc final]
  induction left generalizing read desc with
  | zero => exact ended read desc begun last enough
  | succ left ih =>
    have continues := direct.next (read - 1) desc last
    rw [Nat.sub_add_cancel begun] at continues
    rw [Virtqueue.measure]
    by_cases more : read < offer.slots
    · obtain ⟨next, found⟩ : ∃ next, offer.entries[read]? = some next :=
        ⟨offer.entries[read], List.getElem?_eq_getElem more⟩
      have narrow : (ofNat read).toNat = read :=
        UInt16.toNat_ofNat_of_lt' (by simp only [UInt16.size]; omega)
      have below : ¬ ofNat read ≥ queue.size := by
        rw [ge_iff_le, le_iff_toNat_le, narrow, sized]
        omega
      have position : ((start + ofNat read) % queue.size).toNat = (place + read) % size :=
        toNat_position small cursor sized (by omega)
      have step : ofNat read + 1 = ofNat (read + 1) := by
        rw [UInt16.ofNat_add]
        rfl
      rw [if_neg (continues.mpr more), if_neg below]
      have slot := reads_cell located backs positive position
      simp only [slot.id, slot.flags, stands read next found, step]
      exact ih (read + 1) (by omega) found (Nat.succ_pos read)
    · grind

variable (ready : queue.ready = true) (packed : queue.packed = true)
  (cursor : queue.nextAvail.toNat = place % size)

include ready packed cursor

omit sized small in
/-- Nothing is taken while the entry at the cursor is not available. -/
theorem pop_none (stale : ¬ (availBit (cell memory base size place).flags = queue.availWrap ∧
      usedBit (cell memory base size place).flags ≠
        availBit (cell memory base size place).flags)) : queue.pop memory = (queue, none) := by
  have refused : queue.isAvailable (cell memory base size place).flags = false := by
    rw [← Bool.not_eq_true, isAvailable_iff]
    exact stale
  unfold pop popPacked
  simp [ready, packed, (reads_cell located backs positive cursor).flags, refused]

/-- The chain that stands at the cursor is taken whole, with its id. -/
theorem pop_offer (proper : offer.Proper size) (lapped : offer.Lapped size place)
    (stands : Stands memory base size place offer) (wrap : queue.availWrap = lap size place) :
    queue.pop memory = (taken queue (ofNat offer.slots) offer.id,
      some (DescriptorChain.packed base queue.size queue.nextAvail (ofNat offer.slots)
        offer.id)) := by
  obtain ⟨first, found⟩ : ∃ first, offer.entries[0]? = some first :=
    ⟨_, List.getElem?_eq_getElem proper.filled⟩
  have held : cell memory base size place = first := stands 0 first found
  have offered : queue.isAvailable first.flags = true := by
    obtain ⟨avail, used⟩ := lapped 0 first found
    rw [isAvailable_iff, avail, used, wrap]
    simp
  have measured : (if first.flags &&& descIndirect != 0 then (1, first.id)
      else queue.measure memory queue.nextAvail queue.size.toNat 1 first.flags first.id) =
      (ofNat offer.slots, offer.id) := by
    rcases proper.shape with direct | ⟨desc, inner, indirect⟩
    · have plain : first.flags &&& descIndirect = 0 :=
        direct.plain first (List.mem_of_getElem? found)
      rw [plain, sized]
      exact measure_direct located sized backs positive small cursor stands direct proper.short
        size 1 (by have := proper.short; omega) found Nat.one_pos
    · have only : desc = first := by
        rw [indirect.entries] at found
        exact Option.some.inj found
      subst only
      have one : offer.slots = 1 := by rw [Offer.slots, indirect.entries]; rfl
      simp [indirect.named, indirect.id, one]
  have known : ¬ offer.id ≥ queue.size := by
    rw [ge_iff_le, le_iff_toNat_le, sized]
    exact Nat.not_le.mpr proper.id
  have slot := reads_cell located backs positive cursor
  unfold pop popPacked
  simp only [ready, packed, slot.flags, held, offered, slot.addr, slot.len, slot.id, measured,
    known, Bool.not_true, Bool.false_eq_true, if_false, if_true]
  rw [← located]
  rfl

end Takes

/-- The walk over a chain after so many of its buffers. -/
def chainAt (base size place : Nat) (offer : Offer) (done : Nat) : DescriptorChain :=
  let ring : DescriptorChain :=
    ⟨base, UInt16.ofNat size, offer.id, done, .packed (UInt16.ofNat (place % size))
      (UInt16.ofNat offer.slots) (UInt16.ofNat done)⟩
  match offer.table, offer.entries, done with
  | some inner, desc :: _, done + 1 =>
      ⟨desc.addr, UInt16.ofNat inner.length, offer.id, done + 2,
        .packedIndirect (UInt16.ofNat (done + 1))⟩
  | _, _, _ => ring

/-- Before its first buffer a walk is at the start of the chain, in the ring. -/
theorem chainAt_zero (base size place : Nat) (offer : Offer) :
    chainAt base size place offer 0 =
      DescriptorChain.packed base (ofNat size) (ofNat (place % size))
        (ofNat offer.slots) offer.id := by
  unfold chainAt
  split
  · next never => cases never
  · rfl

section Walks

variable (backs : Backs memory base size) (positive : 0 < size) (small : size ≤ 256)

include small

/-- A walk that has yielded every buffer yields no more. -/
theorem next_ended (proper : offer.Proper size) (memory : GuestMemory) :
    (chainAt base size place offer offer.descs.length).next memory =
      (chainAt base size place offer offer.descs.length, none) := by
  rcases proper.shape with direct | ⟨desc, inner, indirect⟩
  · have all : offer.descs.length = offer.slots := by
      simp [Offer.descs, direct.table, Offer.slots]
    have short := proper.short
    have within : ¬ offer.slots > bound := by
      simp only [bound, maxQueueSize]
      exact Nat.not_lt.mpr (le_trans short (le_trans small (by decide)))
    simp [chainAt, direct.table, all, next, nextPacked, within]
  · obtain ⟨count, shape⟩ : ∃ count, inner.length = count + 1 :=
      Nat.exists_eq_succ_of_ne_zero (Nat.pos_iff_ne_zero.mp indirect.filled)
    have all : offer.descs.length = count + 1 := by
      simp [Offer.descs, indirect.table, shape]
    have short := indirect.short
    have within : ¬ count + 2 > bound := by
      simp only [bound, maxQueueSize]
      exact Nat.not_lt.mpr (show count + 2 ≤ 512 by omega)
    simp [chainAt, indirect.table, indirect.entries, all, next, nextPacked, nextIndirect, within,
      shape]

include backs positive

/-- Each call yields the next buffer of a chain that still stands. -/
theorem next_offer (proper : offer.Proper size) (stands : Stands memory base size place offer)
    (tabled : offer.Tabled memory base size) {done : Nat} {desc : Descriptor}
    (remaining : offer.descs[done]? = some desc) :
    (chainAt base size place offer done).next memory =
      (chainAt base size place offer (done + 1), some desc) := by
  have short := proper.short
  have narrow : ∀ number, number ≤ size → (ofNat number).toNat = number := by
    intro number fits
    exact UInt16.toNat_ofNat_of_lt' (by simp only [UInt16.size]; omega)
  have within : ∀ number, number ≤ size + 1 → ¬ number > bound := by
    intro number fits
    simp only [bound, maxQueueSize]
    exact Nat.not_lt.mpr (show number ≤ 512 by omega)
  have start : (ofNat (place % size)).toNat = place % size :=
    narrow _ (Nat.mod_lt place positive).le
  have whole : max (ofNat size) 1 = ofNat size := by
    change (if ofNat size ≤ 1 then 1 else ofNat size) = ofNat size
    split
    · next single =>
      rw [le_iff_toNat_le, narrow size (Nat.le_refl size)] at single
      rw [show size = 1 from Nat.le_antisymm single positive]
      rfl
    · rfl
  have later : ∀ number, ofNat number + 1 = ofNat (number + 1) := by
    intro number
    rw [UInt16.ofNat_add]
    rfl
  have entered : ∀ index : Nat, index ≤ size → readPacked memory base
      ((ofNat (place % size) + ofNat index) % ofNat size) =
        some (cell memory base size (place + index)) := by
    intro index fits
    have position := toNat_position small start (narrow size (Nat.le_refl size)) fits
    rw [backs.readPacked (by rw [position]; exact Nat.mod_lt _ positive), position]
    rfl
  rcases proper.shape with direct | ⟨named, inner, indirect⟩
  · obtain ⟨raw, found, rfl⟩ : ∃ raw, offer.entries[done]? = some raw ∧ plain raw = desc := by
      simpa [Offer.descs, direct.table] using remaining
    have inside : done < offer.slots := (List.getElem?_eq_some_iff.mp found).1
    have going : ¬ ofNat done ≥ ofNat offer.slots := by
      rw [ge_iff_le, le_iff_toNat_le, narrow _ short, narrow done (by omega)]
      omega
    have flat : raw.flags &&& descIndirect = 0 := direct.plain raw (List.mem_of_getElem? found)
    have held := stands done raw found
    simp only [chainAt, direct.table, next, nextPacked, within done (by omega), going, if_false,
      whole, entered done (by omega), held, flat, later]
    simp
  · have listed : inner.map plain = offer.descs := by simp [Offer.descs, indirect.table]
    obtain ⟨raw, found, rfl⟩ : ∃ raw, inner[done]? = some raw ∧ plain raw = desc := by
      simpa [← listed] using remaining
    have inside : done < inner.length := (List.getElem?_eq_some_iff.mp found).1
    have fits := indirect.short
    obtain ⟨mapped, _, holds⟩ := tabled named inner indirect
    have inTable : readPacked memory named.addr (ofNat done) = some raw := by
      have position := narrow done (by omega)
      rw [mapped.readPacked (by rw [position]; exact inside), position, holds done raw found]
    have going : ¬ ofNat done ≥ ofNat inner.length := by
      rw [ge_iff_le, le_iff_toNat_le, narrow _ fits, narrow done (by omega)]
      omega
    cases done with
    | zero =>
      have one : offer.slots = 1 := by rw [Offer.slots, indirect.entries]; rfl
      have held : cell memory base size (place + 0) = named :=
        stands 0 named (by rw [indirect.entries]; rfl)
      have counted : indirectLen named.len = ofNat inner.length := by
        rw [indirectLen, indirect.len, Nat.min_eq_left (Nat.not_lt.mp (within _ (by omega)))]
      have begins : ¬ ofNat 0 ≥ ofNat 1 := by decide
      simp only [chainAt, indirect.table, indirect.entries, next, nextPacked, nextIndirect,
        within 0 (by omega), one, begins, if_false, whole, entered 0 (by omega), held, counted]
      have zero : (0 : UInt16) = ofNat 0 := rfl
      rw [zero, if_neg going, inTable]
      simp [indirect.named]
    | succ done =>
      simp only [chainAt, indirect.table, indirect.entries, next, nextPacked, nextIndirect,
        within (done + 2) (by omega), going, if_false, inTable, later]

end Walks

end Lighter.Virtio.Packed
