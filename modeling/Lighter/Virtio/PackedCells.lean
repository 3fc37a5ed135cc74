import Lighter.Virtio.PackedRing

/-!
# The slots of a packed ring

A slot is named by a place: the count of slots passed since the beginning, of which
its position is the remainder by the size of the ring. Each write by the driver or
the device is described by what it leaves at every place of the one ring that
starts where it wrote.
-/

namespace Lighter.Virtio.Packed

open Lap
open Driver (putBody putEntries putEntry)

/-- What the slot of a place holds. -/
def cell (memory : GuestMemory) (base size place : Nat) : PackedDesc :=
  entry memory base (place % size)

variable {memory : GuestMemory} {base size place : Nat}

/-- One ring further is the same slot. -/
theorem cell_add_size (memory : GuestMemory) (base size place : Nat) :
    cell memory base size (place + size) = cell memory base size place := by
  rw [cell, Nat.add_mod_right, cell]

/-- Several fields of an entry written one after the other. -/
def putParts (memory : GuestMemory) (base index : Nat) (parts : List (Part × Nat)) :
    GuestMemory :=
  parts.foldl (fun memory written => putPart memory base index written.1 written.2) memory

theorem SameOutside.putParts {index : Nat} (inside : index < size) (parts : List (Part × Nat)) :
    SameOutside base (size * descSize) memory (putParts memory base index parts) := by
  induction parts generalizing memory with
  | nil => exact SameOutside.refl _ _ memory
  | cons written rest ih => exact (SameOutside.putPart memory inside _ _).trans ih

section

variable (backs : Backs memory base size) (positive : 0 < size) {other : Nat}
  (after : place ≤ other) (before : other < place + size)
include backs positive after before

theorem cell_putPart (part : Part) (value : Nat) :
    cell (putPart memory base (place % size) part value) base size other =
      if other = place then part.set (cell memory base size place) value
      else cell memory base size other := by
  have written := entry_putPart backs (Nat.mod_lt place positive) part value (other % size)
  by_cases same : other = place
  · subst same
    rw [if_pos rfl] at written ⊢
    exact written
  have apart : other % size ≠ place % size := by
    intro equal
    exact same (position_injective after before equal.symm).symm
  rw [if_neg apart] at written
  rw [if_neg same]
  exact written

theorem cell_putParts (parts : List (Part × Nat)) :
    cell (putParts memory base (place % size) parts) base size other =
      if other = place then
        parts.foldl (fun desc written => written.1.set desc written.2) (cell memory base size place)
      else cell memory base size other := by
  induction parts generalizing memory with
  | nil =>
    split
    · next same => rw [same]; rfl
    · rfl
  | cons written rest ih =>
    have next : Backs (putPart memory base (place % size) written.1 written.2) base size :=
      backs.congr (regions_putPart _ _ _ _ _)
    have here : place < place + size := Nat.lt_add_of_pos_right positive
    refine (ih next).trans ?_
    rw [cell_putPart backs positive after before,
      cell_putPart backs positive (Nat.le_refl place) here, if_pos rfl]
    by_cases same : other = place
    · simp [same]
    · simp [same]

variable {desc : PackedDesc} (narrow : desc.addr < 2 ^ 64)
include narrow

/-- The fields before the flags are the descriptor's, the flags as they were. -/
theorem cell_putBody :
    cell (putBody memory base (place % size) desc) base size other =
      if other = place then { desc with flags := (cell memory base size place).flags }
      else cell memory base size other := by
  have kept : desc.addr % 18446744073709551616 = desc.addr := Nat.mod_eq_of_lt narrow
  exact (cell_putParts backs positive after before [(.addr, desc.addr), (.len, desc.len.toNat),
    (.id, desc.id.toNat)]).trans (by simp [Part.set, kept])

theorem cell_putEntry :
    cell (putEntry memory base (place % size) desc) base size other =
      if other = place then desc else cell memory base size other := by
  have kept : desc.addr % 18446744073709551616 = desc.addr := Nat.mod_eq_of_lt narrow
  exact (cell_putParts backs positive after before [(.addr, desc.addr), (.len, desc.len.toNat),
    (.id, desc.id.toNat), (.flags, desc.flags.toNat)]).trans (by simp [Part.set, kept])

end

theorem regions_putBody (memory : GuestMemory) (base index : Nat) (desc : PackedDesc) :
    (putBody memory base index desc).regions = memory.regions := by
  simp [putBody]

theorem regions_putEntry (memory : GuestMemory) (base index : Nat) (desc : PackedDesc) :
    (putEntry memory base index desc).regions = memory.regions := by
  simp [putEntry, regions_putBody]

/-- Consecutive slots hold the entries, the rest of the ring what it held.

Proof: by induction on the entries. The slot of the first one is the last of the ring
that starts one place later, which the shorter list does not reach. -/
theorem cell_putEntries (backs : Backs memory base size) (positive : 0 < size) (place : Nat)
    {entries : List PackedDesc} (narrow : ∀ desc ∈ entries, desc.addr < 2 ^ 64)
    (short : entries.length ≤ size) {other : Nat} (after : place ≤ other)
    (before : other < place + size) :
    cell (putEntries base size place entries memory) base size other =
      (entries[other - place]?).getD (cell memory base size other) := by
  induction entries generalizing place memory other with
  | nil => rfl
  | cons desc rest ih =>
    have fits : rest.length < size := short
    have written : Backs (putEntry memory base (place % size) desc) base size :=
      backs.congr (regions_putEntry _ _ _ _)
    have mine := narrow desc (List.mem_cons_self ..)
    have others : ∀ desc ∈ rest, desc.addr < 2 ^ 64 :=
      fun desc mem => narrow desc (List.mem_cons_of_mem _ mem)
    rw [putEntries]
    by_cases same : other = place
    · subst same
      rw [← cell_add_size, ih written (other + 1) others (by omega) (by omega) (by omega),
        List.getElem?_eq_none (by omega), Nat.sub_self, Option.getD_none, cell_add_size,
        cell_putEntry backs positive after before mine, if_pos rfl]
      rfl
    · have later : other - place = (other - (place + 1)) + 1 := by omega
      rw [ih written (place + 1) others (by omega) (by omega) (by omega),
        cell_putEntry backs positive after before mine, if_neg same, later,
        List.getElem?_cons_succ]

/-- After a chain is written its slots hold its entries, the first one with the flags
it had. -/
theorem cell_prepare (backs : Backs memory base size) (positive : 0 < size) (driver : Driver)
    {offer : Offer} (proper : offer.Proper size) {other : Nat}
    (after : driver.published ≤ other) (before : other < driver.published + size) :
    cell (driver.prepare memory base size offer).2 base size other =
      match offer.entries[other - driver.published]? with
      | none => cell memory base size other
      | some desc =>
          if other = driver.published then
            { desc with flags := (cell memory base size driver.published).flags }
          else desc := by
  obtain ⟨first, rest, shape⟩ : ∃ first rest, offer.entries = first :: rest :=
    List.exists_cons_of_length_pos proper.filled
  have narrow := proper.addr
  have short : offer.entries.length ≤ size := proper.short
  rw [shape] at narrow short
  have mine := narrow first (List.mem_cons_self ..)
  have others : ∀ desc ∈ rest, desc.addr < 2 ^ 64 :=
    fun desc mem => narrow desc (List.mem_cons_of_mem _ mem)
  have fits : rest.length < size := short
  let body := putBody memory base (driver.published % size) first
  have written : Backs body base size := backs.congr (regions_putBody _ _ _ _)
  unfold Driver.prepare
  simp only [shape]
  by_cases same : other = driver.published
  · -- The first slot again is the last one of the ring that the rest is written into.
    have untouched : cell (putEntries base size (driver.published + 1) rest body) base size
        other = cell body base size other := by
      rw [← cell_add_size, cell_putEntries written positive _ others (by omega) (by omega)
        (by omega), List.getElem?_eq_none (by omega), Option.getD_none, cell_add_size]
    rw [untouched, cell_putBody backs positive after before mine, if_pos same]
    simp [same]
  · grind [cell_putEntries, cell_putBody]

/-- A chain is written inside the ring. -/
theorem prepare_inside (positive : 0 < size) (driver : Driver) (memory : GuestMemory)
    (offer : Offer) :
    SameOutside base (size * descSize) memory (driver.prepare memory base size offer).2 := by
  have inside : ∀ place, place % size < size := fun place => Nat.mod_lt place positive
  have body : ∀ memory place desc, SameOutside base (size * descSize) memory
      (Driver.putBody memory base (place % size) desc) :=
    fun memory place desc => SameOutside.putParts (inside place) [(.addr, desc.addr),
      (.len, desc.len.toNat), (.id, desc.id.toNat)]
  have rest : ∀ entries place memory, SameOutside base (size * descSize) memory
      (Driver.putEntries base size place entries memory) := by
    intro entries
    induction entries with
    | nil => exact fun _ memory => SameOutside.refl _ _ memory
    | cons desc rest ih =>
      intro place memory
      exact ((body memory place desc).trans
        (SameOutside.putPart _ (inside place) _ _)).trans (ih _ _)
  unfold Driver.prepare
  cases offer.entries with
  | nil => exact SameOutside.refl _ _ memory
  | cons desc others => exact (body memory _ desc).trans (rest others _ _)

/-- Publishing writes the flags of the first slot. -/
theorem cell_publish (backs : Backs memory base size) (positive : 0 < size) (driver : Driver)
    {offer : Offer} {first : PackedDesc} {rest : List PackedDesc}
    (drafted : driver.draft = some offer) (shape : offer.entries = first :: rest) {other : Nat}
    (after : driver.published ≤ other) (before : other < driver.published + size) :
    cell (driver.publish memory base size).2 base size other =
      if other = driver.published then
        { cell memory base size driver.published with flags := first.flags }
      else cell memory base size other := by
  unfold Driver.publish
  simp only [drafted, shape]
  rw [cell_putPart backs positive after before]
  simp [Part.set]

theorem publish_inside (positive : 0 < size) (driver : Driver) (memory : GuestMemory) :
    SameOutside base (size * descSize) memory (driver.publish memory base size).2 := by
  unfold Driver.publish
  cases driver.draft with
  | none => exact SameOutside.refl _ _ memory
  | some offer =>
    cases shape : offer.entries with
    | nil =>
      simp only [shape]
      exact SameOutside.refl _ _ memory
    | cons desc others =>
      simp only [shape]
      exact SameOutside.putPart memory (Nat.mod_lt _ positive) _ _

/-- The flags of a used entry: both bits are the lap's. -/
def usedFlags (wrap : Bool) : UInt16 := if wrap then descAvail ||| descUsed else 0

theorem availBit_usedFlags (wrap : Bool) : availBit (usedFlags wrap) = wrap := by
  cases wrap <;> decide

theorem usedBit_usedFlags (wrap : Bool) : usedBit (usedFlags wrap) = wrap := by
  cases wrap <;> decide

section Used

variable {queue : Virtqueue} (located : queue.descAddr = base)
  (cursor : queue.nextUsed.toNat = place % size)

include located cursor

section

variable (backs : Backs memory base size) (positive : 0 < size) (id : UInt16) (len : UInt32)
include backs positive id len

/-- A completion is three fields of the entry at the device's cursor. -/
theorem pushUsedPacked_memory :
    (queue.pushUsedPacked memory id len).2 =
      putParts memory base (place % size) [(.id, id.toNat), (.len, len.toNat),
        (.flags, (usedFlags queue.usedWrap).toNat)] := by
  have inside : place % size < size := Nat.mod_lt place positive
  have target : queue.descAt queue.nextUsed = base + place % size * descSize := by
    rw [Virtqueue.descAt, located, cursor]
    exact backs.address_entry inside
  unfold Virtqueue.pushUsedPacked putParts
  simp only [List.foldl, target, backs.address_field inside (show 12 ≤ descSize by decide),
    backs.address_field inside (show 8 ≤ descSize by decide),
    backs.address_field inside (show 14 ≤ descSize by decide)]
  rfl

theorem cell_pushUsedPacked {other : Nat} (after : place ≤ other) (before : other < place + size) :
    cell (queue.pushUsedPacked memory id len).2 base size other =
      if other = place then
        ⟨(cell memory base size place).addr, len, id, usedFlags queue.usedWrap⟩
      else cell memory base size other := by
  rw [pushUsedPacked_memory located cursor backs positive,
    cell_putParts backs positive after before]
  simp [Part.set]

theorem pushUsedPacked_inside :
    SameOutside base (size * descSize) memory (queue.pushUsedPacked memory id len).2 := by
  rw [pushUsedPacked_memory located cursor backs positive]
  exact SameOutside.putParts (Nat.mod_lt place positive) _

end

end Used

end Lighter.Virtio.Packed
