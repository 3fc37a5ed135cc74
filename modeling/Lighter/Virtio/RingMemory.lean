import Lighter.Virtio.Queue

/-!
# Ring entries in memory

A table of sixteen-byte entries that lies wholly in guest memory, read entry by
entry. A field written to one entry changes that field of that entry and nothing
else in the table.
-/

namespace Lighter.Virtio

open GuestMemory DescriptorChain

/-- The table's bytes are all in one region. -/
def Backs (memory : GuestMemory) (table count : Nat) : Prop :=
  memory.mapped table (count * descSize) = true

instance (memory : GuestMemory) (table count : Nat) : Decidable (Backs memory table count) :=
  inferInstanceAs (Decidable (memory.mapped table (count * descSize) = true))

/-- The entry at an index, as a packed ring arranges it. -/
def entry (memory : GuestMemory) (table index : Nat) : PackedDesc where
  addr := memory.field (table + index * descSize) 8
  len := UInt32.ofNat (memory.field (table + index * descSize + 8) 4)
  id := UInt16.ofNat (memory.field (table + index * descSize + 12) 2)
  flags := UInt16.ofNat (memory.field (table + index * descSize + 14) 2)

/-- The fields read at an address are those of an entry. -/
structure Reads (memory : GuestMemory) (slot : Nat) (desc : PackedDesc) : Prop where
  addr : memory.readU64 slot = some desc.addr
  len : memory.readU32 (address slot 8) = some desc.len
  id : memory.readU16 (address slot 12) = some desc.id
  flags : memory.readU16 (address slot 14) = some desc.flags

variable {memory : GuestMemory} {table count index : Nat}

/-- A mapped span ends inside the address space. -/
theorem mapped_below {gpa len : Nat} (mapped : memory.mapped gpa len = true) :
    gpa + len < 2 ^ 64 := by
  simp only [GuestMemory.mapped, List.any_eq_true, Region.contains, Bool.and_eq_true,
    decide_eq_true_eq] at mapped
  obtain ⟨region, _, below, _⟩ := mapped
  exact below

/-- A whole entry fits before the end of its table. -/
theorem entry_room (inside : index < count) : index * descSize + descSize ≤ count * descSize := by
  rw [← Nat.succ_mul]
  exact Nat.mul_le_mul_right descSize inside

namespace Backs

theorem congr {other : GuestMemory} (backs : Backs memory table count)
    (same : other.regions = memory.regions) : Backs other table count := by
  rw [Backs, mapped_congr same]
  exact backs

section

variable (backs : Backs memory table count) (inside : index < count)
include backs inside

/-- Every field of an entry is mapped. -/
theorem mapped_field {offset width : Nat} (short : offset + width ≤ descSize) :
    memory.mapped (table + index * descSize + offset) width = true := by
  have room := entry_room inside
  rw [Nat.add_assoc]
  exact memory.mapped_part _ _ backs (by omega)

/-- Addresses inside the table do not wrap. -/
theorem address_field {offset : Nat} (short : offset ≤ descSize) :
    address (table + index * descSize) offset = table + index * descSize + offset := by
  have below := mapped_below backs
  have room := entry_room inside
  exact address_eq (by omega)

theorem address_entry : address table (index * descSize) = table + index * descSize := by
  have below := mapped_below backs
  have room := entry_room inside
  exact address_eq (by omega)

theorem reads : Reads memory (table + index * descSize) (entry memory table index) where
  addr := readU64_of_mapped (backs.mapped_field inside (show 0 + 8 ≤ descSize by decide))
  len := by
    rw [backs.address_field inside (by decide)]
    exact readU32_of_mapped (backs.mapped_field inside (by decide))
  id := by
    rw [backs.address_field inside (by decide)]
    exact readU16_of_mapped (backs.mapped_field inside (by decide))
  flags := by
    rw [backs.address_field inside (by decide)]
    exact readU16_of_mapped (backs.mapped_field inside (by decide))

end

theorem readPacked (backs : Backs memory table count) {index : UInt16}
    (inside : index.toNat < count) :
    readPacked memory table index = some (entry memory table index.toNat) := by
  obtain ⟨addr, len, id, flags⟩ := backs.reads inside
  unfold DescriptorChain.readPacked
  simp only [backs.address_entry inside, addr, len, id, flags, Option.bind_eq_bind,
    Option.bind_some]
  rfl

end Backs

/-- The four fields of an entry. -/
inductive Part where
  | addr
  | len
  | id
  | flags
deriving DecidableEq, Repr

namespace Part

def offset : Part → Nat
  | addr => 0
  | len => 8
  | id => 12
  | flags => 14

def width : Part → Nat
  | addr => 8
  | len => 4
  | id => 2
  | flags => 2

/-- An entry with one field replaced. -/
def set (desc : PackedDesc) (value : Nat) : Part → PackedDesc
  | addr => { desc with addr := value % 2 ^ 64 }
  | len => { desc with len := UInt32.ofNat value }
  | id => { desc with id := UInt16.ofNat value }
  | flags => { desc with flags := UInt16.ofNat value }

theorem fits (part : Part) : part.offset + part.width ≤ descSize := by
  cases part <;> decide

/-- Two fields of an entry do not overlap. -/
theorem apart {first second : Part} (different : first ≠ second) :
    first.offset + first.width ≤ second.offset ∨ second.offset + second.width ≤ first.offset := by
  cases first <;> cases second <;> first | exact absurd rfl different | decide

end Part

/-- One field of an entry, as a number. -/
def partOf (memory : GuestMemory) (table index : Nat) (part : Part) : Nat :=
  memory.field (table + index * descSize + part.offset) part.width

theorem entry_eq (memory : GuestMemory) (table index : Nat) :
    entry memory table index = ⟨partOf memory table index .addr,
      UInt32.ofNat (partOf memory table index .len), UInt16.ofNat (partOf memory table index .id),
      UInt16.ofNat (partOf memory table index .flags)⟩ := rfl

/-- One field of an entry, written. -/
def putPart (memory : GuestMemory) (table index : Nat) (part : Part) (value : Nat) :
    GuestMemory :=
  memory.putField (table + index * descSize + part.offset) part.width value

@[simp] theorem regions_putPart (memory : GuestMemory) (table index : Nat) (part : Part)
    (value : Nat) : (putPart memory table index part value).regions = memory.regions :=
  regions_putField memory _ _ _

/-- The field written holds the number; another field, or one of another entry, is
left alone. -/
theorem partOf_putPart (backs : Backs memory table count) (inside : index < count)
    (part : Part) (value other : Nat) (place : Part) :
    partOf (putPart memory table index part value) table other place =
      if other = index ∧ place = part then value % 256 ^ part.width
      else partOf memory table other place := by
  have short := part.fits
  have also := place.fits
  by_cases same : other = index
  · subst same
    by_cases mine : place = part
    · subst mine
      rw [if_pos ⟨rfl, rfl⟩]
      exact field_putField_same (backs.mapped_field inside short) value
    · rw [if_neg (fun both => mine both.2)]
      have apart := Part.apart mine
      exact field_putField_apart (by omega)
  · rw [if_neg (fun both => same both.1)]
    refine field_putField_apart ?_
    rcases Nat.lt_or_gt_of_ne same with before | after
    · have room := entry_room before
      omega
    · have room := entry_room after
      omega

theorem entry_putPart (backs : Backs memory table count) (inside : index < count)
    (part : Part) (value other : Nat) :
    entry (putPart memory table index part value) table other =
      if other = index then part.set (entry memory table index) value
      else entry memory table other := by
  simp only [entry_eq, partOf_putPart backs inside]
  by_cases same : other = index
  · subst same
    cases part with
    | addr => simp [Part.set, Part.width]
    | len =>
      have narrow : UInt32.ofNat (value % 4294967296) = UInt32.ofNat value := UInt32.ofNat_mod_size
      simp [Part.set, Part.width, narrow]
    | id | flags =>
      have narrow : UInt16.ofNat (value % 65536) = UInt16.ofNat value := UInt16.ofNat_mod_size
      simp [Part.set, Part.width, narrow]
  · simp [same]

/-- An entry depends on its own sixteen bytes. -/
theorem entry_congr {first second : GuestMemory}
    (same : ∀ position, table + index * descSize ≤ position →
      position < table + index * descSize + descSize →
      second.bytes position = first.bytes position) :
    entry second table index = entry first table index := by
  have fields : ∀ part, partOf second table index part = partOf first table index part := by
    intro part
    have short := part.fits
    refine congrArg Fixed.fromLe (content_congr ?_)
    intro position after before
    exact same position (by omega) (by omega)
  simp [entry_eq, fields]

/-- Two memories that differ inside a span at most. -/
structure SameOutside (base len : Nat) (first second : GuestMemory) : Prop where
  regions : second.regions = first.regions
  bytes : ∀ position, position < base ∨ base + len ≤ position →
    second.bytes position = first.bytes position

namespace SameOutside

variable {base len : Nat} {first second third : GuestMemory}

theorem refl (base len : Nat) (memory : GuestMemory) : SameOutside base len memory memory :=
  ⟨rfl, fun _ _ => rfl⟩

theorem trans (left : SameOutside base len first second)
    (right : SameOutside base len second third) : SameOutside base len first third where
  regions := right.regions.trans left.regions
  bytes position outside := (right.bytes position outside).trans (left.bytes position outside)

/-- A span inside a wider one. -/
theorem widen (same : SameOutside base len first second) {start wide : Nat} (low : start ≤ base)
    (high : base + len ≤ start + wide) : SameOutside start wide first second where
  regions := same.regions
  bytes position outside := same.bytes position (by omega)

/-- A write inside the span. -/
theorem putField (memory : GuestMemory) {gpa width : Nat} (value : Nat) (low : base ≤ gpa)
    (high : gpa + width ≤ base + len) :
    SameOutside base len memory (memory.putField gpa width value) where
  regions := regions_putField memory gpa width value
  bytes position outside := bytes_putField_outside memory gpa width value (by omega)

/-- A field outside the span is left alone. -/
theorem field (same : SameOutside base len first second) {gpa width : Nat}
    (apart : gpa + width ≤ base ∨ base + len ≤ gpa) :
    second.field gpa width = first.field gpa width := by
  refine congrArg Fixed.fromLe (content_congr ?_)
  intro position after before
  exact same.bytes position (by omega)

/-- A field of an entry is inside the table. -/
theorem putPart (memory : GuestMemory) (inside : index < count) (part : Part) (value : Nat) :
    SameOutside table (count * descSize) memory (putPart memory table index part value) where
  regions := regions_putPart memory table index part value
  bytes position outside := by
    have short := part.fits
    have room := entry_room inside
    exact bytes_putField_outside memory _ _ _ (by omega)

/-- A table apart from the span keeps its entries. -/
theorem entry (same : SameOutside base len first second) (inside : index < count)
    (apart : table + count * descSize ≤ base ∨ base + len ≤ table) :
    entry second table index = entry first table index := by
  have room := entry_room inside
  apply entry_congr
  intro position after before
  exact same.bytes position (by omega)

end SameOutside

end Lighter.Virtio
