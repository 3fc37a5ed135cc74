import Lighter.Lib.Fixed
import Lighter.Lib.Memory
import Mathlib.Data.List.GetD

/-!
# Numbers in guest memory

A field is a number kept in consecutive bytes, the least significant first. A
field reads back as it was written, another one that does not overlap it is left
alone, and a write outside the memory changes nothing. Addresses are 64-bit and
wrap; a field whose end would wrap is in no memory.
-/

namespace Lighter

/-- `u64` address arithmetic, which wraps. -/
def address (base offset : Nat) : Nat := (base + offset) % 2 ^ 64

theorem address_eq {base offset : Nat} (below : base + offset < 2 ^ 64) :
    address base offset = base + offset := Nat.mod_eq_of_lt below

namespace GuestMemory

open Fixed

variable {memory : GuestMemory} {gpa width : Nat}

/-- The number in so many bytes at an address. -/
def field (memory : GuestMemory) (gpa width : Nat) : Nat := fromLe (memory.content gpa width)

def readField (memory : GuestMemory) (gpa width : Nat) : Option Nat :=
  (memory.read gpa width).map fromLe

/-- A write whose failure is ignored. -/
def putField (memory : GuestMemory) (gpa width value : Nat) : GuestMemory :=
  (memory.write gpa (leBytes width value)).getD memory

def readU16 (memory : GuestMemory) (gpa : Nat) : Option UInt16 :=
  (memory.readField gpa 2).map UInt16.ofNat

def readU32 (memory : GuestMemory) (gpa : Nat) : Option UInt32 :=
  (memory.readField gpa 4).map UInt32.ofNat

/-- A `u64` read, kept as a number. -/
def readU64 (memory : GuestMemory) (gpa : Nat) : Option Nat := memory.readField gpa 8

def putU16 (memory : GuestMemory) (gpa : Nat) (value : UInt16) : GuestMemory :=
  memory.putField gpa 2 value.toNat

def putU32 (memory : GuestMemory) (gpa : Nat) (value : UInt32) : GuestMemory :=
  memory.putField gpa 4 value.toNat

theorem readField_of_mapped (mapped : memory.mapped gpa width = true) :
    memory.readField gpa width = some (memory.field gpa width) := by
  rw [readField, read_of_mapped memory gpa width mapped]
  rfl

theorem readU16_of_mapped (mapped : memory.mapped gpa 2 = true) :
    memory.readU16 gpa = some (UInt16.ofNat (memory.field gpa 2)) := by
  rw [readU16, readField_of_mapped mapped]
  rfl

theorem readU32_of_mapped (mapped : memory.mapped gpa 4 = true) :
    memory.readU32 gpa = some (UInt32.ofNat (memory.field gpa 4)) := by
  rw [readU32, readField_of_mapped mapped]
  rfl

theorem readU64_of_mapped (mapped : memory.mapped gpa 8 = true) :
    memory.readU64 gpa = some (memory.field gpa 8) := readField_of_mapped mapped

@[simp] theorem regions_putField (memory : GuestMemory) (gpa width value : Nat) :
    (memory.putField gpa width value).regions = memory.regions := by
  unfold putField write
  split <;> rfl

/-- What is mapped depends on the regions alone. -/
theorem mapped_congr {first second : GuestMemory} (same : first.regions = second.regions)
    (gpa len : Nat) : first.mapped gpa len = second.mapped gpa len := by
  rw [mapped, mapped, same]

@[simp] theorem mapped_putField (memory : GuestMemory) (gpa width value start len : Nat) :
    (memory.putField gpa width value).mapped start len = memory.mapped start len :=
  mapped_congr (regions_putField memory gpa width value) start len

/-- A mapped field's bytes hold the number, and no other byte changes. -/
theorem bytes_putField (mapped : memory.mapped gpa width = true) (value position : Nat) :
    (memory.putField gpa width value).bytes position =
      if gpa ≤ position ∧ position < gpa + width then
        (leBytes width value).getD (position - gpa) 0
      else memory.bytes position := by
  have fits : memory.mapped gpa (leBytes width value).length = true := by
    rw [length_leBytes]
    exact mapped
  unfold putField write
  rw [if_pos fits, length_leBytes]
  rfl

/-- A byte outside the field is left alone, whether or not the write succeeds. -/
theorem bytes_putField_outside (memory : GuestMemory) (gpa width value : Nat) {position : Nat}
    (outside : position < gpa ∨ gpa + width ≤ position) :
    (memory.putField gpa width value).bytes position = memory.bytes position := by
  by_cases mapped : memory.mapped gpa width = true
  · rw [bytes_putField mapped, if_neg (by omega)]
  · unfold putField write
    rw [length_leBytes, if_neg mapped]
    rfl

theorem content_congr {first second : GuestMemory} {start len : Nat}
    (same : ∀ position, start ≤ position → position < start + len →
      first.bytes position = second.bytes position) :
    first.content start len = second.content start len := by
  apply List.map_congr_left
  intro offset below
  exact same (start + offset) (Nat.le_add_right _ _)
    (Nat.add_lt_add_left (List.mem_range.mp below) start)

/-- A field that does not overlap the one written is left alone. -/
theorem field_putField_apart {value start len : Nat}
    (apart : start + len ≤ gpa ∨ gpa + width ≤ start) :
    (memory.putField gpa width value).field start len = memory.field start len := by
  refine congrArg fromLe (content_congr ?_)
  intro position after before
  exact bytes_putField_outside memory gpa width value (by omega)

/-- A field reads back as it was written. -/
theorem field_putField_same (mapped : memory.mapped gpa width = true) (value : Nat) :
    (memory.putField gpa width value).field gpa width = value % 256 ^ width := by
  have written : (memory.putField gpa width value).content gpa width = leBytes width value := by
    apply List.ext_getElem
    · simp
    intro offset below also
    have inside : offset < width := by simpa using below
    have bytes := bytes_putField mapped value (gpa + offset)
    rw [if_pos (by omega), Nat.add_sub_cancel_left] at bytes
    simp only [content, List.getElem_map, List.getElem_range]
    rw [bytes, List.getD_eq_getElem _ 0 also]
  rw [field, written, fromLe_leBytes]

theorem ofNat_field_putU16 (mapped : memory.mapped gpa 2 = true) (value : UInt16) :
    UInt16.ofNat ((memory.putU16 gpa value).field gpa 2) = value := by
  rw [putU16, field_putField_same mapped]
  simp

end GuestMemory
end Lighter
