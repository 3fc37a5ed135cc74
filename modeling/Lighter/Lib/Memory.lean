import Mathlib.Algebra.Ring.Nat
import Mathlib.Data.List.Range

/-!
# Guest memory

Guest-physical memory is a list of backed regions over a byte-addressed content.
An access succeeds exactly when one region holds all of it and its end does not
leave the 64-bit address space. Nothing is said about how a region came to be
backed; a region's length is the part of it that is ready.

A write stores its bytes at consecutive addresses. Several writes are one list of
stores, the later over the earlier, and what a list of distinct addresses holds
afterwards is what was stored there.
-/

namespace Lighter

open List Function

structure Region where
  gpa : Nat
  len : Nat
deriving DecidableEq, Repr

/-- `Region::contains`: the end is computed with a checked addition. -/
def Region.contains (region : Region) (gpa len : Nat) : Bool :=
  gpa + len < 2 ^ 64 && (region.gpa ≤ gpa && gpa + len ≤ region.gpa + region.len)

structure GuestMemory where
  regions : List Region
  bytes : Nat → UInt8

namespace GuestMemory

/-- One region holds the whole span. -/
def mapped (memory : GuestMemory) (gpa len : Nat) : Bool :=
  memory.regions.any fun region => region.contains gpa len

/-- The content of a span, whether or not it is mapped. -/
def content (memory : GuestMemory) (gpa len : Nat) : List UInt8 :=
  (List.range len).map fun offset => memory.bytes (gpa + offset)

def read (memory : GuestMemory) (gpa len : Nat) : Option (List UInt8) :=
  if memory.mapped gpa len then some (memory.content gpa len) else none

def write (memory : GuestMemory) (gpa : Nat) (data : List UInt8) : Option GuestMemory :=
  if memory.mapped gpa data.length then
    some { memory with
      bytes := fun address =>
        if gpa ≤ address ∧ address < gpa + data.length then data.getD (address - gpa) 0
        else memory.bytes address }
  else none

variable (memory : GuestMemory)

@[simp] theorem length_content (gpa len : Nat) : (memory.content gpa len).length = len := by
  simp [content]

theorem read_of_mapped (gpa len : Nat) (mapped : memory.mapped gpa len = true) :
    memory.read gpa len = some (memory.content gpa len) := by
  simp [read, mapped]

/-- A span's content is that of its parts. -/
theorem content_add (gpa first second : Nat) :
    memory.content gpa (first + second) =
      memory.content gpa first ++ memory.content (gpa + first) second := by
  simp [content, range_add, comp_def, Nat.add_assoc]

/-- Part of a mapped span is mapped. -/
theorem mapped_part {gpa len : Nat} (offset part : Nat)
    (mapped : memory.mapped gpa len = true) (inside : offset + part ≤ len) :
    memory.mapped (gpa + offset) part = true := by
  simp only [GuestMemory.mapped, any_eq_true, Region.contains, Bool.and_eq_true,
    decide_eq_true_eq] at mapped ⊢
  obtain ⟨region, member, below, start, finish⟩ := mapped
  refine ⟨region, member, ?_, ?_, ?_⟩ <;> omega

/-- Bytes stored one after another. -/
def deposit (bytes : Nat → UInt8) (stores : List (Nat × UInt8)) : Nat → UInt8 :=
  stores.foldl (fun bytes store => Function.update bytes store.1 store.2) bytes

variable (bytes : Nat → UInt8)

theorem deposit_append (first second : List (Nat × UInt8)) :
    deposit bytes (first ++ second) = deposit (deposit bytes first) second :=
  foldl_append

theorem deposit_outside (stores : List (Nat × UInt8)) (address : Nat)
    (outside : address ∉ stores.map Prod.fst) : deposit bytes stores address = bytes address := by
  induction stores generalizing bytes with
  | nil => rfl
  | cons store rest ih =>
    rw [map_cons, mem_cons, not_or] at outside
    refine (ih _ outside.2).trans ?_
    exact update_of_ne outside.1 _ _

/-- Distinct addresses hold what was stored in them. -/
theorem map_deposit (slots : List Nat) (data : List UInt8)
    (distinct : slots.Nodup) (length : slots.length = data.length) :
    slots.map (deposit bytes (slots.zip data)) = data := by
  induction slots generalizing bytes data with
  | nil => exact (eq_nil_of_length_eq_zero length.symm).symm
  | cons slot rest ih =>
    cases data with
    | nil => cases length
    | cons byte more =>
      obtain ⟨apart, others⟩ := nodup_cons.mp distinct
      have first : deposit (update bytes slot byte) (rest.zip more) slot = byte := by
        rw [deposit_outside, update_self]
        intro member
        obtain ⟨pair, inside, same⟩ := mem_map.mp member
        exact apart (same ▸ (of_mem_zip inside).1)
      have later := ih (update bytes slot byte) more others (Nat.succ.inj length)
      exact congrArg₂ cons first later

/-- The stores of a span leave its data in it and the rest as it was. -/
theorem deposit_span (gpa : Nat) (data : List UInt8) :
    deposit bytes ((range' gpa data.length).zip data) = fun address =>
      if gpa ≤ address ∧ address < gpa + data.length then data.getD (address - gpa) 0
      else bytes address := by
  induction data generalizing bytes gpa with
  | nil =>
    funext address
    rw [if_neg (by simp)]
    rfl
  | cons byte rest ih =>
    funext address
    have step : deposit bytes ((range' gpa (byte :: rest).length).zip (byte :: rest)) =
        deposit (update bytes gpa byte) ((range' (gpa + 1) rest.length).zip rest) := rfl
    rw [step, ih]
    simp only [length_cons]
    by_cases first : address = gpa
    · grind
    · grind

/-- A write to a mapped span stores its data there. -/
theorem write_of_mapped (memory : GuestMemory) (gpa : Nat) (data : List UInt8)
    (mapped : memory.mapped gpa data.length = true) :
    memory.write gpa data = some { memory with
      bytes := deposit memory.bytes ((range' gpa data.length).zip data) } := by
  rw [write, if_pos mapped, deposit_span]

end GuestMemory
end Lighter
