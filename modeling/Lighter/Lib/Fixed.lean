import Mathlib.Tactic

/-!
# Fixed-width counters and little-endian fields

Machine counters wrap and some of the arithmetic on them saturates instead. The
laws here relate both to the unbounded numbers a proof reasons about: a wrapped
difference is the true difference whenever that is below one lap, and a field
written in little-endian order reads back as the number it was written from.
-/

namespace Lighter.Fixed

/-- `u32::saturating_sub`. -/
def saturatingSub (left right : UInt32) : UInt32 :=
  if right ≤ left then left - right else 0

/-- `u32::saturating_add`. -/
def saturatingAdd (left right : UInt32) : UInt32 :=
  if left.toNat + right.toNat < 2 ^ 32 then left + right else UInt32.ofNat (2 ^ 32 - 1)

@[simp] theorem toNat_saturatingSub (left right : UInt32) :
    (saturatingSub left right).toNat = left.toNat - right.toNat := by
  unfold saturatingSub
  split
  · next below => exact UInt32.toNat_sub_of_le left right below
  next above =>
  have : left.toNat < right.toNat := by
    simpa [UInt32.le_iff_toNat_le] using above
  simp
  omega

/-- A wrapped difference is the true one when that stays below a lap. -/
theorem toNat_ofNat_sub (later earlier : Nat) (ordered : earlier ≤ later)
    (near : later - earlier < 2 ^ 32) :
    (UInt32.ofNat later - UInt32.ofNat earlier).toNat = later - earlier := by
  rw [← UInt32.ofNat_sub ordered]
  simp only [UInt32.toNat_ofNat']
  exact Nat.mod_eq_of_lt near

/-- Two counts less than a lap apart wrap to the same value only when equal. -/
theorem ofNat_eq_iff (later earlier : Nat) (ordered : earlier ≤ later)
    (near : later - earlier < 2 ^ 32) :
    UInt32.ofNat later = UInt32.ofNat earlier ↔ later = earlier := by
  constructor
  · intro same
    have difference := toNat_ofNat_sub later earlier ordered near
    rw [same] at difference
    simp at difference
    omega
  · intro same
    rw [same]

/-- `to_le_bytes` of a number kept in `width` bytes. -/
def leBytes : Nat → Nat → List UInt8
  | 0, _ => []
  | width + 1, value => UInt8.ofNat value :: leBytes width (value / 256)

/-- `from_le_bytes`. -/
def fromLe : List UInt8 → Nat
  | [] => 0
  | byte :: rest => byte.toNat + 256 * fromLe rest

@[simp] theorem length_leBytes (width value : Nat) : (leBytes width value).length = width := by
  induction width generalizing value with
  | zero => rfl
  | succ width ih => simp [leBytes, ih]

theorem fromLe_leBytes (width value : Nat) :
    fromLe (leBytes width value) = value % 256 ^ width := by
  induction width generalizing value with
  | zero => simp [leBytes, fromLe, Nat.mod_one]
  | succ width ih =>
    simp only [leBytes, fromLe, ih, UInt8.toNat_ofNat', Nat.pow_succ']
    exact (Nat.mod_mul).symm

end Lighter.Fixed
