import Mathlib.Tactic

/-!
# Laps of a ring

A place in a ring is a count of slots passed since the beginning, which never wraps;
what a party keeps of it is its position and the parity of its lap. Two places less
than a ring apart have different positions, and a place one ring further has the
same position and the other parity.
-/

namespace Lighter.Lap

/-- The parity of the lap a place is in: true in the first. -/
def lap (size place : Nat) : Bool := (place / size) % 2 == 0

theorem lap_zero (size : Nat) : lap size 0 = true := by
  simp [lap]

/-- One ring further the parity is the other one. -/
theorem lap_add_size {size : Nat} (positive : 0 < size) (place : Nat) :
    lap size (place + size) = !lap size place := by
  have next : (place + size) / size = place / size + 1 := Nat.add_div_right place positive
  have parity : (place / size + 1) % 2 = 1 - place / size % 2 := by omega
  rcases Nat.mod_two_eq_zero_or_one (place / size) with even | odd
  · simp [lap, next, parity, even]
  · simp [lap, next, parity, odd]

/-- A step of at most a ring changes the parity exactly when it passes the end. -/
theorem lap_add {size step : Nat} (positive : 0 < size) (short : step ≤ size) (place : Nat) :
    lap size (place + step) =
      if place % size + step ≥ size then !lap size place else lap size place := by
  have whole : size * (place / size) + place % size = place := Nat.div_add_mod place size
  have inside : place % size < size := Nat.mod_lt place positive
  split
  · next passes =>
    have next : (place + step) / size = place / size + 1 := by
      apply Nat.div_eq_of_lt_le
      · rw [Nat.add_mul, Nat.one_mul, Nat.mul_comm]
        omega
      · rw [Nat.add_mul, Nat.add_mul, Nat.one_mul, Nat.mul_comm]
        omega
    rw [← lap_add_size positive, lap, lap, next, Nat.add_div_right place positive]
  · next stays =>
    have same : (place + step) / size = place / size := by
      apply Nat.div_eq_of_lt_le
      · rw [Nat.mul_comm]
        omega
      · rw [Nat.add_mul, Nat.one_mul, Nat.mul_comm]
        omega
    rw [lap, lap, same]

/-- Two places less than a ring apart have different positions. -/
theorem position_injective {size first second : Nat} (ordered : first ≤ second)
    (near : second < first + size) (same : first % size = second % size) : first = second := by
  have divides : size ∣ second - first := (Nat.modEq_iff_dvd' ordered).mp same
  have none : second - first = 0 := Nat.eq_zero_of_dvd_of_lt divides (by omega)
  omega

/-- A step leads back to its position on the other lap exactly if it is an odd number of
rings. -/
theorem lap_flips_iff {size : Nat} (positive : 0 < size) (place step : Nat) :
    ((place + step) % size = place % size ∧ lap size (place + step) ≠ lap size place) ↔
      step % (2 * size) = size := by
  have back : (place + step) % size = place % size ↔ size ∣ step := by
    have divides := @Nat.modEq_iff_dvd' size _ _ (Nat.le_add_right place step)
    rw [Nat.add_sub_cancel_left] at divides
    exact eq_comm.trans divides
  have rings : ∀ count, lap size (place + size * count) ≠ lap size place ↔
      size * count % (2 * size) = size := by
    intro count
    rw [lap, lap, Nat.add_mul_div_left _ _ positive, Nat.mul_comm 2, Nat.mul_mod_mul_left,
      Nat.mul_eq_left positive.ne']
    grind
  rw [back]
  constructor
  · rintro ⟨⟨count, rfl⟩, other⟩
    exact (rings count).mp other
  · intro odd
    have whole : size ∣ step := by
      rw [← Nat.div_add_mod step (2 * size), odd, Nat.mul_assoc, Nat.mul_left_comm]
      exact Nat.dvd_add (Nat.dvd_mul_right _ _) (Nat.dvd_refl _)
    obtain ⟨count, rfl⟩ := whole
    exact ⟨Nat.dvd_mul_right _ _, (rings count).mpr odd⟩

end Lighter.Lap
