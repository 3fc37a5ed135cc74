import Mathlib.Data.List.Basic

/-!
# Computations that may stop the program

An index or a slice outside its list, a difference below zero or a missing value that was
expected stops the program. A computation is safe if it does not. What a computation gives is
read off its steps, one at a time: each step needs a condition on lengths, and the rest is
about the value the step gives.
-/

namespace Lighter

universe u

/-- Why a program stopped. -/
inductive Panic where
  | index
  | slice
  | underflow
  | unwrap
deriving DecidableEq, Repr

/-- A value, unless the program stopped. -/
abbrev Checked (α : Type u) := Except Panic α

namespace Checked

variable {α β : Type u} {list : List α} {place first stop : Nat} {post : β → Prop}

/-- The computation does not stop the program. -/
def Safe (run : Checked α) : Prop := ∃ value, run = .ok value

/-- The computation gives a value of which `post` holds. -/
def Gives (run : Checked α) (post : α → Prop) : Prop := ∃ value, run = .ok value ∧ post value

/-- Safety is a law of every value. -/
theorem safe_iff {run : Checked α} : Safe run ↔ Gives run fun _ => True := by
  simp [Safe, Gives]

/-- A computation gives what its value implies. -/
theorem Gives.mono {run : Checked α} {post weaker : α → Prop} (gives : Gives run post)
    (implies : ∀ value, post value → weaker value) : Gives run weaker := by
  obtain ⟨value, result, holds⟩ := gives
  exact ⟨value, result, implies value holds⟩

/-- A value is given as it is. -/
@[simp] theorem gives_ok {value : α} {post : α → Prop} :
    Gives (.ok value : Checked α) post ↔ post value := by
  simp [Gives]

/-- So is a result. -/
@[simp] theorem gives_pure {value : α} {post : α → Prop} :
    Gives (pure value : Checked α) post ↔ post value := gives_ok

/-- A program that stopped gives nothing. -/
@[simp] theorem gives_error {panic : Panic} {post : α → Prop} :
    ¬ Gives (.error panic : Checked α) post := by
  simp [Gives]

/-- What follows goes on with the value. -/
@[simp] theorem bind_ok (value : α) (rest : α → Checked β) :
    (Except.ok value >>= rest : Checked β) = rest value := rfl

/-- Nothing follows a stop. -/
@[simp] theorem bind_error (panic : Panic) (rest : α → Checked β) :
    (Except.error panic >>= rest : Checked β) = .error panic := rfl

/-- Two steps give what the second gives of the first. -/
theorem gives_bind {run : Checked α} {rest : α → Checked β} :
    Gives (run >>= rest) post ↔ Gives run fun value => Gives (rest value) post := by
  cases run with
  | error panic => simp
  | ok value => simp

/-! ## Lists -/

/-- `list[place]`. -/
def index (list : List α) (place : Nat) : Checked α :=
  match list[place]? with
  | some value => .ok value
  | none => .error .index

/-- Inside the list there is a value. -/
theorem index_of_lt (below : place < list.length) : index list place = .ok list[place] := by
  unfold index
  rw [List.getElem?_eq_getElem below]

/-- Outside it the program stops. -/
theorem index_of_le (beyond : list.length ≤ place) : index list place = .error .index := by
  unfold index
  rw [List.getElem?_eq_none beyond]

/-- An index needs its place inside. -/
@[simp] theorem gives_index {rest : α → Checked β} :
    Gives (index list place >>= rest) post ↔
      ∃ below : place < list.length, Gives (rest list[place]) post := by
  by_cases below : place < list.length
  · grind [index_of_lt, bind_ok]
  · grind [index_of_le, bind_error, gives_error]

/-- `list.get(first..stop)`. -/
def between (list : List α) (first stop : Nat) : Option (List α) :=
  if first ≤ stop ∧ stop ≤ list.length then some ((list.drop first).take (stop - first)) else none

/-- A part found is inside, and is as long as its ends are apart. -/
theorem between_eq_some {part : List α} (found : between list first stop = some part) :
    first ≤ stop ∧ stop ≤ list.length ∧ part = (list.drop first).take (stop - first) ∧
      part.length = stop - first := by
  unfold between at found
  split at found
  · grind
  · cases found

/-- `list.get(first..)`. -/
def onward (list : List α) (first : Nat) : Option (List α) :=
  if first ≤ list.length then some (list.drop first) else none

/-- A rest found begins inside. -/
theorem onward_eq_some {part : List α} (found : onward list first = some part) :
    first ≤ list.length ∧ part = list.drop first := by
  unfold onward at found
  split at found
  · rename_i inside
    cases found
    exact ⟨inside, rfl⟩
  · cases found

/-- `list[first..stop]`. -/
def slice (list : List α) (first stop : Nat) : Checked (List α) :=
  match between list first stop with
  | some part => .ok part
  | none => .error .slice

/-- Inside the list a slice is the part between. -/
theorem slice_of_le (ordered : first ≤ stop) (inside : stop ≤ list.length) :
    slice list first stop = .ok ((list.drop first).take (stop - first)) := by
  unfold slice between
  rw [if_pos ⟨ordered, inside⟩]

variable {rest : List α → Checked β}

/-- A slice needs its ends in order and inside. -/
@[simp] theorem gives_slice :
    Gives (slice list first stop >>= rest) post ↔
      (first ≤ stop ∧ stop ≤ list.length) ∧
        Gives (rest ((list.drop first).take (stop - first))) post := by
  by_cases inside : first ≤ stop ∧ stop ≤ list.length
  · grind [slice_of_le, bind_ok]
  have outside : slice list first stop = .error .slice := by
    unfold slice between
    rw [if_neg inside]
  rw [outside, bind_error]
  exact ⟨fun safe => absurd safe gives_error, fun both => absurd both.1 inside⟩

/-- `list[first..]`. -/
def tail (list : List α) (first : Nat) : Checked (List α) := slice list first list.length

/-- A tail needs its beginning inside. -/
@[simp] theorem gives_tail :
    Gives (tail list first >>= rest) post ↔
      first ≤ list.length ∧ Gives (rest (list.drop first)) post := by
  unfold tail
  rw [gives_slice, List.take_of_length_le (Nat.le_of_eq List.length_drop)]
  simp

/-- `list[place] = value`. -/
def put (list : List α) (place : Nat) (value : α) : Checked (List α) :=
  if place < list.length then .ok (list.set place value) else .error .index

/-- A store needs its place inside. -/
@[simp] theorem gives_put {value : α} {rest : List α → Checked β} :
    Gives (put list place value >>= rest) post ↔
      place < list.length ∧ Gives (rest (list.set place value)) post := by
  unfold put
  by_cases below : place < list.length
  · simp [below]
  · simp [below]

/-- `list[first..first + data.len()].copy_from_slice(data)`. -/
def paste (list : List α) (first : Nat) (data : List α) : Checked (List α) :=
  if first + data.length ≤ list.length then
    .ok (list.take first ++ data ++ list.drop (first + data.length))
  else .error .slice

/-- A copy needs room for all of it. -/
@[simp] theorem gives_paste {data : List α} {rest : List α → Checked β} :
    Gives (paste list first data >>= rest) post ↔ first + data.length ≤ list.length ∧
      Gives (rest (list.take first ++ data ++ list.drop (first + data.length))) post := by
  unfold paste
  by_cases inside : first + data.length ≤ list.length
  · simp [inside]
  · simp [inside]

/-! ## Values that may be missing -/

/-- The `?` of a function that may return nothing. -/
def ask (found : Option α) (rest : α → Checked (Option β)) : Checked (Option β) :=
  match found with
  | none => .ok none
  | some value => rest value

/-- What is there is gone on with. -/
@[simp] theorem ask_some (value : α) (rest : α → Checked (Option β)) :
    ask (some value) rest = rest value := rfl

/-- A law of nothing, and of what follows each value, is one of both. -/
theorem gives_ask {found : Option α} {rest : α → Checked (Option β)} {post : Option β → Prop}
    (nothing : post none) (each : ∀ value, found = some value → Gives (rest value) post) :
    Gives (ask found rest) post := by
  cases found with
  | none => exact gives_ok.mpr nothing
  | some value => exact each value rfl

/-- `.expect(..)`. -/
def unwrap (found : Option α) : Checked α :=
  match found with
  | some value => .ok value
  | none => .error .unwrap

/-- What is expected has to be there. -/
@[simp] theorem gives_unwrap {found : Option α} {rest : α → Checked β} :
    Gives (unwrap found >>= rest) post ↔ ∃ value, found = some value ∧ Gives (rest value) post := by
  cases found <;> simp [unwrap]

end Checked
end Lighter
