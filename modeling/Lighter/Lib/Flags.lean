import Mathlib.Data.List.Count

/-!
# Spans of a row of flags

A row of flags of which a run of consecutive ones is looked at or set together. A span
is told by its flags, place by place, and setting it moves the number of set flags by
exactly what the span gains or loses.
-/

namespace Lighter.Flags

open List

variable {flags : List Bool} {first count : Nat}

/-- The flags of the span. -/
def span (flags : List Bool) (first count : Nat) : List Bool := (flags.drop first).take count

/-- The row with every flag of the span set to one value. -/
def fill (flags : List Bool) (first count : Nat) (value : Bool) : List Bool :=
  flags.take first ++ List.replicate count value ++ flags.drop (first + count)

theorem length_span (inside : first + count ≤ flags.length) :
    (span flags first count).length = count := by
  simp only [span, length_take, length_drop]
  omega

theorem length_fill (inside : first + count ≤ flags.length) (value : Bool) :
    (fill flags first count value).length = flags.length := by
  simp only [fill, length_append, length_take, length_replicate, length_drop]
  omega

/-- The row is what stands before the span, the span, and what stands after it. -/
theorem eq_append_span (flags : List Bool) (first count : Nat) :
    flags = flags.take first ++ span flags first count ++ flags.drop (first + count) := by
  rw [span, append_assoc, ← drop_drop, take_append_drop, take_append_drop]

theorem getElem?_span (index : Nat) :
    (span flags first count)[index]? = if index < count then flags[first + index]? else none := by
  rw [span, getElem?_take]
  split
  · rw [getElem?_drop]
  · rfl

theorem getElem?_fill (inside : first + count ≤ flags.length) (value : Bool) (index : Nat) :
    (fill flags first count value)[index]? =
      if first ≤ index ∧ index < first + count then some value else flags[index]? := by
  have short : (flags.take first).length = first := by
    rw [length_take]
    omega
  rw [fill, append_assoc]
  rcases Nat.lt_or_ge index first with before | after
  · grind
  · grind

/-- Setting a span moves the number of set flags by what the span gains or loses. -/
theorem count_fill (flags : List Bool) (first count : Nat) (value : Bool) :
    (fill flags first count value).count true + (span flags first count).count true =
      flags.count true + if value then count else 0 := by
  have whole := congrArg (List.count true) (eq_append_span flags first count)
  rw [count_append, count_append] at whole
  have filled : (replicate count value).count true = if value then count else 0 := by
    cases value
    · simp [count_replicate]
    · simp
  rw [fill, count_append, count_append, filled]
  omega

/-- A span all of one value, place by place. -/
theorem span_eq_replicate_iff (value : Bool) :
    span flags first count = replicate count value ↔
      ∀ index, first ≤ index → index < first + count → flags[index]? = some value := by
  constructor
  · intro same index after within
    have place : (span flags first count)[index - first]? = _ := getElem?_span (index - first)
    rw [same, getElem?_replicate, if_pos (by omega), if_pos (by omega),
      show first + (index - first) = index by omega] at place
    exact place.symm
  · intro every
    apply ext_getElem?
    intro index
    rw [getElem?_span, getElem?_replicate]
    split
    · exact every (first + index) (by omega) (by omega)
    · rfl

variable (inside : first + count ≤ flags.length)
include inside

/-- No flag of a span is set exactly if every one of its places is clear. -/
theorem count_span_eq_zero_iff :
    (span flags first count).count true = 0 ↔
      ∀ index, first ≤ index → index < first + count → flags[index]? = some false := by
  rw [← span_eq_replicate_iff, count_eq_zero, eq_replicate_iff]
  constructor
  · grind [length_span]
  · grind

theorem count_span_eq :
    (span flags first count).count true = count ↔
      ∀ flag ∈ span flags first count, true = flag := by
  have length := length_span inside
  rw [← count_eq_length, length]

/-- Every flag of a span is set exactly if their number is its length. -/
theorem count_span_eq_iff :
    (span flags first count).count true = count ↔
      ∀ index, first ≤ index → index < first + count → flags[index]? = some true := by
  rw [← span_eq_replicate_iff, eq_replicate_iff, count_span_eq inside]
  constructor
  · grind [length_span]
  · rintro ⟨_, set⟩ flag member
    exact (set flag member).symm

omit inside

theorem any_span_iff : (span flags first count).any id = false ↔
    (span flags first count).count true = 0 := by
  rw [count_eq_zero, any_eq_false]
  constructor
  · intro none member
    exact none true member rfl
  · grind

theorem any_not_span_iff (inside : first + count ≤ flags.length) :
    ((span flags first count).any fun flag => !flag) = false ↔
      (span flags first count).count true = count := by
  rw [count_span_eq inside, any_eq_false]
  constructor
  · grind
  · grind

end Lighter.Flags
