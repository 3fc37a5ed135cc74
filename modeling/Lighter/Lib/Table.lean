import Mathlib.Algebra.Ring.Nat
import Mathlib.Data.Finmap

/-!
# Finite tables

A table is a finite map kept as an association list without repeated keys. Two
aggregates are read off it: the sum of a weight over its entries and the list
gathered from them. Both obey one law for each direction of change, namely what
an entry contributes beside the table without it, so that an update is an
addition and a subtraction and never a walk over the entries.
-/

namespace Lighter

open AList List

universe u v w

/-- A finite map. -/
abbrev Table (κ : Type u) (ν : Type v) := AList (fun _ : κ => ν)

namespace Table

variable {κ : Type u} {ν : Type v} {β : Type w}

/-- The sum of a weight over every entry. -/
def sum (weight : κ → ν → Nat) (table : Table κ ν) : Nat :=
  (table.entries.map fun entry => weight entry.1 entry.2).sum

/-- The lists of every entry, one after another. -/
def gather (pick : κ → ν → List β) (table : Table κ ν) : List β :=
  table.entries.flatMap fun entry => pick entry.1 entry.2

/-- How many entries there are. -/
def size (table : Table κ ν) : Nat := table.entries.length

@[simp] theorem gather_empty (pick : κ → ν → List β) : gather pick (∅ : Table κ ν) = [] := rfl

/-- A table without entries is the empty table. -/
theorem eq_empty_of_entries (table : Table κ ν) (none : table.entries = []) :
    table = ∅ := AList.ext none

variable [DecidableEq κ] {key : κ} {table : Table κ ν}

theorem lookup_insert_ite (key tested : κ) (value : ν) (table : Table κ ν) :
    (table.insert key value).lookup tested =
      if tested = key then some value else table.lookup tested := by
  by_cases same : tested = key
  · subst same
    simp
  · simp [same, lookup_insert_ne same]

theorem lookup_erase_ite (key tested : κ) (table : Table κ ν) :
    (table.erase key).lookup tested =
      if tested = key then none else table.lookup tested := by
  by_cases same : tested = key
  · subst same
    simp
  · simp [same, lookup_erase_ne same]

/-- What holds of the entries kept and of the one put in holds of every entry. -/
theorem all_insert {holds : κ → ν → Prop} {value : ν}
    (others : ∀ tested found, tested ≠ key → table.lookup tested = some found → holds tested found)
    (mine : holds key value) (tested : κ) (found : ν)
    (present : (table.insert key value).lookup tested = some found) : holds tested found := by
  rw [lookup_insert_ite] at present
  by_cases same : tested = key
  · grind
  · grind

/-- What holds of every entry holds of those that are left. -/
theorem all_erase {holds : κ → ν → Prop}
    (others : ∀ tested found, tested ≠ key → table.lookup tested = some found → holds tested found)
    (tested : κ) (found : ν) (present : (table.erase key).lookup tested = some found) :
    holds tested found := by
  rw [lookup_erase_ite] at present
  by_cases same : tested = key
  · rw [if_pos same] at present
    cases present
  · grind

@[simp] theorem erase_insert (key : κ) (value : ν) (table : Table κ ν) :
    (table.insert key value).erase key = table.erase key := by
  apply AList.ext
  simp [AList.erase, AList.insert, kinsert_def, kerase_cons_eq]

theorem erase_of_lookup_none (key : κ) (table : Table κ ν)
    (absent : table.lookup key = none) : table.erase key = table := by
  apply AList.ext
  have outside : key ∉ table.entries.keys := lookup_eq_none.mp absent
  simp [erase, kerase_of_notMem_keys outside]

/-- A present entry stands beside the table without it. -/
theorem entries_perm_of_lookup (key : κ) (value : ν) (table : Table κ ν)
    (found : table.lookup key = some value) :
    table.entries.Perm (⟨key, value⟩ :: (table.erase key).entries) := by
  have member : (⟨key, value⟩ : Sigma fun _ : κ => ν) ∈ table.entries := mem_lookup_iff.mp found
  obtain ⟨stored, before, after, outside, split, erased⟩ :=
    exists_of_kerase (mem_keys_of_mem member)
  have same : stored = value := by
    have nodupKeys := table.nodupKeys
    grind
  subst same
  change table.entries.Perm (⟨key, stored⟩ :: kerase key table.entries)
  rw [erased, split]
  exact perm_middle

theorem sum_insert (weight : κ → ν → Nat) (key : κ) (value : ν) (table : Table κ ν) :
    sum weight (table.insert key value) =
      weight key value + sum weight (table.erase key) := by
  simp [sum, entries_insert, erase]

theorem gather_insert (pick : κ → ν → List β) (key : κ) (value : ν) (table : Table κ ν) :
    gather pick (table.insert key value) =
      pick key value ++ gather pick (table.erase key) := by
  simp [gather, entries_insert, erase]

theorem sum_of_lookup (weight : κ → ν → Nat) (key : κ) (value : ν) (table : Table κ ν)
    (found : table.lookup key = some value) :
    sum weight table = weight key value + sum weight (table.erase key) := by
  have split := (entries_perm_of_lookup key value table found).map
    fun entry => weight entry.1 entry.2
  simpa [sum] using split.sum_eq

theorem gather_of_lookup (pick : κ → ν → List β) (key : κ) (value : ν)
    (table : Table κ ν) (found : table.lookup key = some value) :
    (gather pick table).Perm (pick key value ++ gather pick (table.erase key)) := by
  have split := (entries_perm_of_lookup key value table found).flatMap_right
    fun entry => pick entry.1 entry.2
  simpa [gather] using split

/-- Replacing a present entry changes the sum by the two weights. -/
theorem sum_replace (weight : κ → ν → Nat) (key : κ) (old new : ν) (table : Table κ ν)
    (found : table.lookup key = some old) :
    sum weight (table.insert key new) + weight key old =
      sum weight table + weight key new := by
  rw [sum_insert, sum_of_lookup weight key old table found]
  omega

theorem size_erase {value : ν} (found : table.lookup key = some value) :
    size (table.erase key) + 1 = size table := by
  have split := (entries_perm_of_lookup key value table found).length_eq
  simpa [size] using split.symm

/-- An entry put under a fresh key is one more. -/
theorem size_insert_absent (absent : table.lookup key = none) (value : ν) :
    size (table.insert key value) = size table + 1 := by
  have gone := congrArg size (erase_of_lookup_none key table absent)
  have member : (table.insert key value).lookup key = some value := lookup_insert _
  rw [← size_erase member, erase_insert, gone]

/-- An entry replaced is none more. -/
theorem size_insert_present {old : ν} (found : table.lookup key = some old) (value : ν) :
    size (table.insert key value) = size table := by
  have member : (table.insert key value).lookup key = some value := lookup_insert _
  rw [← size_erase member, erase_insert, size_erase found]

/-- A weight that no entry has sums to nothing. -/
theorem sum_eq_zero (weight : κ → ν → Nat) (table : Table κ ν)
    (weightless : ∀ key value, table.lookup key = some value → weight key value = 0) :
    sum weight table = 0 := by
  apply List.sum_eq_zero
  intro amount member
  obtain ⟨⟨key, value⟩, stored, rfl⟩ := List.mem_map.mp member
  exact weightless key value (AList.mem_lookup_iff.mpr stored)

/-- One entry never outweighs the table. -/
theorem weight_le_sum (weight : κ → ν → Nat) (key : κ) (value : ν) (table : Table κ ν)
    (found : table.lookup key = some value) : weight key value ≤ sum weight table := by
  rw [sum_of_lookup weight key value table found]
  omega

/-- The table with every value changed. -/
def mapValues (change : κ → ν → ν) (table : Table κ ν) : Table κ ν where
  entries := table.entries.map fun entry => ⟨entry.1, change entry.1 entry.2⟩
  nodupKeys := by
    have keys := table.nodupKeys
    unfold List.NodupKeys List.keys at keys ⊢
    rw [List.map_map]
    exact keys

theorem lookup_mapValues (change : κ → ν → ν) (table : Table κ ν) (key : κ) :
    (table.mapValues change).lookup key = (table.lookup key).map (change key) :=
  dlookup_map₂ key

/-- The entries that are wanted. -/
def keep (wanted : κ → ν → Bool) (table : Table κ ν) : Table κ ν where
  entries := table.entries.filter fun entry => wanted entry.1 entry.2
  nodupKeys := List.NodupKeys.sublist List.filter_sublist table.nodupKeys

theorem lookup_keep (wanted : κ → ν → Bool) (table : Table κ ν) (key : κ) :
    (table.keep wanted).lookup key = (table.lookup key).filter (wanted key) := by
  refine Option.ext fun value => ?_
  have kept : value ∈ (table.keep wanted).lookup key ↔
      value ∈ table.lookup key ∧ wanted key value = true := by
    rw [mem_lookup_iff, mem_lookup_iff]
    exact mem_filter
  rw [← Option.mem_def, kept, Option.filter_eq_some_iff, Option.mem_def]

/-- What is gathered comes from an entry. -/
theorem mem_gather (pick : κ → ν → List β) (table : Table κ ν) (item : β) :
    item ∈ gather pick table ↔
      ∃ key value, table.lookup key = some value ∧ item ∈ pick key value := by
  unfold gather
  rw [mem_flatMap]
  constructor
  · rintro ⟨⟨key, value⟩, inside, picked⟩
    exact ⟨key, value, mem_lookup_iff.mpr inside, picked⟩
  · rintro ⟨key, value, found, picked⟩
    exact ⟨⟨key, value⟩, mem_lookup_iff.mp found, picked⟩

end Table
end Lighter
