import Mathlib.Data.List.Basic
import Mathlib.Order.Basic

/-!
# A queue whose entries keep the stamp they were queued with

Entries are handed over in the order they were queued, possibly in parts, and
some may be dropped while they wait. Every entry and every part carries the
stamp that was current when the entry was queued. When the current stamp never
decreases, the stamps handed over never decrease either; and when a split loses
nothing, neither does the queue.
-/

namespace Lighter.Stamped

open List

variable {α β τ : Type*}

structure Line (α τ : Type*) where
  delivered : List (α × τ)
  waiting : List (α × τ)

namespace Line

def empty : Line α τ := ⟨[], []⟩

/-- Everything queued and not dropped, in order. -/
def entries (line : Line α τ) : List (α × τ) := line.delivered ++ line.waiting

def push (line : Line α τ) (stamp : τ) (items : List α) : Line α τ :=
  { line with waiting := line.waiting ++ items.map fun item => (item, stamp) }

/-- Drops what waits and fails the test. -/
def keep (line : Line α τ) (test : α → Bool) : Line α τ :=
  { line with waiting := line.waiting.filter fun entry => test entry.1 }

/-- Hands over the first entry, or the part of it that the split allows; the rest
of it stays first. -/
def hand (line : Line α τ) (split : α → α × Option α) : Line α τ :=
  match line.waiting with
  | [] => line
  | (item, stamp) :: later =>
      ⟨line.delivered ++ [((split item).1, stamp)],
        ((split item).2.toList.map fun rest => (rest, stamp)) ++ later⟩

variable {line : Line α τ}

@[simp] theorem entries_push (line : Line α τ) (stamp : τ) (items : List α) :
    (line.push stamp items).entries = line.entries ++ items.map fun item => (item, stamp) := by
  simp [push, entries]

theorem entries_keep_sublist (line : Line α τ) (test : α → Bool) :
    (line.keep test).entries.Sublist line.entries :=
  filter_sublist.append_left line.delivered

/-- A test that everything passes drops nothing. -/
theorem keep_all (line : Line α τ) {test : α → Bool} (all : ∀ item, test item = true) :
    line.keep test = line := by
  simp [keep, all]

/-- The entries after a hand-over are those before it, with the first waiting one
replaced by its parts. -/
theorem entries_hand {item : α} {stamp : τ} {later : List (α × τ)}
    (first : line.waiting = (item, stamp) :: later) (split : α → α × Option α) :
    (line.hand split).entries = line.delivered ++
      (((split item).1 :: (split item).2.toList).map fun part => (part, stamp)) ++ later := by
  simp [hand, entries, first]

/-- Every entry satisfies a law of its item and its stamp. -/
def All (line : Line α τ) (law : α → τ → Prop) : Prop :=
  ∀ entry ∈ line.entries, law entry.1 entry.2

namespace All

variable {law : α → τ → Prop}

theorem empty : All (Line.empty : Line α τ) law := by
  simp [All, entries, Line.empty]

theorem push (all : line.All law) {stamp : τ} {items : List α}
    (lawful : ∀ item ∈ items, law item stamp) : (line.push stamp items).All law := by
  intro entry member
  rw [entries_push] at member
  rcases mem_append.mp member with prior | last
  · exact all entry prior
  · grind

theorem keep (all : line.All law) (test : α → Bool) : (line.keep test).All law :=
  fun entry member => all entry ((line.entries_keep_sublist test).subset member)

/-- A split whose parts inherit the law keeps it. -/
theorem hand (all : line.All law) {split : α → α × Option α}
    (inherits : ∀ item stamp, law item stamp →
      ∀ part ∈ (split item).1 :: (split item).2.toList, law part stamp) :
    (line.hand split).All law := by
  cases first : line.waiting with
  | nil => grind [Line.hand]
  | cons entry later =>
    obtain ⟨item, stamp⟩ := entry
    have inside (other : α × τ) (member : other ∈ line.waiting) : law other.1 other.2 :=
      all other (mem_append_right _ member)
    intro other member
    rw [entries_hand first] at member
    rcases mem_append.mp member with before | after
    · rcases mem_append.mp before with old | part
      · exact all other (mem_append_left _ old)
      · obtain ⟨piece, among, rfl⟩ := mem_map.mp part
        exact inherits item stamp (inside (item, stamp) (by simp [first])) piece among
    · exact inside other (by simp [first, after])

end All

section Order

variable [Preorder τ] {now : τ}

/-- Stamps never decrease along the entries, and none is ahead of the present. -/
structure Ordered (line : Line α τ) (now : τ) : Prop where
  rising : line.entries.Pairwise fun first second => first.2 ≤ second.2
  past : ∀ entry ∈ line.entries, entry.2 ≤ now

namespace Ordered

theorem empty (now : τ) : Ordered (Line.empty : Line α τ) now :=
  ⟨List.Pairwise.nil, by simp [entries, Line.empty]⟩

variable (ordered : line.Ordered now)
include ordered

theorem push {stamp : τ} (later : now ≤ stamp) (items : List α) :
    (line.push stamp items).Ordered stamp := by
  constructor
  · rw [entries_push, pairwise_append]
    refine ⟨ordered.rising, ?_, ?_⟩
    · rw [pairwise_map]
      exact pairwise_of_forall fun _ _ => le_refl stamp
    · have past := ordered.past
      grind
  · have past := ordered.past
    grind [entries_push]

theorem keep (test : α → Bool) : (line.keep test).Ordered now :=
  ⟨ordered.rising.sublist (line.entries_keep_sublist test),
    fun entry member => ordered.past entry ((line.entries_keep_sublist test).subset member)⟩

/-- The parts of an entry share its stamp. -/
theorem hand (split : α → α × Option α) : (line.hand split).Ordered now := by
  have past : line.All fun _ stamp => stamp ≤ now := ordered.past
  refine ⟨?_, past.hand fun _ _ before _ _ => before⟩
  cases first : line.waiting with
  | nil =>
    have same : line.hand split = line := by simp [Line.hand, first]
    rw [same]
    exact ordered.rising
  | cons entry later =>
    obtain ⟨item, stamp⟩ := entry
    have rising := ordered.rising
    rw [entries, first, pairwise_append, pairwise_cons] at rising
    obtain ⟨old, ⟨ahead, rest⟩, between⟩ := rising
    rw [entries_hand first, append_assoc, pairwise_append, pairwise_append]
    refine ⟨old, ⟨?_, rest, ?_⟩, ?_⟩
    · rw [pairwise_map]
      exact pairwise_of_forall fun _ _ => le_refl stamp
    · grind
    intro prior before other member
    rcases mem_append.mp member with part | after
    · obtain ⟨piece, _, rfl⟩ := mem_map.mp part
      exact between prior before (item, stamp) (mem_cons_self ..)
    · grind

end Ordered
end Order

/-- The content of the entries whose stamp is picked, in order. -/
def content (line : Line α τ) (pick : τ → Bool) (bytes : α → List β) : List β :=
  line.entries.flatMap fun entry => if pick entry.2 then bytes entry.1 else []

variable {pick : τ → Bool} {bytes : α → List β}

theorem content_push (line : Line α τ) (stamp : τ) (items : List α) :
    (line.push stamp items).content pick bytes =
      line.content pick bytes ++ if pick stamp then items.flatMap bytes else [] := by
  unfold content
  rw [entries_push, flatMap_append, flatMap_map]
  by_cases picked : pick stamp <;> simp [picked]

/-- A split that loses nothing loses nothing from the queue. -/
theorem content_hand (line : Line α τ) {split : α → α × Option α}
    (whole : ∀ item, ((split item).1 :: (split item).2.toList).flatMap bytes = bytes item) :
    (line.hand split).content pick bytes = line.content pick bytes := by
  cases first : line.waiting with
  | nil => simp [Line.hand, first]
  | cons entry later =>
    obtain ⟨item, stamp⟩ := entry
    have parts := whole item
    unfold content
    rw [entries_hand first, entries, first, flatMap_append, flatMap_append,
      flatMap_append, flatMap_cons, flatMap_map, append_assoc]
    by_cases picked : pick stamp
    · simp only [picked, if_true]
      rw [parts]
    · simp [picked]

/-- Where no entry is picked there is no content. -/
theorem content_eq_nil (none : ∀ entry ∈ line.entries, pick entry.2 = false) :
    line.content pick bytes = [] := by
  apply flatMap_eq_nil_iff.mpr
  intro entry member
  rw [none entry member]
  rfl

end Line
end Lighter.Stamped
