import Mathlib.Data.List.Induction

/-!
# Laws of a history

A history is the list of what has happened, in order. A law says of each event what must
have happened before it. A history that grows by an event keeps a law exactly when the
event has what it asks for, so a law of every moment is proved one event at a time.
-/

namespace Lighter.History

open List

universe u
variable {ε : Type u}

/-- Each event of the history came after what the law asks for. -/
def Lawful (law : ε → List ε → Prop) (history : List ε) : Prop :=
  ∀ past event rest, history = past ++ event :: rest → law event past

variable {law : ε → List ε → Prop} {history : List ε}

theorem lawful_nil (law : ε → List ε → Prop) : Lawful law [] := by
  intro past event rest split
  cases past <;> cases split

theorem lawful_concat {event : ε} :
    Lawful law (history ++ [event]) ↔ Lawful law history ∧ law event history := by
  constructor
  · intro lawful
    refine ⟨fun past other rest split => ?_, lawful history event [] rfl⟩
    exact lawful past other (rest ++ [event]) (by rw [split, append_assoc, cons_append])
  rintro ⟨lawful, last⟩ past other rest split
  rcases eq_nil_or_concat rest with rfl | ⟨shorter, ending, rfl⟩
  · obtain ⟨rfl, same⟩ := append_inj' split rfl
    cases same
    exact last
  · rw [concat_eq_append, ← cons_append, ← append_assoc] at split
    exact lawful past other shorter (append_inj' split rfl).1

/-- Events the law asks nothing of may be added. -/
theorem Lawful.append (lawful : Lawful law history) {more : List ε}
    (free : ∀ event ∈ more, ∀ past, law event past) : Lawful law (history ++ more) := by
  induction more using reverseRecOn with
  | nil => rwa [append_nil]
  | append_singleton more event ih =>
    rw [← append_assoc, lawful_concat]
    refine ⟨ih fun other there => free other (mem_append_left _ there), ?_⟩
    exact free event (mem_append_right _ (mem_singleton_self event)) _

/-- A law that asks no more of the events there are. -/
theorem Lawful.imp (lawful : Lawful law history) {other : ε → List ε → Prop}
    (weaker : ∀ event ∈ history, ∀ past, law event past → other event past) :
    Lawful other history := by
  intro past event rest split
  refine weaker event ?_ past (lawful past event rest split)
  rw [split]
  exact mem_append_right _ mem_cons_self

end Lighter.History
