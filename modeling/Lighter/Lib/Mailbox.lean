import Mathlib.Data.List.Perm.Basic

/-!
# An exactly-once mailbox

Letters are written and posted by one party and taken by another in the order they
were posted, each once. A letter taken is read part by part. The taker answers the
letters it has taken in any order, each once, by key, and the first party collects
the answers in the order they were given, each once.

Nothing is bounded here: how many letters may be on their way, and which keys may be
used again, is for those who use one.
-/

namespace Lighter

open List

universe u v w x
variable {ω : Type u} {κ : Type v} {δ : Type w} {ρ : Type x}

structure Mailbox (ω : Type u) (ρ : Type x) where
  /-- The letters written and not yet posted. -/
  draft : List ω
  /-- Every letter posted, in order. -/
  posted : List ω
  /-- How many of them were taken. -/
  taken : Nat
  /-- How many parts were read of each letter taken. -/
  parts : List Nat
  /-- The letters taken and not answered. -/
  owed : List ω
  /-- Every letter answered with its answer, in the order of the answers. -/
  answered : List (ω × ρ)
  /-- How many of the answers were collected. -/
  collected : Nat

namespace Mailbox

inductive Event (ω : Type u) (κ : Type v) (ρ : Type x) where
  | write (letter : ω)
  | post
  | take
  | read (index : Nat)
  | answer (key : κ) (reply : ρ)
  | collect
  | idle

inductive Reply (κ : Type v) (δ : Type w) (ρ : Type x) where
  | silent
  | took (key : Option κ)
  | part (part : Option δ)
  | collected (answer : Option (κ × ρ))

def empty : Mailbox ω ρ := ⟨[], [], 0, [], [], [], 0⟩

/-- The letters written are out. -/
def post (box : Mailbox ω ρ) : Mailbox ω ρ :=
  { box with draft := [], posted := box.posted ++ box.draft }

/-- The first letter not yet taken. -/
def take (box : Mailbox ω ρ) : Mailbox ω ρ × Option ω :=
  match box.posted[box.taken]? with
  | none => (box, none)
  | some letter =>
      ({ box with
        taken := box.taken + 1
        parts := box.parts ++ [0]
        owed := box.owed ++ [letter] }, some letter)

/-- The next part of a letter taken, if it has one left. -/
def read (parts : ω → List δ) (box : Mailbox ω ρ) (index : Nat) : Mailbox ω ρ × Option δ :=
  match box.posted[index]?, box.parts[index]? with
  | some letter, some done =>
      match (parts letter)[done]? with
      | none => (box, none)
      | some part => ({ box with parts := box.parts.set index (done + 1) }, some part)
  | _, _ => (box, none)

variable [DecidableEq κ]

/-- An answer to a letter that is owed one; another is not taken. -/
def answer (key : ω → κ) (box : Mailbox ω ρ) (name : κ) (reply : ρ) : Mailbox ω ρ :=
  match box.owed.find? fun letter => key letter = name with
  | none => box
  | some letter =>
      { box with
        owed := box.owed.eraseP fun letter => key letter = name
        answered := box.answered ++ [(letter, reply)] }

/-- The first answer not yet collected. -/
def collect (box : Mailbox ω ρ) : Mailbox ω ρ × Option (ω × ρ) :=
  match box.answered[box.collected]? with
  | none => (box, none)
  | some answer => ({ box with collected := box.collected + 1 }, some answer)

def step (key : ω → κ) (parts : ω → List δ) (box : Mailbox ω ρ) :
    Event ω κ ρ → Mailbox ω ρ × Reply κ δ ρ
  | .write letter => ({ box with draft := box.draft ++ [letter] }, .silent)
  | .post => (box.post, .silent)
  | .take => let (box, letter) := box.take; (box, .took (letter.map key))
  | .read index => let (box, part) := box.read parts index; (box, .part part)
  | .answer name reply => (box.answer key name reply, .silent)
  | .collect =>
      let (box, answer) := box.collect
      (box, .collected (answer.map fun answer => (key answer.1, answer.2)))
  | .idle => (box, .silent)

/-- Every letter written whose answer has not been collected. -/
def pending (box : Mailbox ω ρ) : List ω :=
  (box.answered.drop box.collected).map Prod.fst ++ box.owed ++ box.posted.drop box.taken ++
    box.draft

/-- A letter taken is answered or owed an answer, and the counts stay inside their
lists. -/
structure Sound (box : Mailbox ω ρ) : Prop where
  taken : box.taken ≤ box.posted.length
  parts : box.parts.length = box.taken
  collected : box.collected ≤ box.answered.length
  owes : (box.answered.map Prod.fst ++ box.owed).Perm (box.posted.take box.taken)

theorem sound_empty : (empty : Mailbox ω ρ).Sound :=
  ⟨Nat.le_refl 0, rfl, Nat.le_refl 0, Perm.refl []⟩

/-- What `find?` by a key gives is what `eraseP` by it takes out. -/
theorem found_erased (key : ω → κ) (name : κ) {letters : List ω} {letter : ω}
    (found : letters.find? (fun letter => key letter = name) = some letter) :
    letters.Perm (letter :: letters.eraseP fun letter => key letter = name) := by
  induction letters with
  | nil => simp at found
  | cons first rest ih =>
    by_cases same : key first = name
    · simp only [same, decide_true, find?_cons_of_pos, Option.some.injEq] at found
      subst found
      simp [same]
    · simp only [same, decide_false, Bool.false_eq_true, not_false_eq_true,
        find?_cons_of_neg] at found
      rw [eraseP_cons_of_neg (by simpa using same)]
      exact ((ih found).cons first).trans (Perm.swap letter first _)

/-- With distinct keys a letter is found by its own. -/
theorem find_key (key : ω → κ) {letters : List ω} {letter : ω}
    (distinct : (letters.map key).Nodup) (mem : letter ∈ letters) :
    letters.find? (fun other => key other = key letter) = some letter := by
  induction letters with
  | nil => cases mem
  | cons first rest ih => grind

namespace Sound

variable {box : Mailbox ω ρ} {letter : ω} (sound : box.Sound)
include sound

theorem write (letter : ω) : { box with draft := box.draft ++ [letter] }.Sound :=
  { sound with }

theorem post : box.post.Sound where
  taken := by
    have bound := sound.taken
    simp only [Mailbox.post, length_append]
    omega
  parts := sound.parts
  collected := sound.collected
  owes := by
    have same : (box.posted ++ box.draft).take box.taken = box.posted.take box.taken :=
      take_append_of_le_length sound.taken
    simpa only [Mailbox.post, same] using sound.owes

theorem take (next : box.posted[box.taken]? = some letter) :
    Sound { box with
      taken := box.taken + 1
      parts := box.parts ++ [0]
      owed := box.owed ++ [letter] } where
  taken := (List.getElem?_eq_some_iff.mp next).1
  parts := by simp [sound.parts]
  collected := sound.collected
  owes := by
    have grown : box.posted.take (box.taken + 1) = box.posted.take box.taken ++ [letter] := by
      rw [take_add_one, next]
      rfl
    rw [grown, ← append_assoc]
    exact sound.owes.append_right [letter]

theorem read (index done : Nat) :
    Sound { box with parts := box.parts.set index done } :=
  ⟨sound.taken, by simpa using sound.parts, sound.collected, sound.owes⟩

theorem answer (key : ω → κ) (name : κ) (reply : ρ)
    (found : box.owed.find? (fun letter => key letter = name) = some letter) :
    Sound { box with
      owed := box.owed.eraseP fun letter => key letter = name
      answered := box.answered ++ [(letter, reply)] } where
  taken := sound.taken
  parts := sound.parts
  collected := by
    have bound := sound.collected
    simp only [length_append]
    omega
  owes := by
    have moved := (found_erased key name found).append_left (box.answered.map Prod.fst)
    simp only [map_append, map_cons, map_nil, append_assoc, singleton_append]
    exact moved.symm.trans sound.owes

theorem collect {answer : ω × ρ} (next : box.answered[box.collected]? = some answer) :
    Sound { box with collected := box.collected + 1 } :=
  ⟨sound.taken, sound.parts, (List.getElem?_eq_some_iff.mp next).1, sound.owes⟩

/-- A letter taken is answered or owed; one of the two it is among those posted. -/
theorem mem_posted (mem : letter ∈ box.answered.map Prod.fst ++ box.owed) :
    letter ∈ box.posted :=
  mem_of_mem_take (sound.owes.mem_iff.mp mem)

theorem length_owed : box.answered.length + box.owed.length = box.taken := by
  have counted := sound.owes.length_eq
  rw [length_append, length_map, length_take, Nat.min_eq_left sound.taken] at counted
  exact counted

/-- Letters written are those collected and those pending. -/
theorem length_pending :
    box.pending.length + box.collected = box.posted.length + box.draft.length := by
  have owed := sound.length_owed
  have taken := sound.taken
  have collected := sound.collected
  simp only [pending, length_append, length_map, length_drop]
  omega

end Sound

variable {box : Mailbox ω ρ} {letter : ω}

theorem pending_write (box : Mailbox ω ρ) (letter : ω) :
    pending { box with draft := box.draft ++ [letter] } = box.pending ++ [letter] := by
  simp [pending]

theorem pending_post (sound : box.Sound) : box.post.pending = box.pending := by
  simp only [pending, Mailbox.post, append_nil, drop_append_of_le_length sound.taken, append_assoc]

theorem pending_take (next : box.posted[box.taken]? = some letter) :
    pending { box with
      taken := box.taken + 1
      parts := box.parts ++ [0]
      owed := box.owed ++ [letter] } = box.pending := by
  obtain ⟨below, rfl⟩ := List.getElem?_eq_some_iff.mp next
  simp [pending]

theorem pending_answer (sound : box.Sound) (key : ω → κ) (name : κ) (reply : ρ)
    (found : box.owed.find? (fun letter => key letter = name) = some letter) :
    (pending { box with
      owed := box.owed.eraseP fun letter => key letter = name
      answered := box.answered ++ [(letter, reply)] }).Perm box.pending := by
  have moved := found_erased key name found
  simp only [pending, drop_append_of_le_length sound.collected, map_append,
    map_cons, map_nil, append_assoc, singleton_append]
  refine Perm.append_left _ ?_
  exact moved.symm.append_right (box.posted.drop box.taken ++ box.draft)

theorem pending_collect {answer : ω × ρ} (next : box.answered[box.collected]? = some answer) :
    box.pending = answer.1 :: pending { box with collected := box.collected + 1 } := by
  obtain ⟨below, rfl⟩ := List.getElem?_eq_some_iff.mp next
  have split := drop_eq_getElem_cons below
  simp only [pending, split, map_cons, cons_append]

end Mailbox
end Lighter
