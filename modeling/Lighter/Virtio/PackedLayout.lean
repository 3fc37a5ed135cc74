import Lighter.Virtio.PackedTake

/-!
# How a packed ring stores a mailbox

The mailbox's letters are the chains offered. Four places divide the ring: the slots
reclaimed by the driver, the slots completed, the slots taken and the slots published,
each no further than the next and all within one ring. Between the completed and the
published the slots hold the entries of the chains; between the reclaimed and the
completed each chain completed has left one used entry, and every other slot still
carries the lap it was published in; from the published on the slots carry the lap
before. Every question either side asks of the flags is answered by this.
-/

namespace Lighter.Virtio.Packed

open Lap List

/-- The slots of several chains. -/
def slotsOf (offers : List Offer) : Nat := (offers.map Offer.slots).sum

@[simp] theorem slotsOf_nil : slotsOf [] = 0 := rfl

@[simp] theorem slotsOf_cons (offer : Offer) (rest : List Offer) :
    slotsOf (offer :: rest) = offer.slots + slotsOf rest := rfl

@[simp] theorem slotsOf_append (first second : List Offer) :
    slotsOf (first ++ second) = slotsOf first + slotsOf second := by
  simp [slotsOf]

theorem slotsOf_perm {first second : List Offer} (perm : first.Perm second) :
    slotsOf first = slotsOf second := (perm.map Offer.slots).sum_eq

theorem slotsOf_take_le (offers : List Offer) (count : Nat) :
    slotsOf (offers.take count) ≤ slotsOf offers := by
  have split : slotsOf (offers.take count ++ offers.drop count) = slotsOf offers := by
    rw [take_append_drop]
  rw [slotsOf_append] at split
  omega

variable {offers : List Offer}

theorem slotsOf_take_succ {index : Nat} {offer : Offer} (found : offers[index]? = some offer) :
    slotsOf (offers.take (index + 1)) = slotsOf (offers.take index) + offer.slots := by
  rw [take_add_one, found]
  simp

/-- Every slot of several chains is a slot of one of them. -/
theorem exists_slot {place : Nat} (inside : place < slotsOf offers) :
    ∃ index offer step desc, offers[index]? = some offer ∧ offer.entries[step]? = some desc ∧
      place = slotsOf (offers.take index) + step := by
  induction offers generalizing place with
  | nil => exact absurd inside (Nat.not_lt_zero place)
  | cons first rest ih =>
    by_cases here : place < first.slots
    · exact ⟨0, first, place, first.entries[place], rfl, getElem?_eq_getElem here, by simp⟩
    obtain ⟨index, offer, step, desc, found, entry, same⟩ :=
      ih (show place - first.slots < slotsOf rest by rw [slotsOf_cons] at inside; omega)
    refine ⟨index + 1, offer, step, desc, found, entry, ?_⟩
    rw [take_succ_cons, slotsOf_cons]
    omega

theorem slot_below {index step : Nat} {offer : Offer} {desc : PackedDesc}
    (found : offers[index]? = some offer) (entry : offer.entries[step]? = some desc) :
    slotsOf (offers.take index) + step < slotsOf offers := by
  have inside : step < offer.slots := (List.getElem?_eq_some_iff.mp entry).1
  have grown := slotsOf_take_succ found
  have whole := slotsOf_take_le offers (index + 1)
  omega

abbrev Box := Mailbox Offer UInt32

namespace Box

/-- Slots published, taken, completed and reclaimed since the beginning. -/
def published (box : Box) : Nat := slotsOf box.posted

def popped (box : Box) : Nat := slotsOf (box.posted.take box.taken)

def completed (box : Box) : Nat := slotsOf (box.answered.map Prod.fst)

def reclaimed (box : Box) : Nat := slotsOf ((box.answered.map Prod.fst).take box.collected)

theorem reclaimed_le (box : Box) : reclaimed box ≤ completed box := slotsOf_take_le _ _

theorem completed_add_owed {box : Box} (sound : box.Sound) :
    completed box + slotsOf box.owed = popped box := by
  rw [completed, ← slotsOf_append]
  exact slotsOf_perm sound.owes

/-- A completion reclaims nothing. -/
theorem reclaimed_answer {box : Box} (sound : box.Sound) (owed : List Offer) (offer : Offer)
    (len : UInt32) :
    reclaimed { box with owed := owed, answered := box.answered ++ [(offer, len)] } =
      reclaimed box := by
  have bound : box.collected ≤ (box.answered.map Prod.fst).length := by
    simpa using sound.collected
  simp only [reclaimed, map_append]
  rw [take_append_of_le_length bound]

theorem counts {box : Box} (sound : box.Sound) : reclaimed box ≤ completed box ∧
    completed box + slotsOf box.owed = popped box ∧ popped box ≤ published box :=
  ⟨reclaimed_le box, completed_add_owed sound, slotsOf_take_le _ _⟩

end Box

open Box

/-- The ring's slots, as the mailbox has them. -/
structure Laid (size : Nat) (cell : Nat → PackedDesc) (box : Box) : Prop where
  again : ∀ place, cell (place + size) = cell place
  proper : ∀ offer ∈ box.posted ++ box.draft, offer.Proper size
  lapped : ∀ (index : Nat) (offer : Offer), box.posted[index]? = some offer →
    offer.Lapped size (slotsOf (box.posted.take index))
  draftLapped : ∀ offer : Offer, box.draft = [offer] → offer.Lapped size (published box)
  room : published box + slotsOf box.draft ≤ reclaimed box + size
  /-- A chain not yet overwritten by completions is there. -/
  waiting : ∀ (index : Nat) (offer : Offer) (step : Nat) (desc : PackedDesc),
    box.posted[index]? = some offer →
    offer.entries[step]? = some desc →
    completed box ≤ slotsOf (box.posted.take index) + step →
    cell (slotsOf (box.posted.take index) + step) = desc
  /-- What is completed and not reclaimed still has the lap of its availability. -/
  passed : ∀ place, reclaimed box ≤ place → place < completed box →
    availBit (cell place).flags = lap size place
  /-- An answer is at the place where the completions had come to. -/
  written : ∀ (index : Nat) (answer : Offer × UInt32), box.collected ≤ index →
    box.answered[index]? = some answer →
    ∃ addr, cell (slotsOf ((box.answered.map Prod.fst).take index)) =
      ⟨addr, answer.2, answer.1.id,
        usedFlags (lap size (slotsOf ((box.answered.map Prod.fst).take index)))⟩
  /-- A free slot has the lap before, the first of the chain being written too. -/
  stale : ∀ place, published box ≤ place → place < reclaimed box + size →
    place = published box ∨ published box + slotsOf box.draft ≤ place →
    availBit (cell place).flags ≠ lap size place
  /-- The chain being written is there but for the flags of its first entry. -/
  drafted : ∀ (offer : Offer) (step : Nat) (desc : PackedDesc), box.draft = [offer] →
    offer.entries[step]? = some desc →
    cell (published box + step) =
      if step = 0 then { desc with flags := (cell (published box)).flags } else desc

namespace Laid

variable {size : Nat} {cell after : Nat → PackedDesc} {box : Box} {offer : Offer}

/-- An answer that waits is between the reclaimed and the completed. -/
theorem answer_place (laid : Laid size cell box) (sound : box.Sound) {index : Nat}
    {answer : Offer × UInt32} (low : box.collected ≤ index)
    (found : box.answered[index]? = some answer) :
    reclaimed box ≤ slotsOf ((box.answered.map Prod.fst).take index) ∧
      slotsOf ((box.answered.map Prod.fst).take index) + answer.1.slots ≤ completed box ∧
      0 < answer.1.slots := by
  have named : (box.answered.map Prod.fst)[index]? = some answer.1 := by
    rw [getElem?_map, found]
    rfl
  have grown := slotsOf_take_succ named
  have whole := slotsOf_take_le (box.answered.map Prod.fst) (index + 1)
  have split : (box.answered.map Prod.fst).take box.collected =
      ((box.answered.map Prod.fst).take index).take box.collected := by
    rw [take_take, Nat.min_eq_left low]
  have posted : answer.1 ∈ box.posted :=
    sound.mem_posted (mem_append_left _ (mem_of_getElem? named))
  refine ⟨?_, ?_, (laid.proper _ (mem_append_left _ posted)).filled⟩
  · rw [reclaimed, split]
    exact slotsOf_take_le _ _
  · rw [completed]
    omega

section Same

variable (laid : Laid size cell box) (sound : box.Sound)
  (same : ∀ place, reclaimed box ≤ place → place < published box → after place = cell place)

include laid same

theorem waiting_of_same : ∀ (index : Nat) (offer : Offer) (step : Nat) (desc : PackedDesc),
    box.posted[index]? = some offer → offer.entries[step]? = some desc →
    completed box ≤ slotsOf (box.posted.take index) + step →
    after (slotsOf (box.posted.take index) + step) = desc := by
  intro index offer step desc found entry low
  rw [same _ (le_trans (reclaimed_le box) low) (slot_below found entry)]
  exact laid.waiting index offer step desc found entry low

include sound

theorem passed_of_same : ∀ place, reclaimed box ≤ place → place < completed box →
    availBit (after place).flags = lap size place := by
  intro place low high
  obtain ⟨_, second, third⟩ := counts sound
  rw [same place low (by omega)]
  exact laid.passed place low high

theorem written_of_same : ∀ (index : Nat) (answer : Offer × UInt32), box.collected ≤ index →
    box.answered[index]? = some answer →
    ∃ addr, after (slotsOf ((box.answered.map Prod.fst).take index)) =
      ⟨addr, answer.2, answer.1.id,
        usedFlags (lap size (slotsOf ((box.answered.map Prod.fst).take index)))⟩ := by
  intro index answer low found
  obtain ⟨_, second, third⟩ := counts sound
  obtain ⟨start, fits, filled⟩ := answer_place laid sound low found
  obtain ⟨addr, held⟩ := laid.written index answer low found
  exact ⟨addr, (same _ start (by omega)).trans held⟩

end Same

section

variable (laid : Laid size cell box) (sound : box.Sound)
include laid sound

/-- A chain is written into free slots. -/
theorem prepare (blank : box.draft = [])
    (proper : offer.Proper size) (lapped : offer.Lapped size (published box))
    (room : published box + offer.slots ≤ reclaimed box + size)
    (also : ∀ place, after (place + size) = after place)
    (put : ∀ place, published box ≤ place → place < published box + size →
      after place = match offer.entries[place - published box]? with
        | none => cell place
        | some desc =>
            if place = published box then { desc with flags := (cell (published box)).flags }
            else desc) :
    Laid size after { box with draft := box.draft ++ [offer] } := by
  obtain ⟨first, second, third⟩ := counts sound
  have filled := proper.filled
  have beyond : ∀ place, published box + offer.slots ≤ place → place < published box + size →
      after place = cell place := by
    intro place low high
    have past : offer.entries[place - published box]? = none := by
      apply getElem?_eq_none
      change offer.slots ≤ _
      omega
    rw [put place (by omega) high, past]
  have behind : ∀ place, reclaimed box ≤ place → place < published box →
      after place = cell place := by
    have again := laid.again
    grind
  have head : (after (published box)).flags = (cell (published box)).flags := by grind
  have waiting := waiting_of_same laid behind
  have passed := passed_of_same laid sound behind
  have written := written_of_same laid sound behind
  constructor
  · exact also
  · have proper := laid.proper
    grind
  · exact laid.lapped
  · intro other alone
    have only : offer = other := by simpa [blank] using alone
    rw [← only]
    exact lapped
  · rw [blank]
    change published box + slotsOf [offer] ≤ reclaimed box + size
    simpa using room
  · exact waiting
  · exact passed
  · exact written
  · intro place low high free
    rcases free with start | rest
    · rw [start]
      change availBit (after (published box)).flags ≠ _
      rw [head]
      exact laid.stale _ (Nat.le_refl _) (by omega) (Or.inl rfl)
    rw [blank] at rest
    change published box + slotsOf [offer] ≤ place at rest
    have past : published box + offer.slots ≤ place := by simpa using rest
    have ends : place < reclaimed box + size := high
    have free : published box + slotsOf box.draft ≤ place := by
      rw [blank]
      exact low
    rw [beyond place past (by omega)]
    exact laid.stale place low high (Or.inr free)
  · intro other step desc alone entry
    have only : offer = other := by simpa [blank] using alone
    subst only
    have inside : step < offer.slots := (List.getElem?_eq_some_iff.mp entry).1
    change after (published box + step) =
      if step = 0 then { desc with flags := (after (published box)).flags } else desc
    rw [put _ (Nat.le_add_right _ _) (by omega), Nat.add_sub_cancel_left, entry, head]
    simp

/-- The flags of its first entry make a chain available, whole. -/
theorem publish (drafted : box.draft = [offer]) {head : PackedDesc} {rest : List PackedDesc}
    (shape : offer.entries = head :: rest) (also : ∀ place, after (place + size) = after place)
    (put : ∀ place, published box ≤ place → place < published box + size →
      after place =
        if place = published box then { cell (published box) with flags := head.flags }
        else cell place) :
    Laid size after box.post := by
  obtain ⟨first, second, third⟩ := counts sound
  have room : published box + offer.slots ≤ reclaimed box + size := by
    simpa [drafted] using laid.room
  have filled : 0 < offer.slots := by simp [Offer.slots, shape]
  have beyond : ∀ place, published box < place → place < published box + size →
      after place = cell place := by grind
  have behind : ∀ place, reclaimed box ≤ place → place < published box →
      after place = cell place := by
    have again := laid.again
    grind
  have posted : box.post.posted = box.posted ++ [offer] := by simp [Mailbox.post, drafted]
  have grown : published box.post = published box + offer.slots := by
    simp [published, posted]
  have waiting := waiting_of_same laid behind
  have passed := passed_of_same laid sound behind
  have written := written_of_same laid sound behind
  -- The entries of the chain, now with the flags of the first.
  have fresh : ∀ step desc, offer.entries[step]? = some desc →
      after (published box + step) = desc := by
    intro step desc entry
    have inside : step < offer.slots := (List.getElem?_eq_some_iff.mp entry).1
    have held := laid.drafted offer step desc drafted entry
    rw [put _ (Nat.le_add_right _ _) (by omega)]
    cases step with
    | zero =>
      have only : head = desc := by
        rw [shape] at entry
        exact Option.some.inj entry
      subst only
      have body : cell (published box) = { head with flags := (cell (published box)).flags } := by
        simpa using held
      rw [Nat.add_zero, if_pos rfl, body]
    | succ step =>
      rw [if_neg (by omega), held, if_neg (Nat.succ_ne_zero step)]
  -- A chain posted before, or this one.
  have split : ∀ (index : Nat) (other : Offer), box.post.posted[index]? = some other →
      (box.posted[index]? = some other ∧
        slotsOf (box.post.posted.take index) = slotsOf (box.posted.take index)) ∨
      (other = offer ∧ slotsOf (box.post.posted.take index) = published box) := by
    intro index other found
    rw [posted] at found ⊢
    rcases Nat.lt_or_ge index box.posted.length with old | new
    · grind
    right
    rw [getElem?_append_right new] at found
    have last : index - box.posted.length = 0 := by grind
    rw [last] at found
    have same : index = box.posted.length := by omega
    refine ⟨(Option.some.inj found).symm, ?_⟩
    rw [same, take_append_of_le_length (Nat.le_refl _), take_length, published]
  constructor
  · exact also
  · intro other mem
    have listed : other ∈ box.posted ++ box.draft := by
      simpa [Mailbox.post] using mem
    exact laid.proper other listed
  · have lapped := laid.lapped
    have draftLapped := laid.draftLapped
    grind
  · intro other never
    cases never
  · rw [grown]
    exact room
  · intro index other step desc found entry low
    rcases split index other found with ⟨old, place⟩ | ⟨rfl, place⟩
    · rw [place] at low ⊢
      exact waiting index other step desc old entry low
    · rw [place]
      exact fresh step desc entry
  · exact passed
  · exact written
  · intro place low high free
    rw [grown] at low
    have ends : place < reclaimed box + size := high
    rw [beyond place (by omega) (by omega)]
    exact laid.stale place (by omega) high (Or.inr (by rw [drafted]; simpa using low))
  · intro other step desc never
    cases never

/-- A used entry takes the place of what was first of the slots not completed. -/
theorem answer (name : UInt16) (len : UInt32)
    (found : box.owed.find? (fun letter => letter.id = name) = some offer)
    (also : ∀ place, after (place + size) = after place) {addr : Nat}
    (put : ∀ place, completed box ≤ place → place < completed box + size →
      after place =
        if place = completed box then
          ⟨addr, len, name, usedFlags (lap size (completed box))⟩
        else cell place) :
    Laid size after { box with
      owed := box.owed.eraseP fun letter => letter.id = name
      answered := box.answered ++ [(offer, len)] } := by
  obtain ⟨first, second, third⟩ := counts sound
  have room := laid.room
  have owed : offer ∈ box.owed := mem_of_find?_eq_some found
  have known : offer.id = name := by simpa using find?_some found
  have posted : offer ∈ box.posted := sound.mem_posted (mem_append_right _ owed)
  have filled : 0 < offer.slots := (laid.proper _ (mem_append_left _ posted)).filled
  have part : offer.slots ≤ slotsOf box.owed := by
    have split := slotsOf_perm (Mailbox.found_erased Offer.id name found)
    rw [slotsOf_cons] at split
    omega
  have beyond : ∀ place, completed box < place → place < completed box + size →
      after place = cell place := by grind
  have behind : ∀ place, reclaimed box ≤ place → place < completed box →
      after place = cell place := by
    have again := laid.again
    grind
  have here : after (completed box) = ⟨addr, len, name, usedFlags (lap size (completed box))⟩ := by
    rw [put _ (Nat.le_refl _) (by omega), if_pos rfl]
  have grown : completed { box with
      owed := box.owed.eraseP fun letter => letter.id = name
      answered := box.answered ++ [(offer, len)] } = completed box + offer.slots := by
    simp [completed]
  have still : reclaimed { box with
      owed := box.owed.eraseP fun letter => letter.id = name
      answered := box.answered ++ [(offer, len)] } = reclaimed box :=
    reclaimed_answer sound _ offer len
  constructor
  · exact also
  · exact laid.proper
  · exact laid.lapped
  · exact laid.draftLapped
  · rw [still]
    exact room
  · intro index other step desc there entry low
    rw [grown] at low
    have start : completed box + offer.slots ≤ slotsOf (box.posted.take index) + step := low
    have below : slotsOf (box.posted.take index) + step < published box := slot_below there entry
    have moved : after (slotsOf (box.posted.take index) + step) =
        cell (slotsOf (box.posted.take index) + step) := beyond _ (by omega) (by omega)
    exact moved.trans (laid.waiting index other step desc there entry (by omega))
  · intro place low high
    rw [still] at low
    rw [grown] at high
    rcases Nat.lt_trichotomy place (completed box) with before | same | later
    · rw [behind place low before]
      exact laid.passed place low before
    · subst same
      rw [here]
      exact availBit_usedFlags _
    -- A slot of a chain that was taken: it still has the entry published there.
    have inside : place < slotsOf box.posted := by
      have bound : slotsOf box.posted = published box := rfl
      omega
    obtain ⟨index, other, step, desc, there, entry, rfl⟩ := exists_slot inside
    rw [beyond _ later (by
      have bound : slotsOf box.posted = published box := rfl
      omega), laid.waiting index other step desc there entry later.le]
    exact (laid.lapped index other there step desc entry).1
  · intro index answer low there
    rcases Nat.lt_or_ge index box.answered.length with old | new
    · rw [getElem?_append_left old] at there
      have place : ((box.answered ++ [(offer, len)]).map Prod.fst).take index =
          (box.answered.map Prod.fst).take index := by grind
      obtain ⟨start, fits, some⟩ := answer_place laid sound low there
      obtain ⟨held, same⟩ := laid.written index answer low there
      refine ⟨held, ?_⟩
      rw [place, behind _ start (by omega)]
      exact same
    · rw [getElem?_append_right new] at there
      have last : index - box.answered.length = 0 := by grind
      rw [last] at there
      have only : (offer, len) = answer := Option.some.inj there
      have place : ((box.answered ++ [(offer, len)]).map Prod.fst).take index =
          box.answered.map Prod.fst := by grind
      refine ⟨addr, ?_⟩
      rw [place, ← only, known]
      exact here
  · intro place low high free
    rw [still] at high
    have start : published box ≤ place := low
    rw [beyond place (by omega) (by omega)]
    exact laid.stale place low high free
  · intro other step desc drafted entry
    have inside : step < other.slots := (List.getElem?_eq_some_iff.mp entry).1
    have fits : published box + other.slots ≤ reclaimed box + size := by
      simpa [show box.draft = [other] from drafted] using room
    change after (published box + step) =
      if step = 0 then { desc with flags := (after (published box)).flags } else desc
    rw [beyond (published box + step) (by omega) (by omega),
      beyond (published box) (by omega) (by omega)]
    exact laid.drafted other step desc drafted entry

/-- Reclaiming frees slots whose lap is the one before for those who come next. -/
theorem collect (positive : 0 < size)
    {answer : Offer × UInt32} (next : box.answered[box.collected]? = some answer) :
    Laid size cell { box with collected := box.collected + 1 } := by
  obtain ⟨_, fits, filled⟩ := answer_place laid sound (Nat.le_refl _) next
  have room := laid.room
  obtain ⟨_, second, _⟩ := counts sound
  have grown : reclaimed { box with collected := box.collected + 1 } =
      reclaimed box + answer.1.slots := by
    apply slotsOf_take_succ
    rw [getElem?_map, next]
    rfl
  constructor
  · exact laid.again
  · exact laid.proper
  · exact laid.lapped
  · exact laid.draftLapped
  · rw [grown]
    exact le_trans room (by omega)
  · exact laid.waiting
  · intro place low high
    rw [grown] at low
    exact laid.passed place (by omega) high
  · intro index other low found
    exact laid.written index other (Nat.le_of_succ_le low) found
  · intro place low high free
    rw [grown] at high
    rcases Nat.lt_or_ge place (reclaimed box + size) with before | freed
    · exact laid.stale place low before free
    obtain ⟨prior, rfl⟩ : ∃ prior, place = prior + size := ⟨place - size, by omega⟩
    have origin : slotsOf ((box.answered.map Prod.fst).take box.collected) = reclaimed box := rfl
    rw [laid.again, lap_add_size positive, laid.passed prior (by omega) (by omega)]
    simp
  · exact laid.drafted

end

variable (laid : Laid size cell box)
include laid

/-- A slot published and not reclaimed has the lap of its availability. -/
theorem avail_live {place : Nat} (low : reclaimed box ≤ place)
    (high : place < published box) : availBit (cell place).flags = lap size place := by
  rcases Nat.lt_or_ge place (completed box) with done | kept
  · exact laid.passed place low done
  · obtain ⟨index, offer, step, desc, found, entry, rfl⟩ := exists_slot high
    rw [laid.waiting index offer step desc found entry kept]
    exact (laid.lapped index offer found step desc entry).1

/-- The slot where the next chain will begin does not look available. On a full ring it
is the first one not reclaimed, whose lap is the other one. -/
theorem unpublished (positive : 0 < size) :
    availBit (cell (published box)).flags ≠ lap size (published box) := by
  have room := laid.room
  rcases Nat.lt_or_ge (published box) (reclaimed box + size) with free | full
  · exact laid.stale _ (Nat.le_refl _) free (Or.inl rfl)
  have whole : published box = reclaimed box + size := by omega
  rw [whole, laid.again, lap_add_size positive, laid.avail_live (Nat.le_refl _) (by omega)]
  simp

/-- With every completion reclaimed the next slot does not look used. -/
theorem unanswered (sound : box.Sound) (positive : 0 < size) (all : reclaimed box = completed box) :
    ¬ (availBit (cell (reclaimed box)).flags = lap size (reclaimed box) ∧
      usedBit (cell (reclaimed box)).flags = lap size (reclaimed box)) := by
  obtain ⟨_, second, third⟩ := counts sound
  rintro ⟨avail, used⟩
  rcases Nat.lt_or_ge (reclaimed box) (published box) with kept | idle
  · obtain ⟨index, offer, step, desc, found, entry, place⟩ := exists_slot kept
    have held := laid.waiting index offer step desc found entry (by omega)
    have lapped := (laid.lapped index offer found step desc entry).2
    rw [← place] at held lapped
    rw [held, lapped] at used
    simp at used
  · have unpublished := laid.unpublished
    grind

/-- Taking moves nothing in the ring. -/
theorem take (parts : List Nat) (taken : Nat) (owed : List Offer) :
    Laid size cell { box with taken := taken, parts := parts, owed := owed } :=
  { laid with }

end Laid
end Lighter.Virtio.Packed
