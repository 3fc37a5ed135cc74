import Lighter.Virtio.PackedLayout
import Lighter.Virtio.QueueLaws

/-!
# A packed ring is an exactly-once mailbox

The device's cursors, its vectors, the driver's counts and the walks over the chains
popped are each tied to the mailbox, and every action keeps the ties and gives the
mailbox's answer. So over any number of laps a chain published is popped once, in
order, with its own buffers and id, and a completion is read once, in order.
-/

namespace Lighter.Virtio.Packed

open Lap DescriptorChain Box List Mailbox Virtqueue

/-- What the device keeps, as the mailbox has it. -/
structure Ring (base size : Nat) (queue : Virtqueue) (box : Box) : Prop where
  located : queue.descAddr = base
  sized : queue.size.toNat = size
  ready : queue.ready = true
  packed : queue.packed = true
  nextAvail : queue.nextAvail.toNat = popped box % size
  availWrap : queue.availWrap = lap size (popped box)
  nextUsed : queue.nextUsed.toNat = completed box % size
  usedWrap : queue.usedWrap = lap size (completed box)
  /-- A vector is empty until the first chain is taken. -/
  tracked : queue.outstanding = [] ∨ queue.outstanding.length = size
  outstanding : ∀ id : UInt16, queue.outstanding[id.toNat]? = some true ↔
    ∃ offer ∈ box.owed, offer.id = id
  measured : queue.chainLen = [] ∨ queue.chainLen.length = size
  chainLen : ∀ offer ∈ box.owed,
    queue.chainLen[offer.id.toNat]? = some (UInt16.ofNat offer.slots)

/-- What the driver keeps. -/
structure Follows (driver : Driver) (box : Box) : Prop where
  published : driver.published = Box.published box
  reclaimed : driver.reclaimed = Box.reclaimed box
  draft : box.draft = driver.draft.toList
  inUse : driver.inUse.Perm box.pending
  distinct : (box.pending.map Offer.id).Nodup

/-- One chain popped: how far the walk over it is, and that a walk that has not ended
has its chain before it. -/
structure Walking (base size : Nat) (box : Box) (place : Nat) (offer : Offer) (done : Nat)
    (hand : DescriptorChain × Bool) : Prop where
  chain : hand.1 = chainAt base size place offer done
  within : done ≤ offer.descs.length
  ended : hand.2 = true → done = offer.descs.length
  going : hand.2 = false → completed box ≤ place ∧ offer ∈ box.owed

structure Hands (base size : Nat) (hands : List (DescriptorChain × Bool)) (box : Box) :
    Prop where
  length : hands.length = box.taken
  walking : ∀ (index : Nat) (hand : DescriptorChain × Bool) (offer : Offer) (done : Nat),
    hands[index]? = some hand → box.posted[index]? = some offer →
    box.parts[index]? = some done →
    Walking base size box (slotsOf (box.posted.take index)) offer done hand

structure Refines (base size : Nat) (world : World) (box : Box) : Prop where
  sound : box.Sound
  laid : Laid size (cell world.memory base size) box
  backs : Backs world.memory base size
  tabled : ∀ offer ∈ world.driver.inUse, offer.Tabled world.memory base size
  ring : Ring base size world.queue box
  follows : Follows world.driver box
  hands : Hands base size world.hands box

variable {base size : Nat} {world : World} {box next : Box} {offer : Offer}

/-- The mailbox's step at these types. -/
abbrev Box.step (box : Box) (event : Mailbox.Event Offer UInt16 UInt32) :=
  Mailbox.step Offer.id Offer.descs box event

attribute [local simp] Box.step Mailbox.step World.step

/-- A table is read as before when nothing outside the ring has changed. -/
theorem Offer.Tabled.outside {first second : GuestMemory} (tabled : offer.Tabled first base size)
    (same : SameOutside base (size * descSize) first second) : offer.Tabled second base size := by
  intro desc inner indirect
  obtain ⟨backs, apart, holds⟩ := tabled desc inner indirect
  refine ⟨backs.congr same.regions, apart, ?_⟩
  intro index raw found
  have inside : index < inner.length := (List.getElem?_eq_some_iff.mp found).1
  rw [same.entry inside apart]
  exact holds index raw found

namespace Ring

variable {queue : Virtqueue}

/-- The device's ties read four things of the mailbox. -/
theorem congr (ring : Ring base size queue box) (taken : popped next = popped box)
    (answered : completed next = completed box) (owed : next.owed = box.owed) :
    Ring base size queue next := by
  obtain ⟨located, sized, ready, packed, nextAvail, availWrap, nextUsed, usedWrap, tracked,
    outstanding, measured, chainLen⟩ := ring
  constructor <;> simp_all

/-- A cursor moved on by a chain. -/
theorem cursor_add {place slots : Nat} (positive : 0 < size) (small : size ≤ 256) :
    (UInt16.ofNat ((place % size + slots) % size)).toNat = (place + slots) % size := by
  rw [Nat.mod_add_mod]
  apply UInt16.toNat_ofNat_of_lt'
  have inside := Nat.mod_lt (place + slots) positive
  simp only [UInt16.size]
  omega

/-- A chain taken is outstanding under its id with its length. -/
theorem take (ring : Ring base size queue box) (positive : 0 < size) (small : size ≤ 256)
    (proper : offer.Proper size) (found : box.posted[box.taken]? = some offer)
    (fresh : ∀ other ∈ box.owed, other.id ≠ offer.id) (parts : List Nat) :
    Ring base size (taken queue (UInt16.ofNat offer.slots) offer.id)
      { box with taken := box.taken + 1, parts := parts, owed := box.owed ++ [offer] } := by
  have short := proper.short
  have known := proper.id
  have width : (UInt16.ofNat offer.slots).toNat = offer.slots :=
    UInt16.toNat_ofNat_of_lt' (by simp only [UInt16.size]; omega)
  have moved : popped { box with
      taken := box.taken + 1, parts := parts, owed := box.owed ++ [offer] } =
        popped box + offer.slots := slotsOf_take_succ found
  have distinct : ∀ other ∈ box.owed, other.id.toNat ≠ offer.id.toNat := by
    intro other mem same
    exact fresh other mem (UInt16.toNat_inj.mp same)
  -- The vectors, brought to the size of the ring.
  have flags : ∃ flags : List Bool, flags.length = size ∧
      (taken queue (UInt16.ofNat offer.slots) offer.id).outstanding =
        flags.set offer.id.toNat true ∧
      ∀ id : UInt16, flags[id.toNat]? = some true ↔ ∃ other ∈ box.owed, other.id = id := by
    have tracked := ring.tracked
    have sized := ring.sized
    have outstanding := ring.outstanding
    grind [Packed.taken, markTaken, advanceAvail]
  have lengths : ∃ lengths : List UInt16, lengths.length = size ∧
      (taken queue (UInt16.ofNat offer.slots) offer.id).chainLen =
        lengths.set offer.id.toNat (UInt16.ofNat offer.slots) ∧
      ∀ other ∈ box.owed, lengths[other.id.toNat]? = some (UInt16.ofNat other.slots) := by
    have measured := ring.measured
    have sized := ring.sized
    have chainLen := ring.chainLen
    grind [Packed.taken, markTaken, advanceAvail]
  obtain ⟨flags, flagged, outstanding, marks⟩ := flags
  obtain ⟨lengths, listed, chainLen, holds⟩ := lengths
  constructor
  · exact ring.located
  · exact ring.sized
  · exact ring.ready
  · exact ring.packed
  · rw [moved, ← cursor_add positive small, ← ring.nextAvail]
    simp [Packed.taken, markTaken, advanceAvail, width, ring.sized]
  · rw [moved, lap_add positive short, ← ring.nextAvail, ← ring.availWrap]
    simp [Packed.taken, markTaken, advanceAvail, width, ring.sized]
  · exact ring.nextUsed
  · exact ring.usedWrap
  · right
    rw [outstanding, length_set, flagged]
  · intro id
    rw [outstanding, getElem?_set]
    by_cases same : offer.id = id
    · subst same
      simp [flagged, known]
    · have apart : offer.id.toNat ≠ id.toNat := fun equal => same (UInt16.toNat_inj.mp equal)
      rw [if_neg apart, marks id]
      simp [same]
  · right
    rw [chainLen, length_set, listed]
  · grind

/-- A chain returned is no longer outstanding. -/
theorem answer (ring : Ring base size queue box) (positive : 0 < size) (small : size ≤ 256)
    (proper : offer.Proper size) {name : UInt16}
    (found : box.owed.find? (fun letter => letter.id = name) = some offer)
    (distinct : (box.owed.map Offer.id).Nodup) (memory : GuestMemory) (len : UInt32) :
    Ring base size (queue.pushUsed memory name len).1
      { box with
        owed := box.owed.eraseP fun letter => letter.id = name
        answered := box.answered ++ [(offer, len)] } := by
  have owed : offer ∈ box.owed := mem_of_find?_eq_some found
  have known : offer.id = name := by simpa using find?_some found
  subst known
  have short := proper.short
  have filled := proper.filled
  have width : (UInt16.ofNat offer.slots).toNat = offer.slots :=
    UInt16.toNat_ofNat_of_lt' (by simp only [UInt16.size]; omega)
  have marked := (ring.outstanding offer.id).mpr ⟨offer, owed, rfl⟩
  have length : queue.chainLen.getD offer.id.toNat 1 = UInt16.ofNat offer.slots := by
    rw [getD_eq_getElem?_getD, ring.chainLen offer owed]
    rfl
  have steps : max (queue.chainLen.getD offer.id.toNat 1) 1 = UInt16.ofNat offer.slots := by
    rw [length]
    change (if UInt16.ofNat offer.slots ≤ 1 then 1 else UInt16.ofNat offer.slots) = _
    split
    · next single =>
      rw [UInt16.le_iff_toNat_le, width] at single
      rw [show offer.slots = 1 from Nat.le_antisymm single filled]
      rfl
    · rfl
  have pushed : (queue.pushUsed memory offer.id len).1 =
      ({ queue with outstanding := queue.outstanding.set offer.id.toNat false }.pushUsedPacked
        memory offer.id len).1 := by
    simp [Virtqueue.pushUsed, marked, ring.packed]
  have moved : completed { box with
      owed := box.owed.eraseP fun letter => letter.id = offer.id
      answered := box.answered ++ [(offer, len)] } = completed box + offer.slots := by
    simp [completed]
  have split := Mailbox.found_erased Offer.id offer.id found
  have apart : ∀ other ∈ box.owed.eraseP (fun letter => letter.id = offer.id),
      other.id ≠ offer.id := by grind
  rw [pushed]
  constructor
  · exact ring.located
  · exact ring.sized
  · exact ring.ready
  · exact ring.packed
  · exact ring.nextAvail
  · exact ring.availWrap
  · rw [moved, ← cursor_add positive small, ← ring.nextUsed]
    simp only [Virtqueue.pushUsedPacked, steps, width, ring.sized]
  · rw [moved, lap_add positive short, ← ring.nextUsed, ← ring.usedWrap]
    simp only [Virtqueue.pushUsedPacked, steps, width, ring.sized]
  · have tracked := ring.tracked
    grind [Virtqueue.pushUsedPacked]
  · intro id
    change (queue.outstanding.set offer.id.toNat false)[id.toNat]? = some true ↔ _
    rw [getElem?_set]
    by_cases same : offer.id = id
    · grind
    have differs : offer.id.toNat ≠ id.toNat := fun equal => same (UInt16.toNat_inj.mp equal)
    rw [if_neg differs, ring.outstanding id]
    constructor
    · grind
    · grind
  · exact ring.measured
  · intro other mem
    exact ring.chainLen other (mem_of_mem_eraseP mem)

end Ring

namespace Hands

variable {hands : List (DescriptorChain × Bool)} (walks : Hands base size hands box)
include walks

/-- The walks read of the mailbox the letters taken, and which are not answered. -/
theorem congr (taken : next.taken = box.taken)
    (posted : next.posted.take box.taken = box.posted.take box.taken)
    (parts : next.parts = box.parts) (answered : completed next = completed box)
    (owed : next.owed = box.owed) : Hands base size hands next := by
  refine ⟨walks.length.trans taken.symm, ?_⟩
  intro index hand offer done held found read
  have inside : index < box.taken := by
    rw [← walks.length]
    exact (List.getElem?_eq_some_iff.mp held).1
  have letters : next.posted[index]? = box.posted[index]? := by
    rw [← getElem?_take_of_lt inside, posted, getElem?_take_of_lt inside]
  have place : next.posted.take index = box.posted.take index := by
    rw [← Nat.min_eq_left inside.le, ← take_take, posted, take_take]
  rw [letters] at found
  rw [parts] at read
  obtain ⟨chain, within, ended, going⟩ := walks.walking index hand offer done held found read
  rw [place]
  refine ⟨chain, within, ended, ?_⟩
  rw [answered, owed]
  exact going

/-- One walk has got further. -/
theorem read {index done count : Nat} {offer : Offer}
    {hand : DescriptorChain × Bool} (found : box.posted[index]? = some offer)
    (there : box.parts[index]? = some done)
    (walking : Walking base size box (slotsOf (box.posted.take index)) offer count hand) :
    Hands base size (hands.set index hand) { box with parts := box.parts.set index count } := by
  refine ⟨by simpa using walks.length, ?_⟩
  intro other held letter parts holds posted reads
  by_cases same : index = other
  · subst same
    have mine : hand = held := by grind
    have counted : count = parts := by grind
    have only : letter = offer := Option.some.inj (posted.symm.trans found)
    subst mine counted only
    exact ⟨walking.chain, walking.within, walking.ended, walking.going⟩
  · have kept : (box.parts.set index count)[other]? = some parts := reads
    rw [getElem?_set_ne same] at holds kept
    obtain ⟨chain, within, ended, going⟩ := walks.walking other held letter parts holds posted kept
    exact ⟨chain, within, ended, going⟩

/-- A walk has ended. -/
theorem set {index done : Nat} {offer : Offer}
    {hand : DescriptorChain × Bool} (found : box.posted[index]? = some offer)
    (there : box.parts[index]? = some done)
    (walking : Walking base size box (slotsOf (box.posted.take index)) offer done hand) :
    Hands base size (hands.set index hand) box := by
  have same : box.parts.set index done = box.parts := by
    obtain ⟨inside, rfl⟩ := List.getElem?_eq_some_iff.mp there
    exact set_getElem_self inside
  have read := walks.read found there walking
  rw [same] at read
  exact read

end Hands

namespace Refines

section Steps

variable (refines : Refines base size world box) (positive : 0 < size) (small : size ≤ 256)

include refines

theorem world_base : world.base = base := refines.ring.located

theorem world_size : world.size = size := refines.ring.sized

/-- Nothing outside the ring changed, so every table in use is as it was. -/
theorem tabled_outside {memory : GuestMemory}
    (same : SameOutside base (size * descSize) world.memory memory) :
    ∀ offer ∈ world.driver.inUse, offer.Tabled memory base size :=
  fun offer mem => (refines.tabled offer mem).outside same

theorem mem_inUse (mem : offer ∈ box.pending) : offer ∈ world.driver.inUse :=
  refines.follows.inUse.mem_iff.mpr mem

theorem proper_posted (mem : offer ∈ box.posted) : offer.Proper size :=
  refines.laid.proper offer (mem_append_left _ mem)

include positive

theorem prepare (legal : world.Allowed (.prepare offer)) :
    Refines base size (world.step (.prepare offer)).1 (Box.step box (.write offer)).1 := by
  obtain ⟨blank, proper, lapped, tabled, room, fresh⟩ := legal
  rw [refines.world_size] at proper lapped tabled room
  rw [refines.world_base] at tabled
  have empty : box.draft = [] := by rw [refines.follows.draft, blank]; rfl
  rw [refines.follows.published] at lapped room
  rw [refines.follows.reclaimed] at room
  let written := world.driver.prepare world.memory base size offer
  have inside : SameOutside base (size * descSize) world.memory written.2 :=
    prepare_inside positive world.driver world.memory offer
  have stepped : (world.step (.prepare offer)).1 =
      { world with driver := written.1, memory := written.2 } := by
    dsimp only [written]
    rw [← refines.world_base, ← refines.world_size]
    rfl
  have unused : offer.id ∉ box.pending.map Offer.id := by
    intro mem
    obtain ⟨other, pending, same⟩ := mem_map.mp mem
    exact fresh other (refines.mem_inUse pending) same
  rw [stepped]
  constructor
  · exact refines.sound.write offer
  · refine refines.laid.prepare refines.sound empty proper lapped room
      (cell_add_size _ base size) ?_
    intro place low high
    rw [← refines.follows.published] at low high ⊢
    exact cell_prepare refines.backs positive world.driver proper low high
  · exact refines.backs.congr inside.regions
  · intro other mem
    rcases mem_append.mp mem with old | new
    · exact refines.tabled_outside inside other old
    · have only : other = offer := by simpa using new
      subst only
      exact tabled.outside inside
  · exact refines.ring.congr rfl rfl rfl
  · refine { refines.follows with draft := ?_, inUse := ?_, distinct := ?_ }
    · change box.draft ++ [offer] = [offer]
      rw [empty, nil_append]
    · exact (refines.follows.inUse.append_right [offer]).trans
        (List.Perm.of_eq (Mailbox.pending_write box offer).symm)
    change ((Mailbox.pending { box with draft := box.draft ++ [offer] }).map Offer.id).Nodup
    rw [Mailbox.pending_write box offer, map_append]
    exact List.Nodup.append refines.follows.distinct (nodup_singleton _) (by simpa using unused)
  · exact refines.hands.congr rfl rfl rfl rfl rfl

theorem publish : Refines base size (world.step .publish).1 (Box.step box .post).1 := by
  change Refines base size _ box.post
  let published := world.driver.publish world.memory base size
  have stepped : (world.step .publish).1 =
      { world with driver := published.1, memory := published.2 } := by
    dsimp only [published]
    rw [← refines.world_base, ← refines.world_size]
    rfl
  rw [stepped]
  have sound := refines.sound
  have drafts := refines.follows.draft
  cases written : world.driver.draft with
  | none =>
    have drafted : box.draft = [] := by rw [drafts, written]; rfl
    have same : box.post = box := by
      cases box
      simp_all [post]
    have idle : published = (world.driver, world.memory) := by
      simp [published, Driver.publish, written]
    rw [same, idle]
    exact refines
  | some offer =>
    have drafted : box.draft = [offer] := by rw [drafts, written]; rfl
    have inside : SameOutside base (size * descSize) world.memory published.2 :=
      publish_inside positive world.driver world.memory
    have filled : 0 < offer.entries.length := (refines.laid.proper offer (by simp [drafted])).filled
    obtain ⟨head, rest, shape⟩ := exists_cons_of_length_pos filled
    have posted : box.post.posted = box.posted ++ [offer] := by simp [post, drafted]
    have prior : box.post.posted.take box.taken = box.posted.take box.taken := by
      rw [posted, take_append_of_le_length sound.taken]
    have driver : published.1 = { world.driver with
        draft := none, published := world.driver.published + offer.slots } := by
      simp [published, Driver.publish, written]
    constructor
    · exact sound.post
    · refine refines.laid.publish sound drafted shape (cell_add_size _ base size) ?_
      intro place low high
      rw [← refines.follows.published] at low high ⊢
      exact cell_publish refines.backs positive world.driver written shape low high
    · exact refines.backs.congr inside.regions
    · rw [driver]
      exact refines.tabled_outside inside
    · exact refines.ring.congr (congrArg slotsOf prior) rfl rfl
    · rw [driver]
      refine { refines.follows with published := ?_, draft := rfl, inUse := ?_, distinct := ?_ }
      · rw [Box.published, posted, slotsOf_append]
        exact congrArg (· + slotsOf [offer]) refines.follows.published
      · rw [pending_post sound]
        exact refines.follows.inUse
      · rw [pending_post sound]
        exact refines.follows.distinct
    · exact refines.hands.congr rfl prior rfl rfl rfl

omit positive in
theorem elsewhere {bytes : Nat → UInt8} (positive : 0 < size)
    (legal : world.Allowed (.elsewhere bytes)) :
    Refines base size (world.step (.elsewhere bytes)).1 box := by
  obtain ⟨ring, tables⟩ := legal
  rw [refines.world_base, refines.world_size] at ring
  rw [refines.world_size] at tables
  have same : ∀ place, cell { world.memory with bytes := bytes } base size place =
      cell world.memory base size place := by
    intro place
    have room := entry_room (Nat.mod_lt place positive)
    apply entry_congr
    intro position after before
    exact ring position (by omega) (by omega)
  constructor
  · exact refines.sound
  · have kept : cell { world.memory with bytes := bytes } base size =
        cell world.memory base size := funext same
    change Laid size (cell { world.memory with bytes := bytes } base size) box
    rw [kept]
    exact refines.laid
  · exact refines.backs.congr rfl
  · intro offer mem desc inner indirect
    obtain ⟨backs, apart, holds⟩ := refines.tabled offer mem desc inner indirect
    refine ⟨backs.congr rfl, apart, ?_⟩
    intro index raw found
    have room := entry_room (List.getElem?_eq_some_iff.mp found).1
    have kept : entry { world.memory with bytes := bytes } desc.addr index =
        entry world.memory desc.addr index := by
      apply entry_congr
      intro position after before
      exact tables offer mem desc inner indirect position (by omega) (by omega)
    exact kept.trans (holds index raw found)
  · exact refines.ring
  · exact refines.follows
  · exact refines.hands

include small

theorem pop : Refines base size (world.step .pop).1 (Box.step box .take).1 ∧
    (world.step .pop).2 = (Box.step box .take).2 := by
  have ring := refines.ring
  have sound := refines.sound
  cases found : box.posted[box.taken]? with
  | none =>
    have all : box.taken = box.posted.length :=
      Nat.le_antisymm sound.taken (getElem?_eq_none_iff.mp found)
    have arrived : popped box = published box := by
      rw [popped, all, take_length, published]
    have stale := refines.laid.unpublished positive
    have popped : world.queue.pop world.memory = (world.queue, none) := by
      apply pop_none ring.located refines.backs positive ring.ready ring.packed ring.nextAvail
      rw [ring.availWrap, arrived]
      exact fun both => stale both.1
    have taken : Box.step box .take = (box, .took none) := by
      simp [Mailbox.take, found]
    have stepped : world.step .pop = (world, .took none) := by
      simp [popped]
    rw [taken, stepped]
    exact ⟨refines, rfl⟩
  | some offer =>
    have mem : offer ∈ box.posted := mem_of_getElem? found
    have proper := refines.proper_posted mem
    have lapped := refines.laid.lapped box.taken offer found
    have behind : completed box ≤ popped box := by
      have account := completed_add_owed sound
      omega
    have stands : Stands world.memory base size (popped box) offer := by
      intro index desc entry
      exact refines.laid.waiting box.taken offer index desc found entry
        (le_trans behind (Nat.le_add_right _ _))
    have popped := pop_offer ring.located ring.sized refines.backs positive small ring.ready
      ring.packed ring.nextAvail proper lapped stands ring.availWrap
    have sizes : world.queue.size = UInt16.ofNat size := by
      rw [← ring.sized, UInt16.ofNat_toNat]
    have cursor : world.queue.nextAvail = UInt16.ofNat (Box.popped box % size) := by
      rw [← ring.nextAvail, UInt16.ofNat_toNat]
    have fresh : ∀ other ∈ box.owed, other.id ≠ offer.id := by
      have unique := refines.follows.distinct
      rw [Mailbox.pending, map_append, map_append, map_append] at unique
      have apart := disjoint_of_nodup_append (nodup_append.mp unique).1
      intro other owed same
      obtain ⟨below, value⟩ := List.getElem?_eq_some_iff.mp found
      have waits : offer ∈ box.posted.drop box.taken := by
        rw [drop_eq_getElem_cons below, value]
        exact mem_cons_self ..
      exact apart (mem_append_right _ (mem_map_of_mem owed)) (same ▸ mem_map_of_mem waits)
    have chain : DescriptorChain.packed base world.queue.size world.queue.nextAvail
        (UInt16.ofNat offer.slots) offer.id = chainAt base size (Box.popped box) offer 0 := by
      rw [sizes, cursor, chainAt_zero]
    have taken : Box.step box .take = ({ box with
        taken := box.taken + 1
        parts := box.parts ++ [0]
        owed := box.owed ++ [offer] }, .took (some offer.id)) := by
      simp [Mailbox.take, found]
    have stepped : world.step .pop = ({ world with
        queue := Packed.taken world.queue (UInt16.ofNat offer.slots) offer.id
        hands := world.hands ++ [(chainAt base size (Box.popped box) offer 0, false)] },
        .took (some offer.id)) := by
      rw [← chain]
      simp [popped, DescriptorChain.packed]
    rw [taken, stepped]
    refine ⟨?_, rfl⟩
    constructor
    · exact sound.take found
    · exact refines.laid.take _ _ _
    · exact refines.backs
    · exact refines.tabled
    · exact ring.take positive small proper found fresh _
    · constructor
      · exact refines.follows.published
      · exact refines.follows.reclaimed
      · exact refines.follows.draft
      · rw [Mailbox.pending_take found]
        exact refines.follows.inUse
      · rw [Mailbox.pending_take found]
        exact refines.follows.distinct
    refine ⟨by simp [refines.hands.length], ?_⟩
    intro index hand other done held there read
    rcases Nat.lt_or_ge index box.taken with old | new
    · rw [getElem?_append_left (by rw [refines.hands.length]; exact old)] at held
      rw [getElem?_append_left (by rw [sound.parts]; exact old)] at read
      obtain ⟨chain, within, ended, going⟩ :=
        refines.hands.walking index hand other done held there read
      refine ⟨chain, within, ended, ?_⟩
      intro still
      obtain ⟨ahead, owed⟩ := going still
      exact ⟨ahead, mem_append_left _ owed⟩
    rw [getElem?_append_right (by rw [refines.hands.length]; exact new),
      refines.hands.length] at held
    have last : index = box.taken := by grind
    subst last
    have only : other = offer := Option.some.inj (there.symm.trans found)
    have mine : hand = (chainAt base size (Box.popped box) offer 0, false) := by
      simpa using held.symm
    have none : done = 0 := by
      have parts := sound.parts
      grind
    subst only mine none
    refine ⟨rfl, Nat.zero_le _, (fun never => by cases never), ?_⟩
    intro _
    exact ⟨behind, mem_append_right _ (mem_singleton_self _)⟩

theorem walk (index : Nat) :
    Refines base size (world.step (.walk index)).1 (Box.step box (.read index)).1 ∧
      (world.step (.walk index)).2 = (Box.step box (.read index)).2 := by
  have sound := refines.sound
  rcases Nat.lt_or_ge index box.taken with inside | outside
  · obtain ⟨⟨chain, ended⟩, held⟩ : ∃ hand, world.hands[index]? = some hand :=
      ⟨_, getElem?_eq_getElem (by rw [refines.hands.length]; exact inside)⟩
    obtain ⟨offer, found⟩ : ∃ offer, box.posted[index]? = some offer :=
      ⟨_, getElem?_eq_getElem (Nat.lt_of_lt_of_le inside sound.taken)⟩
    obtain ⟨done, read⟩ : ∃ done, box.parts[index]? = some done :=
      ⟨_, getElem?_eq_getElem (by rw [sound.parts]; exact inside)⟩
    obtain ⟨same, within, finished, going⟩ :=
      refines.hands.walking index (chain, ended) offer done held found read
    let place := slotsOf (box.posted.take index)
    have here : chain = chainAt base size place offer done := same
    have proper := refines.proper_posted (mem_of_getElem? found)
    cases remaining : offer.descs[done]? with
    | none =>
      have last : done = offer.descs.length :=
        Nat.le_antisymm within (getElem?_eq_none_iff.mp remaining)
      have stays : chain.next world.memory = (chain, none) := by
        rw [here, last]
        exact next_ended small proper world.memory
      have silent : Box.step box (.read index) = (box, .part none) := by
        simp [Mailbox.read, found, read, remaining]
      have stepped : world.step (.walk index) =
          ({ world with hands := world.hands.set index (chain, true) }, .part none) := by
        simp [held, stays]
      rw [silent, stepped]
      exact ⟨{ refines with
        hands := refines.hands.set found read
          ⟨same, within, fun _ => last, fun going => by cases going⟩ }, rfl⟩
    | some desc =>
      have more : ended = false := by grind
      obtain ⟨ahead, owed⟩ := going more
      have stands : Stands world.memory base size place offer := by
        intro step desc entry
        exact refines.laid.waiting index offer step desc found entry
          (le_trans ahead (Nat.le_add_right _ _))
      have pending : offer ∈ box.pending := by grind [Mailbox.pending]
      have tabled := refines.tabled offer (refines.mem_inUse pending)
      have moves : chain.next world.memory =
          (chainAt base size place offer (done + 1), some desc) := by
        rw [here]
        exact next_offer refines.backs positive small proper stands tabled remaining
      have given : Box.step box (.read index) =
          ({ box with parts := box.parts.set index (done + 1) }, .part (some desc)) := by
        simp [Mailbox.read, found, read, remaining]
      have stepped : world.step (.walk index) = ({ world with
          hands := world.hands.set index (chainAt base size place offer (done + 1), false) },
          .part (some desc)) := by
        simp [held, moves, more]
      have length : done + 1 ≤ offer.descs.length := (List.getElem?_eq_some_iff.mp remaining).1
      rw [given, stepped]
      exact ⟨{ refines with
        sound := sound.read index (done + 1)
        laid := refines.laid.take _ _ _
        ring := refines.ring.congr rfl rfl rfl
        follows := { refines.follows with }
        hands := refines.hands.read found read
          ⟨rfl, length, (fun never => by cases never), fun _ => ⟨ahead, owed⟩⟩ }, rfl⟩
  · have none : box.parts[index]? = none := by
      rw [getElem?_eq_none_iff, sound.parts]
      exact outside
    have empty : world.hands[index]? = Option.none := by
      rw [getElem?_eq_none_iff, refines.hands.length]
      exact outside
    have silent : Box.step box (.read index) = (box, .part Option.none) := by
      simp only [Box.step, Mailbox.step, Mailbox.read, none]
      cases box.posted[index]? <;> rfl
    have stepped : world.step (.walk index) = (world, .part Option.none) := by
      simp [empty]
    rw [silent, stepped]
    exact ⟨refines, rfl⟩

theorem complete {id : UInt16} {len : UInt32} (legal : world.Allowed (.complete id len)) :
    Refines base size (world.step (.complete id len)).1 (Box.step box (.answer id len)).1 := by
  have ring := refines.ring
  have sound := refines.sound
  let done := world.queue.pushUsed world.memory id len
  have stepped : (world.step (.complete id len)).1 =
      { world with queue := done.1, memory := done.2 } := rfl
  rw [stepped]
  change Refines base size _ (box.answer Offer.id id len)
  cases found : box.owed.find? (fun letter => letter.id = id) with
  | none =>
    have absent : ¬ ∃ offer ∈ box.owed, offer.id = id := by grind
    have refused : done = (world.queue, world.memory) := by
      have outstanding := ring.outstanding
      grind [Virtqueue.pushUsed]
    have unanswered : box.answer Offer.id id len = box := by
      simp [Mailbox.answer, found]
    rw [refused, unanswered]
    exact refines
  | some offer =>
    have owed : offer ∈ box.owed := mem_of_find?_eq_some found
    have named : offer.id = id := by simpa using find?_some found
    have proper := refines.proper_posted (sound.mem_posted (mem_append_right _ owed))
    have distinct : (box.owed.map Offer.id).Nodup := by
      have unique := refines.follows.distinct
      simp only [Mailbox.pending, map_append] at unique
      exact unique.of_append_left.of_append_left.of_append_right
    have marked : world.queue.outstanding[id.toNat]? = some true :=
      (ring.outstanding id).mpr ⟨offer, owed, named⟩
    have pushed : done.2 = ({ world.queue with
        outstanding := world.queue.outstanding.set id.toNat false }.pushUsedPacked
          world.memory id len).2 := by
      simp [done, Virtqueue.pushUsed, marked, ring.packed]
    have inside : SameOutside base (size * descSize) world.memory done.2 := by
      rw [pushed]
      exact pushUsedPacked_inside ring.located ring.nextUsed refines.backs positive id len
    have put : ∀ place, completed box ≤ place → place < completed box + size →
        cell done.2 base size place =
          if place = completed box then
            ⟨(cell world.memory base size (completed box)).addr, len, id,
              usedFlags (lap size (completed box))⟩
          else cell world.memory base size place := by
      intro place low high
      rw [pushed, ← ring.usedWrap]
      exact cell_pushUsedPacked ring.located ring.nextUsed refines.backs positive id len low high
    have answered : box.answer Offer.id id len = { box with
        owed := box.owed.eraseP fun letter => letter.id = id
        answered := box.answered ++ [(offer, len)] } := by
      simp [Mailbox.answer, found]
    have moved := Mailbox.pending_answer sound Offer.id id len found
    rw [answered]
    constructor
    · exact sound.answer Offer.id id len found
    · exact refines.laid.answer sound id len found (cell_add_size _ base size) put
    · exact refines.backs.congr inside.regions
    · exact refines.tabled_outside inside
    · exact ring.answer positive small proper found distinct world.memory len
    · exact { refines.follows with
        reclaimed := refines.follows.reclaimed.trans (reclaimed_answer sound _ _ _).symm
        inUse := refines.follows.inUse.trans moved.symm
        distinct := ((moved.map Offer.id).nodup_iff).mpr refines.follows.distinct }
    refine ⟨refines.hands.length, ?_⟩
    intro index hand other done held there read
    obtain ⟨chain, within, ended, _⟩ := refines.hands.walking index hand other done held there read
    have walked := legal hand (mem_of_getElem? held)
    exact ⟨chain, within, ended, fun still => by rw [walked] at still; cases still⟩

omit small in
theorem reclaim : Refines base size (world.step .reclaim).1 (Box.step box .collect).1 ∧
    (world.step .reclaim).2 = (Box.step box .collect).2 := by
  have sound := refines.sound
  have follows := refines.follows
  have stepped : world.step .reclaim =
      ({ world with driver := (world.driver.reclaim world.memory base size).1 },
        .collected (world.driver.reclaim world.memory base size).2) := by
    rw [← refines.world_base, ← refines.world_size]
    rfl
  rw [stepped]
  cases next : box.answered[box.collected]? with
  | none =>
    have all : reclaimed box = completed box := by
      have whole : box.collected = (box.answered.map Prod.fst).length := by
        rw [length_map]
        exact Nat.le_antisymm sound.collected (getElem?_eq_none_iff.mp next)
      rw [reclaimed, whole, take_length, completed]
    have unused := refines.laid.unanswered sound positive all
    have nothing : world.driver.reclaim world.memory base size = (world.driver, none) := by
      unfold Driver.reclaim
      rw [follows.reclaimed]
      exact if_neg unused
    have silent : Box.step box .collect = (box, .collected none) := by
      simp [Mailbox.collect, next]
    rw [nothing, silent]
    exact ⟨refines, rfl⟩
  | some answer =>
    obtain ⟨addr, held⟩ := refines.laid.written box.collected answer (Nat.le_refl _) next
    have here : entry world.memory base (reclaimed box % size) =
        ⟨addr, answer.2, answer.1.id, usedFlags (lap size (reclaimed box))⟩ := held
    have listed := Mailbox.pending_collect next
    have pending : answer.1 ∈ box.pending := by
      rw [listed]
      exact mem_cons_self ..
    have distinct : (world.driver.inUse.map Offer.id).Nodup :=
      ((follows.inUse.map Offer.id).nodup_iff).mpr follows.distinct
    have known : world.driver.inUse.find? (fun offer => offer.id = answer.1.id) =
        some answer.1 := Mailbox.find_key Offer.id distinct (refines.mem_inUse pending)
    have taken : world.driver.reclaim world.memory base size = ({ world.driver with
        reclaimed := world.driver.reclaimed + answer.1.slots
        inUse := world.driver.inUse.eraseP fun offer => offer.id = answer.1.id },
        some (answer.1.id, answer.2)) := by
      unfold Driver.reclaim
      rw [follows.reclaimed, here]
      simp only [availBit_usedFlags, usedBit_usedFlags, and_self, if_true, known]
    have collected : Box.step box .collect =
        ({ box with collected := box.collected + 1 },
          .collected (some (answer.1.id, answer.2))) := by
      simp [Mailbox.collect, next]
    have grown : Box.reclaimed { box with collected := box.collected + 1 } =
        reclaimed box + answer.1.slots := by
      apply slotsOf_take_succ
      rw [getElem?_map, next]
      rfl
    have erased := Mailbox.found_erased Offer.id answer.1.id known
    rw [taken, collected]
    refine ⟨{ refines with
      sound := sound.collect next
      laid := refines.laid.collect sound positive next
      tabled := fun offer mem => refines.tabled offer (mem_of_mem_eraseP mem)
      ring := refines.ring.congr rfl rfl rfl
      follows := { follows with reclaimed := ?_, inUse := ?_, distinct := ?_ }
      hands := refines.hands.congr rfl rfl rfl rfl rfl }, rfl⟩
    · rw [grown]
      exact congrArg (· + answer.1.slots) follows.reclaimed
    · have same := erased.symm.trans follows.inUse
      rw [listed] at same
      exact same.cons_inv
    · have distinct := follows.distinct
      grind

end Steps

/-- Every action is answered as the mailbox answers it. -/
theorem step (refines : Refines base size world box) (positive : 0 < size) (small : size ≤ 256)
    (act : Act) (legal : world.Allowed act) :
    Refines base size (world.step act).1 (Box.step box act.event).1 ∧
      (world.step act).2 = (Box.step box act.event).2 := by
  cases act with
  | prepare offer => exact ⟨refines.prepare positive legal, rfl⟩
  | publish => exact ⟨refines.publish positive, rfl⟩
  | elsewhere bytes => exact ⟨refines.elsewhere positive legal, rfl⟩
  | pop => exact refines.pop positive small
  | walk index => exact refines.walk positive small index
  | complete id len => exact ⟨refines.complete positive small legal, rfl⟩
  | reclaim => exact refines.reclaim positive

end Refines

/-- A queue just made ready in the packed layout, on a ring whose entries carry no
availability yet. -/
structure Fresh (queue : Virtqueue) (memory : GuestMemory) : Prop where
  power : isPowerOfTwo queue.size = true
  within : queue.size ≤ maxQueueSize
  ready : queue.ready = true
  packed : queue.packed = true
  nextAvail : queue.nextAvail = 0
  nextUsed : queue.nextUsed = 0
  availWrap : queue.availWrap = true
  usedWrap : queue.usedWrap = true
  chainLen : queue.chainLen = []
  outstanding : queue.outstanding = []
  backs : Backs memory queue.descAddr queue.size.toNat
  blank : ∀ index, index < queue.size.toNat →
    availBit (entry memory queue.descAddr index).flags = false

namespace Fresh

variable {queue : Virtqueue} {memory : GuestMemory} (fresh : Fresh queue memory)
include fresh

theorem positive : 0 < queue.size.toNat :=
  (dvd_of_isPowerOfTwo fresh.power).2.1

theorem small : queue.size.toNat ≤ 256 :=
  UInt16.le_iff_toNat_le.mp fresh.within

/-- Nothing has been offered, and every slot has the lap before the first. -/
theorem refines : Refines queue.descAddr queue.size.toNat (World.start queue memory) empty := by
  have positive := fresh.positive
  constructor
  · exact sound_empty
  · constructor
    · exact cell_add_size memory _ _
    · intro offer mem
      cases mem
    · intro index offer never
      cases never
    · intro offer never
      cases never
    · exact Nat.zero_le _
    · intro index offer step desc never
      cases never
    · intro place _ never
      exact absurd never (Nat.not_lt_zero place)
    · intro index answer _ never
      cases never
    · intro place _ below _
      have inside : place < queue.size.toNat := by
        have bound : place < 0 + queue.size.toNat := below
        omega
      have first : lap queue.size.toNat place = true := by
        rw [lap, Nat.div_eq_of_lt inside]
        rfl
      have clear := fresh.blank _ (Nat.mod_lt place positive)
      change availBit (entry memory queue.descAddr (place % queue.size.toNat)).flags ≠ _
      rw [clear, first]
      decide
    · intro offer step desc never
      cases never
  · exact fresh.backs
  · intro offer mem
    cases mem
  · constructor
    · rfl
    · rfl
    · exact fresh.ready
    · exact fresh.packed
    · change queue.nextAvail.toNat = 0 % queue.size.toNat
      rw [fresh.nextAvail, Nat.zero_mod]
      rfl
    · exact fresh.availWrap.trans (lap_zero _).symm
    · change queue.nextUsed.toNat = 0 % queue.size.toNat
      rw [fresh.nextUsed, Nat.zero_mod]
      rfl
    · exact fresh.usedWrap.trans (lap_zero _).symm
    · exact Or.inl fresh.outstanding
    · intro id
      simp [World.start, fresh.outstanding, empty]
    · exact Or.inl fresh.chainLen
    · intro offer mem
      cases mem
  · exact ⟨rfl, rfl, rfl, Perm.refl _, nodup_nil⟩
  · refine ⟨rfl, ?_⟩
    intro index hand offer done never
    cases never

end Fresh

/-- A packed ring answers every run as an exactly-once mailbox does, and the device's
cursors and laps are always those of the slots taken and of the slots completed. -/
theorem packed_refines_mailbox (queue : Virtqueue) (memory : GuestMemory)
    (fresh : Fresh queue memory) (acts : List Act)
    (legal : Transition.Legal World.Allowed (fun world act => (world.step act).1)
      (World.start queue memory) acts) :
    Transition.outputs World.step (World.start queue memory) acts =
        Transition.outputs Box.step Mailbox.empty (acts.map Act.event) ∧
      let world := Transition.run (fun world act => (world.step act).1)
        (World.start queue memory) acts
      let box := Transition.run (fun box event => (Box.step box event).1) Mailbox.empty
        (acts.map Act.event)
      let size := queue.size.toNat
      (world.queue.nextAvail.toNat, world.queue.availWrap) =
          (popped box % size, lap size (popped box)) ∧
        (world.queue.nextUsed.toNat, world.queue.usedWrap) =
          (completed box % size, lap size (completed box)) ∧
        world.driver.published = published box ∧ world.driver.reclaimed = reclaimed box := by
  obtain ⟨answers, final⟩ := Transition.outputs_simulated World.Allowed World.step Box.step
    Act.event (Refines queue.descAddr queue.size.toNat)
    (fun _ _ act refines permitted => refines.step fresh.positive fresh.small act permitted)
    (World.start queue memory) empty acts fresh.refines legal
  refine ⟨answers, ?_, ?_, final.follows.published, final.follows.reclaimed⟩
  · rw [final.ring.nextAvail, final.ring.availWrap]
  · rw [final.ring.nextUsed, final.ring.usedWrap]

/-- A ring of two slots at address 4096, ready and unused. -/
def twoSlots : Virtqueue :=
  { Virtqueue.new 256 with
    size := 2, descAddr := 4096, availAddr := 8192, usedAddr := 12288, ready := true
    packed := true }

def onePage : GuestMemory := ⟨[⟨4096, 4096⟩], fun _ => 0⟩

/-- A chain of two entries under the id 1. -/
def bothSlots : Offer :=
  ⟨1, [⟨20480, 16, 0, descAvail ||| descNext⟩, ⟨24576, 64, 1, descAvail ||| descWrite⟩], none⟩

/-- Offered, popped, walked to its end, completed and reclaimed. -/
def thereAndBack : List Act :=
  [.prepare bothSlots, .publish, .pop, .walk 0, .walk 0, .walk 0, .complete 1 48, .reclaim]

theorem twoSlots_fresh : Fresh twoSlots onePage := by
  constructor
  all_goals decide

theorem thereAndBack_legal : Transition.Legal World.Allowed (fun world act => (world.step act).1)
      (World.start twoSlots onePage) thereAndBack := by
  have direct : bothSlots.Direct := by
    constructor
    · rfl
    · intro index desc found
      rcases index with _ | _ | index
      · cases found
        decide
      · cases found
        decide
      · cases found
    · decide
    · intro desc found
      cases found
      rfl
  have lapped : bothSlots.Lapped 2 0 := by
    intro index desc found
    rcases index with _ | _ | index
    · cases found
      decide
    · cases found
      decide
    · cases found
  refine ⟨⟨rfl, ⟨by decide, by decide, by decide, by decide, Or.inl direct⟩, lapped, ?_,
    by decide, ?_⟩, trivial, trivial, trivial, trivial, trivial, ?_, trivial, trivial⟩
  · intro desc inner indirect
    cases indirect.table
  · intro other mem
    cases mem
  · change ∀ hand ∈ World.hands _, hand.2 = true
    decide

theorem packed_refines_mailbox_thereAndBack :
    Fresh twoSlots onePage ∧
      Transition.outputs World.step (World.start twoSlots onePage) thereAndBack =
        Transition.outputs Box.step Mailbox.empty (thereAndBack.map Act.event) :=
  ⟨twoSlots_fresh,
    (packed_refines_mailbox twoSlots onePage twoSlots_fresh thereAndBack
      thereAndBack_legal).1⟩

end Lighter.Virtio.Packed
