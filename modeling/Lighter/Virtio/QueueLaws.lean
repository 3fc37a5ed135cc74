import Lighter.Virtio.Queue

/-!
# What the ring operations leave alone

A queue's geometry is chosen by the driver's registers and by nothing that happens
on the ring; its place in the used ring is moved by returns alone. Each operation is
described here by the part it keeps, so that a proof about one part need not look at
the operations of the other.
-/

namespace Lighter.Virtio

/-- The index test, on counts that do not wrap: whether the count waited for is one
that has been reached since the last look. -/
theorem needEvent_iff {wanted now last : Nat} (ordered : last ≤ now) (near : now < last + 65536)
    (before : wanted ≤ now) (close : now < wanted + 65536) :
    needEvent (UInt16.ofNat wanted) (UInt16.ofNat now) (UInt16.ofNat last) = true ↔
      last ≤ wanted ∧ wanted < now := by
  simp only [needEvent, decide_eq_true_eq, UInt16.lt_iff_toNat_lt, UInt16.toNat_sub,
    UInt16.toNat_ofNat', UInt16.toNat_one]
  omega

/-- A place in a ring, as a remainder by a power of two sees it through the wrap of a
sixteen-bit difference. -/
theorem toNat_distance {size first second : Nat} (divides : size ∣ 65536) (positive : 0 < size)
    (ordered : first ≤ second) :
    ((UInt16.ofNat (second % size) - UInt16.ofNat (first % size)).toNat) % size =
      (second - first) % size := by
  obtain ⟨rings, whole⟩ := divides
  have low := Nat.mod_lt first positive
  have high := Nat.mod_lt second positive
  have below : size ≤ 65536 := by
    rw [whole]
    exact Nat.le_mul_of_pos_right size (Nat.pos_of_ne_zero (by rintro rfl; omega))
  have narrow : ∀ number, number < size → number % 65536 = number := by grind
  rw [UInt16.toNat_sub, UInt16.toNat_ofNat', UInt16.toNat_ofNat', narrow _ low, narrow _ high,
    Nat.mod_mod_of_dvd _ ⟨rings, whole⟩]
  -- Both sides are the difference of the places, up to whole rings.
  have split : 65536 - first % size + second % size + size * (second / size) =
      second - first + size * (first / size) + 65536 := by
    have one := Nat.div_add_mod first size
    have two := Nat.div_add_mod second size
    omega
  have rest := congrArg (· % size) split
  simp only [Nat.add_mul_mod_self_left] at rest
  rw [rest, whole, Nat.add_mul_mod_self_left, Nat.add_mul_mod_self_left]

/-- A size that the geometry check lets through divides the range of an index. -/
theorem dvd_of_isPowerOfTwo {size : UInt16} (power : isPowerOfTwo size = true) :
    size.toNat ∣ 65536 ∧ 0 < size.toNat ∧ size.toNat ≤ 32768 := by
  simp only [isPowerOfTwo, List.any_eq_true, beq_iff_eq, List.mem_range] at power
  obtain ⟨bit, below, same⟩ := power
  rw [same]
  exact ⟨Nat.pow_dvd_pow 2 (show bit ≤ 16 by omega), Nat.two_pow_pos bit,
    Nat.pow_le_pow_right Nat.two_pos (show bit ≤ 15 by omega)⟩

/-- What the driver's registers choose. -/
structure Geometry where
  maxSize : UInt16
  size : UInt16
  descAddr : Nat
  availAddr : Nat
  usedAddr : Nat
  ready : Bool
  packed : Bool
  eventIdx : Bool
deriving DecidableEq, Repr

/-- The device's place in the used ring, and what it has told the driver of it. -/
structure Completion where
  nextUsed : UInt16
  usedWrap : Bool
  signalledUsed : UInt16
  usedTotal : UInt16
  signalledTotal : UInt16
deriving DecidableEq, Repr

namespace Virtqueue

def geometry (queue : Virtqueue) : Geometry :=
  ⟨queue.maxSize, queue.size, queue.descAddr, queue.availAddr, queue.usedAddr, queue.ready,
    queue.packed, queue.eventIdx⟩

def completion (queue : Virtqueue) : Completion :=
  ⟨queue.nextUsed, queue.usedWrap, queue.signalledUsed, queue.usedTotal, queue.signalledTotal⟩

/-- A pop moves the read cursor and notes what was taken. -/
theorem pop_keeps (queue : Virtqueue) (memory : GuestMemory) :
    (queue.pop memory).1.geometry = queue.geometry ∧
      (queue.pop memory).1.completion = queue.completion := by
  unfold pop
  split
  · exact ⟨rfl, rfl⟩
  split
  · unfold popPacked
    dsimp only
    split
    · exact ⟨rfl, rfl⟩
    split
    · exact ⟨rfl, rfl⟩
    · split
      · split <;> split <;> exact ⟨rfl, rfl⟩
      · exact ⟨rfl, rfl⟩
  · unfold popSplit
    split
    · exact ⟨rfl, rfl⟩
    split
    · exact ⟨rfl, rfl⟩
    dsimp only
    split
    · exact ⟨rfl, rfl⟩
    · split <;> exact ⟨rfl, rfl⟩

/-- Whether or not there is a chain, its size, its layout and its used index are as before. -/
theorem pop_fields {queue after : Virtqueue} {memory : GuestMemory}
    {chain : Option DescriptorChain} (popped : queue.pop memory = (after, chain)) :
    after.size = queue.size ∧ after.packed = queue.packed ∧ after.nextUsed = queue.nextUsed := by
  obtain ⟨geometry, completion⟩ := queue.pop_keeps memory
  rw [popped] at geometry completion
  exact ⟨congrArg Geometry.size geometry, congrArg Geometry.packed geometry,
    congrArg Completion.nextUsed completion⟩

theorem geometry_pushUsed (queue : Virtqueue) (memory : GuestMemory) (head : UInt16)
    (len : UInt32) : (queue.pushUsed memory head len).1.geometry = queue.geometry := by
  unfold pushUsed
  split
  · dsimp only
    split <;> rfl
  · rfl

/-- A queue that changes without its geometry leaves every geometry as it is. -/
theorem map_geometry_set {queues : List Virtqueue} {index : Nat} {queue after : Virtqueue}
    (found : queues[index]? = some queue) (same : after.geometry = queue.geometry) :
    (queues.set index after).map geometry = queues.map geometry := by
  apply List.ext_getElem?
  intro place
  rw [List.map_set, same, List.getElem?_set]
  split
  · grind
  · rfl

/-- What the device has asked of the driver about kicks. -/
def asked (queue : Virtqueue) : Bool × Option UInt16 := (queue.suppressed, queue.publishedEvent)

section

variable (queue : Virtqueue) (memory : GuestMemory)
include queue memory

theorem asked_pop : (queue.pop memory).1.asked = queue.asked := by
  unfold pop
  split
  · rfl
  split
  · unfold popPacked
    dsimp only
    split
    · rfl
    split
    · rfl
    · split
      · split <;> split <;> rfl
      · rfl
  · unfold popSplit
    split
    · rfl
    split
    · rfl
    dsimp only
    split
    · rfl
    · split <;> rfl

/-- A return is no business of the read cursor. -/
theorem pushUsed_keeps (head : UInt16) (len : UInt32) :
    (queue.pushUsed memory head len).1.nextAvail = queue.nextAvail ∧
      (queue.pushUsed memory head len).1.asked = queue.asked := by
  unfold pushUsed
  split
  · dsimp only
    split <;> exact ⟨rfl, rfl⟩
  · exact ⟨rfl, rfl⟩

theorem geometry_publishAvailEvent :
    (queue.publishAvailEvent memory).1.geometry = queue.geometry := by
  simp only [publishAvailEvent, apply_ite Prod.fst]
  split <;> split <;> rfl

theorem geometry_suppressNotifications (suppress : Bool) :
    (queue.suppressNotifications memory suppress).1.geometry = queue.geometry := by
  unfold suppressNotifications
  split
  · rfl
  dsimp only
  split
  · rfl
  · split
    · exact geometry_publishAvailEvent _ memory
    · rfl

/-- Asking to be kicked notes what was asked for. -/
theorem armNotifications_keeps :
    (queue.armNotifications memory).1.geometry = queue.geometry ∧
      (queue.armNotifications memory).1.completion = queue.completion := by
  unfold armNotifications publishAvailEvent
  split
  · exact ⟨rfl, rfl⟩
  split
  · exact ⟨rfl, rfl⟩
  · dsimp only
    split <;> split <;> exact ⟨rfl, rfl⟩

/-- Asking writes the one word it has for that, if it writes. -/
theorem armNotifications_memory :
    (queue.armNotifications memory).2 = memory ∨
      queue.packed = false ∧ ∃ value,
        (queue.armNotifications memory).2 = memory.putU16 queue.availEventAddr value := by
  unfold armNotifications publishAvailEvent
  split
  · exact Or.inl rfl
  · grind

end

/-- A pop marks the head it takes, which is inside the ring, and no other. -/
theorem pop_marks {queue popped : Virtqueue} {memory : GuestMemory}
    {result : Option DescriptorChain} (taken : queue.pop memory = (popped, result)) :
    match result with
    | none => popped.outstanding = queue.outstanding
    | some chain => chain.head < queue.size ∧
        popped.outstanding = (queue.markTaken chain.head).outstanding := by
  unfold pop popPacked popSplit at taken
  dsimp only at taken
  repeat' split at taken
  all_goals cases taken
  all_goals first | rfl | exact ⟨UInt16.not_le.mp (by assumption), rfl⟩

/-- A chain that was just taken is outstanding. -/
theorem pop_outstanding {queue popped : Virtqueue} {memory : GuestMemory}
    {chain : DescriptorChain} (taken : queue.pop memory = (popped, some chain)) :
    popped.outstanding[chain.head.toNat]? = some true := by
  obtain ⟨inside, marks⟩ := pop_marks taken
  have small : chain.head.toNat < queue.size.toNat := inside
  rw [marks]
  unfold markTaken
  split <;> simp_all

/-- The marks once a head is taken: there are as many as the ring has places, and that head's
is made. Marks that were not as many are made afresh. -/
theorem markTaken_marks {queue : Virtqueue} {head : UInt16} (inside : head < queue.size)
    (sized : queue.outstanding = [] ∨ queue.outstanding.length = queue.size.toNat) :
    (queue.markTaken head).outstanding.length = queue.size.toNat ∧
      ∀ other : UInt16, (queue.markTaken head).outstanding[other.toNat]? = some true ↔
        other = head ∨ queue.outstanding[other.toNat]? = some true := by
  have small : head.toNat < queue.size.toNat := inside
  obtain ⟨flags, whole, marked, marks⟩ : ∃ flags : List Bool,
      flags.length = queue.size.toNat ∧
      (queue.markTaken head).outstanding = flags.set head.toNat true ∧
      ∀ place : Nat, flags[place]? = some true ↔ queue.outstanding[place]? = some true := by
    rcases sized with blank | whole
    · refine ⟨List.replicate queue.size.toNat false, List.length_replicate, ?_, ?_⟩
      · grind [markTaken]
      · grind
    · refine ⟨queue.outstanding, whole, ?_, fun _ => Iff.rfl⟩
      simp [markTaken, whole]
  refine ⟨by rw [marked, List.length_set, whole], fun other => ?_⟩
  rw [marked, List.getElem?_set, ← marks]
  by_cases same : head = other
  · subst same
    simp [whole, small]
  · have apart : head.toNat ≠ other.toNat := fun equal => same (UInt16.toNat_inj.mp equal)
    rw [if_neg apart]
    simp [Ne.symm same]

/-- The head of an outstanding chain is returned. -/
theorem pushUsed_outstanding {queue : Virtqueue} {head : UInt16}
    (marked : queue.outstanding[head.toNat]? = some true) (memory : GuestMemory) (len : UInt32) :
    queue.pushUsed memory head len =
      let queue := { queue with outstanding := queue.outstanding.set head.toNat false }
      if queue.packed then queue.pushUsedPacked memory head len
      else queue.pushUsedSplit memory head len := by
  rw [pushUsed, marked]

theorem pushUsed_refused {queue : Virtqueue} {head : UInt16}
    (unmarked : queue.outstanding[head.toNat]? ≠ some true) (memory : GuestMemory)
    (len : UInt32) : queue.pushUsed memory head len = (queue, memory) := by
  unfold pushUsed
  grind

/-- A return takes the mark of its head away, and moves the used index of a split ring on if it
was not refused. -/
theorem pushUsed_marks (queue : Virtqueue) (memory : GuestMemory) (head : UInt16) (len : UInt32) :
    (queue.pushUsed memory head len).1.outstanding.length = queue.outstanding.length ∧
    (∀ other : UInt16, (queue.pushUsed memory head len).1.outstanding[other.toNat]? = some true ↔
      other ≠ head ∧ queue.outstanding[other.toNat]? = some true) ∧
    (queue.packed = false → (queue.pushUsed memory head len).1.nextUsed =
      queue.nextUsed + if queue.outstanding[head.toNat]? = some true then 1 else 0) := by
  by_cases marked : queue.outstanding[head.toNat]? = some true
  · have marks : (queue.pushUsed memory head len).1.outstanding =
        queue.outstanding.set head.toNat false := by
      rw [pushUsed_outstanding marked]
      dsimp only
      split <;> rfl
    refine ⟨by rw [marks, List.length_set], fun other => ?_, fun split => ?_⟩
    · rw [marks, List.getElem?_set]
      by_cases same : head = other
      · subst same
        grind
      · have apart : head.toNat ≠ other.toNat := fun equal => same (UInt16.toNat_inj.mp equal)
        rw [if_neg apart]
        simp [Ne.symm same]
    · rw [pushUsed_outstanding marked, if_pos marked]
      simp [split, pushUsedSplit]
  · rw [pushUsed_refused marked, if_neg marked]
    grind

/-- Whatever the packed question answers, it has been asked at this count. -/
theorem needsInterruptPacked_queue (queue : Virtqueue) (memory : GuestMemory) :
    (queue.needsInterruptPacked memory).1 = { queue with signalledTotal := queue.usedTotal } := by
  unfold needsInterruptPacked
  grind

theorem geometry_needsInterrupt (queue : Virtqueue) (memory : GuestMemory) :
    (queue.needsInterrupt memory).1.geometry = queue.geometry := by
  unfold needsInterrupt
  split
  · rw [needsInterruptPacked_queue]
    rfl
  · split
    · rfl
    · split <;> rfl

end Virtqueue
end Lighter.Virtio
