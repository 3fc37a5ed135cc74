import Lighter.Virtio.QueueLaws

/-!
# A split ring against any driver

Guest memory is whatever each call finds: nothing is assumed about what the driver
wrote or when. What has happened is kept as a history of what the calls did, read off
their results: an entry consumed with the chain it gave, an entry consumed that named
no descriptor, a chain returned. The history alone says which heads may be returned
and where the next used entry goes.
-/

namespace Lighter.Virtio.Split

open GuestMemory Virtqueue

inductive Call where
  | pop (memory : GuestMemory)
  | pushUsed (memory : GuestMemory) (head : UInt16) (len : UInt32)

/-- What a call did. -/
inductive Event where
  | popped (head : UInt16)
  /-- An entry was consumed and no chain came of it. -/
  | skipped
  | returned (head : UInt16)
deriving DecidableEq, Repr

/-- The latest event first. -/
abbrev History := List Event

namespace History

/-- Taken, and not returned since it was last taken. -/
def held (head : UInt16) : History → Bool
  | [] => false
  | .popped other :: rest => other == head || held head rest
  | .skipped :: rest => held head rest
  | .returned other :: rest => other != head && held head rest

/-- Entries of the available ring consumed. -/
def consumed (history : History) : Nat :=
  history.countP fun
    | .returned _ => false
    | _ => true

/-- Chains returned. -/
def accepted (history : History) : Nat :=
  history.countP fun
    | .returned _ => true
    | _ => false

def pops (head : UInt16) (history : History) : Nat := history.count (.popped head)

def returns (head : UInt16) (history : History) : Nat := history.count (.returned head)

@[simp] theorem consumed_popped (head : UInt16) (history : History) :
    consumed (.popped head :: history) = consumed history + 1 := by
  simp [consumed]

@[simp] theorem consumed_skipped (history : History) :
    consumed (.skipped :: history) = consumed history + 1 := by
  simp [consumed]

@[simp] theorem accepted_returned (head : UInt16) (history : History) :
    accepted (.returned head :: history) = accepted history + 1 := by
  simp [accepted]

end History

open Split.History

def after (queue : Virtqueue) : Call → Virtqueue
  | .pop memory => (queue.pop memory).1
  | .pushUsed memory head len => (queue.pushUsed memory head len).1

/-- What is seen of a call: the chain it gave, or that a cursor moved. -/
def observed (queue : Virtqueue) : Call → List Event
  | .pop memory =>
      match (queue.pop memory).2 with
      | some chain => [.popped chain.head]
      | none => if (queue.pop memory).1.nextAvail = queue.nextAvail then [] else [.skipped]
  | .pushUsed memory head len =>
      if (queue.pushUsed memory head len).1.nextUsed = queue.nextUsed then [] else [.returned head]

/-- A queue with what has happened to it. -/
abbrev Record := Virtqueue × History

def step (record : Record) (call : Call) : Record :=
  (after record.1 call, observed record.1 call ++ record.2)

/-- The entry a count of entries consumed has come to, if the driver has put one
there. -/
def offered (queue : Virtqueue) (memory : GuestMemory) (count : Nat) : Option UInt16 := do
  let idx ← memory.readU16 (address queue.availAddr 2)
  if idx.toNat = count % 65536 then none
  else memory.readU16 (address queue.availAddr (4 + count % queue.size.toNat * 2))

/-- The element of a count of chains returned, and then the index past it. -/
def recordUsed (queue : Virtqueue) (memory : GuestMemory) (count : Nat) (head : UInt16)
    (len : UInt32) : GuestMemory :=
  let element := address queue.usedAddr (4 + count % queue.size.toNat * 8)
  let memory := memory.putField element 4 head.toNat
  let memory := memory.putField (address element 4) 4 len.toNat
  memory.putField (address queue.usedAddr 2) 2 ((count + 1) % 65536)

/-- A split ring in use: its geometry, and no more of it. -/
structure Usable (queue : Virtqueue) : Prop where
  ready : queue.ready = true
  split : queue.packed = false
  power : isPowerOfTwo queue.size = true

/-- The ring as it was made ready. -/
structure Fresh (queue : Virtqueue) : Prop extends Usable queue where
  nextAvail : queue.nextAvail = 0
  nextUsed : queue.nextUsed = 0
  outstanding : queue.outstanding = []

/-- What a queue keeps, as the history has it. -/
structure Tracks (start queue : Virtqueue) (history : History) : Prop where
  usable : Usable queue
  size : queue.size = start.size
  descAddr : queue.descAddr = start.descAddr
  availAddr : queue.availAddr = start.availAddr
  usedAddr : queue.usedAddr = start.usedAddr
  nextAvail : queue.nextAvail = UInt16.ofNat (consumed history)
  nextUsed : queue.nextUsed = UInt16.ofNat (accepted history)
  /-- The vector is empty until the first chain is taken. -/
  tracked : queue.outstanding = [] ∨ queue.outstanding.length = queue.size.toNat
  outstanding : ∀ head : UInt16, queue.outstanding[head.toNat]? = some true ↔
    held head history = true
  /-- What is held is a pop not yet matched by a return. -/
  matched : ∀ head, returns head history + (if held head history then 1 else 0) ≤
    pops head history

namespace Usable

variable {queue : Virtqueue} (usable : Usable queue)
include usable

theorem divides : queue.size.toNat ∣ 65536 :=
  (dvd_of_isPowerOfTwo usable.power).1

theorem positive : 0 < queue.size.toNat :=
  (dvd_of_isPowerOfTwo usable.power).2.1

theorem small : queue.size.toNat ≤ 32768 :=
  (dvd_of_isPowerOfTwo usable.power).2.2

/-- The index wraps at a multiple of the ring, so it names the same slot. -/
theorem slot (count : Nat) :
    (UInt16.ofNat count % queue.size).toNat = count % queue.size.toNat := by
  rw [UInt16.toNat_mod, UInt16.toNat_ofNat']
  exact Nat.mod_mod_of_dvd count usable.divides

end Usable

/-- A counter one further. -/
theorem ofNat_succ (count : Nat) : UInt16.ofNat count + 1 = UInt16.ofNat (count + 1) := by
  rw [UInt16.ofNat_add]
  rfl

namespace Tracks

variable {start queue : Virtqueue} {history : History}

section

variable (tracks : Tracks start queue history)
include tracks

/-- The rings are where they were. -/
theorem offered_eq (memory : GuestMemory) (count : Nat) :
    offered queue memory count = offered start memory count := by
  rw [offered, offered, tracks.size, tracks.availAddr]

theorem recordUsed_eq (memory : GuestMemory) (count : Nat) (head : UInt16) (len : UInt32) :
    recordUsed queue memory count head len = recordUsed start memory count head len := by
  rw [recordUsed, recordUsed, tracks.size, tracks.usedAddr]

/-- The queue once a chain has been taken under a head. -/
theorem taken_flags {head : UInt16} (inside : head.toNat < queue.size.toNat) :
    (queue.markTaken head).outstanding.length = queue.size.toNat ∧
      ∀ other : UInt16, (queue.markTaken head).outstanding[other.toNat]? = some true ↔
        held other (.popped head :: history) = true := by
  obtain ⟨whole, marks⟩ := markTaken_marks (UInt16.lt_iff_toNat_lt.mpr inside) tracks.tracked
  refine ⟨whole, fun other => ?_⟩
  rw [marks other, tracks.outstanding other, held]
  by_cases same : head = other
  · simp [same]
  · simp [same, Ne.symm same]

/-- A pop is decided by the entry the count has come to. -/
theorem pop_eq (memory : GuestMemory) :
    queue.pop memory = match offered queue memory (consumed history) with
      | none => (queue, none)
      | some head =>
          let moved := { queue with nextAvail := queue.nextAvail + 1 }
          if head.toNat < queue.size.toNat then
            (moved.markTaken head, some (DescriptorChain.new queue.descAddr queue.size head))
          else (moved, none) := by
  have slot : (queue.nextAvail % queue.size).toNat = consumed history % queue.size.toNat := by
    rw [tracks.nextAvail]
    exact tracks.usable.slot _
  unfold pop popSplit offered availIdx
  simp only [tracks.usable.ready, tracks.usable.split, Bool.not_true, Bool.false_eq_true,
    if_false, slot]
  cases memory.readU16 (address queue.availAddr 2) with
  | none => rfl
  | some idx =>
    have caught : idx = queue.nextAvail ↔ idx.toNat = consumed history % 65536 := by
      rw [tracks.nextAvail, ← UInt16.toNat_inj, UInt16.toNat_ofNat']
    simp only [Option.bind_eq_bind, Option.bind_some]
    by_cases level : idx.toNat = consumed history % 65536
    · rw [if_pos level, if_pos (caught.mpr level)]
    rw [if_neg level, if_neg (fun same => level (caught.mp same))]
    cases memory.readU16 (address queue.availAddr (4 + consumed history % queue.size.toNat * 2))
      with
    | none => rfl
    | some head => grind [ge_iff_le, UInt16.le_iff_toNat_le]

variable {head : UInt16}

/-- A head that is held is returned in the slot of the count. -/
theorem pushUsed_held (mine : held head history = true) (memory : GuestMemory) (len : UInt32) :
    queue.pushUsed memory head len =
      ({ queue with
        outstanding := queue.outstanding.set head.toNat false
        nextUsed := queue.nextUsed + 1 }, recordUsed queue memory (accepted history) head len) := by
  have marked := (tracks.outstanding head).mpr mine
  have slot : (UInt16.ofNat (accepted history) % queue.size).toNat =
      accepted history % queue.size.toNat := tracks.usable.slot _
  have wide : (UInt32.ofNat head.toNat).toNat = head.toNat := by
    rw [UInt32.toNat_ofNat']
    exact Nat.mod_eq_of_lt (Nat.lt_trans head.toNat_lt (by decide))
  unfold pushUsed pushUsedSplit recordUsed
  simp only [marked, tracks.usable.split, Bool.false_eq_true, if_false, tracks.nextUsed, slot,
    ofNat_succ, putU32, putU16, wide, UInt16.toNat_ofNat']

/-- Any other head changes nothing. -/
theorem pushUsed_unheld (other : held head history = false) (memory : GuestMemory) (len : UInt32) :
    queue.pushUsed memory head len = (queue, memory) := by
  unfold pushUsed
  split
  · next marked =>
    rw [(tracks.outstanding head).mp marked] at other
    cases other
  · rfl

/-- A head outside the ring is never held. -/
theorem held_inside (mine : held head history = true) : head.toNat < queue.size.toNat := by
  have marked := (tracks.outstanding head).mpr mine
  have inside := (List.getElem?_eq_some_iff.mp marked).1
  rcases tracks.tracked with blank | whole
  · rw [blank] at inside
    exact absurd inside (Nat.not_lt_zero _)
  · omega

/-- A pop keeps the ties, whatever it finds. -/
theorem pop (memory : GuestMemory) :
    Tracks start (after queue (.pop memory)) (observed queue (.pop memory) ++ history) := by
  have result := tracks.pop_eq memory
  cases entry : offered queue memory (consumed history) with
  | none =>
    rw [entry] at result
    have idle : observed queue (.pop memory) = [] := by simp [observed, result]
    rw [idle, after, result]
    exact tracks
  | some head =>
    rw [entry] at result
    have counter := congrArg (· + 1) tracks.nextAvail
    simp only [ofNat_succ] at counter
    by_cases inside : head.toNat < queue.size.toNat
    · simp only [inside, if_true] at result
      have seen : observed queue (.pop memory) = [.popped head] := by
        simp [observed, result, DescriptorChain.new]
      obtain ⟨whole, marks⟩ := tracks.taken_flags inside
      rw [seen, after, result]
      refine { tracks with
        usable := ⟨tracks.usable.ready, tracks.usable.split, tracks.usable.power⟩
        nextAvail := counter.trans (congrArg _ (consumed_popped head history).symm)
        tracked := Or.inr whole
        outstanding := marks
        matched := fun other => ?_ }
      have before := tracks.matched other
      by_cases same : head = other
      · subst same
        simp [held, pops, returns] at before ⊢
        split at before <;> omega
      · simpa [held, pops, returns, same] using before
    · simp only [inside, if_false] at result
      have seen : observed queue (.pop memory) = [.skipped] := by
        simp [observed, result]
      rw [seen, after, result]
      refine { tracks with
        usable := ⟨tracks.usable.ready, tracks.usable.split, tracks.usable.power⟩
        nextAvail := counter.trans (congrArg _ (consumed_skipped history).symm)
        matched := fun other => ?_ }
      simpa [held, pops, returns] using tracks.matched other

/-- A return keeps the ties, accepted or refused. -/
theorem pushUsed (memory : GuestMemory) (head : UInt16) (len : UInt32) :
    Tracks start (after queue (.pushUsed memory head len))
      (observed queue (.pushUsed memory head len) ++ history) := by
  cases mine : held head history with
  | false =>
    have refused := tracks.pushUsed_unheld mine memory len
    have idle : observed queue (.pushUsed memory head len) = [] := by simp [observed, refused]
    rw [idle, after, refused]
    exact tracks
  | true =>
    have result := tracks.pushUsed_held mine memory len
    have seen : observed queue (.pushUsed memory head len) = [.returned head] := by
      simp [observed, result]
    have counter := congrArg (· + 1) tracks.nextUsed
    simp only [ofNat_succ] at counter
    rw [seen, after, result]
    refine { tracks with
      usable := ⟨tracks.usable.ready, tracks.usable.split, tracks.usable.power⟩
      nextUsed := counter.trans (congrArg _ (accepted_returned head history).symm)
      tracked := ?_
      outstanding := ?_
      matched := ?_ }
    · have tracked := tracks.tracked
      grind
    · intro other
      change (queue.outstanding.set head.toNat false)[other.toNat]? = some true ↔
        held other (.returned head :: history) = true
      rw [List.getElem?_set, held]
      by_cases same : head = other
      · subst same
        simp
      · have apart : head.toNat ≠ other.toNat := fun equal => same (UInt16.toNat_inj.mp equal)
        rw [if_neg apart, tracks.outstanding other]
        simp [same]
    · intro other
      have before := tracks.matched other
      by_cases same : head = other
      · subst same
        simp [held, pops, returns, mine] at before ⊢
        exact before
      · simpa [held, pops, returns, same] using before

end

theorem step (start : Virtqueue) {record : Record} (tracks : Tracks start record.1 record.2)
    (call : Call) : Tracks start (step record call).1 (step record call).2 := by
  cases call with
  | pop memory => exact tracks.pop memory
  | pushUsed memory head len => exact tracks.pushUsed memory head len

end Tracks

theorem Fresh.tracks {queue : Virtqueue} (fresh : Fresh queue) : Tracks queue queue [] := by
  constructor
  · exact fresh.toUsable
  · rfl
  · rfl
  · rfl
  · rfl
  · exact fresh.nextAvail
  · exact fresh.nextUsed
  · exact Or.inl fresh.outstanding
  · intro head
    simp [fresh.outstanding, held]
  · intro head
    simp [returns, pops, held]

end Lighter.Virtio.Split
