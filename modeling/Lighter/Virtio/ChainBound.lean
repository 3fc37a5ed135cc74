import Lighter.Virtio.Queue

/-!
# What a hostile chain costs

The guest may write to its tables while the device walks them, so each descriptor the iterator
reads can be anything, whatever was read before. Here every read of a descriptor is answered by
an arbitrary function of its number and place, or fails; a memory that stands still is one such
function. Whatever the answers, a walk reads a bounded number of descriptors, and a split walk
only inside the tables it was sent to. The same goes for the pass that measures a packed chain.
-/

namespace Lighter.Virtio

open GuestMemory

/-- The fields of a descriptor's sixteen bytes, in the order both layouts have them. -/
structure Raw where
  addr : Nat
  len : UInt32
  third : UInt16
  fourth : UInt16
deriving DecidableEq, Repr

namespace DescriptorChain

def readRaw (memory : GuestMemory) (table : Nat) (index : UInt16) : Option Raw := do
  let addr := address table (index.toNat * descSize)
  let buffer ← memory.readU64 addr
  let len ← memory.readU32 (address addr 8)
  let third ← memory.readU16 (address addr 12)
  let fourth ← memory.readU16 (address addr 14)
  return ⟨buffer, len, third, fourth⟩

/-- Where a descriptor is read: the table, its length and the index. -/
structure Read where
  table : Nat
  tableLen : UInt16
  index : UInt16
deriving DecidableEq, Repr

/-- What an iteration read, in order, and whether it is over. -/
structure Walked where
  reads : List Read
  ended : Bool
deriving DecidableEq, Repr

/-- The iterator, and whether it goes round inside a call, where the bound is not checked
again for a packed chain. -/
structure Walker where
  chain : DescriptorChain
  inside : Bool
deriving DecidableEq, Repr

namespace Walker

/-- The index it reads next in its table, unless the iteration is over. -/
def asks (walker : Walker) : Option UInt16 :=
  let chain := walker.chain
  if !walker.inside && chain.walked > bound then none
  else
    match chain.walk with
    | .split next _ _ _ _ =>
        if chain.walked > bound then none else next.filter (· < chain.tableLen)
    | .packed start slots taken =>
        if taken ≥ slots then none else some ((start + taken) % max chain.tableLen 1)
    | .packedIndirect taken => if taken ≥ chain.tableLen then none else some taken

/-- What it makes of the fields: it yields a descriptor, or goes round again. -/
def told (walker : Walker) (raw : Raw) : Walker × Option Descriptor :=
  let chain := { walker.chain with walked := walker.chain.walked + 1 }
  match chain.walk with
  | .split _ indirect outerNext outerTable outerLen =>
      let desc : Descriptor := ⟨raw.addr, raw.len, raw.third, raw.fourth⟩
      if desc.isIndirect && !indirect then
        (⟨{ chain with
            walk := .split (some 0) true (if desc.hasNext then some desc.next else none)
              chain.table chain.tableLen
            table := desc.addr
            tableLen := indirectLen desc.len }, false⟩, none)
      else if desc.hasNext then
        (⟨{ chain with
            walk := .split (some desc.next) indirect outerNext outerTable outerLen }, false⟩,
          some desc)
      else if indirect then
        (⟨{ chain with
            table := outerTable
            tableLen := outerLen
            walk := .split outerNext false none 0 0 }, false⟩, some desc)
      else
        (⟨{ chain with walk := .split none indirect outerNext outerTable outerLen }, false⟩,
          some desc)
  | .packed start slots taken =>
      if raw.fourth &&& descIndirect != 0 then
        (⟨{ chain with
            table := raw.addr
            tableLen := indirectLen raw.len
            walk := .packedIndirect 0 }, true⟩, none)
      else
        (⟨{ chain with walk := .packed start slots (taken + 1) }, false⟩,
          some (plain ⟨raw.addr, raw.len, raw.third, raw.fourth⟩))
  | .packedIndirect taken =>
      (⟨{ chain with walk := .packedIndirect (taken + 1) }, false⟩,
        some (plain ⟨raw.addr, raw.len, raw.third, raw.fourth⟩))

/-- One round on a memory: with a result the call is over. -/
def round (memory : GuestMemory) (walker : Walker) : Walker × Option (Option Descriptor) :=
  match walker.asks with
  | none => (walker, some none)
  | some index =>
      match readRaw memory walker.chain.table index with
      | none => (walker, some none)
      | some raw => ((walker.told raw).1, (walker.told raw).2.map some)

variable (memory : GuestMemory)

theorem readDescriptor_eq (table : Nat) (index : UInt16) :
    readDescriptor memory table index =
      (readRaw memory table index).map fun raw => ⟨raw.addr, raw.len, raw.third, raw.fourth⟩ := by
  simp only [readDescriptor, readRaw]
  cases memory.readU64 (address table (index.toNat * descSize)) <;> simp

theorem readPacked_eq (table : Nat) (index : UInt16) :
    readPacked memory table index =
      (readRaw memory table index).map fun raw => ⟨raw.addr, raw.len, raw.third, raw.fourth⟩ := by
  simp only [readPacked, readRaw]
  cases memory.readU64 (address table (index.toNat * descSize)) <;> simp

/-- One turn of the split walk is one round. -/
theorem splitTurn_eq (chain : DescriptorChain) {next : Option UInt16}
    {indirect : Bool} {outerNext : Option UInt16} {outerTable : Nat} {outerLen : UInt16}
    (walk : chain.walk = .split next indirect outerNext outerTable outerLen) :
    splitTurn memory chain next indirect outerNext outerTable outerLen =
      ((round memory ⟨chain, false⟩).1.chain, (round memory ⟨chain, false⟩).2) := by
  simp only [splitTurn, round, asks, told, walk, readDescriptor_eq]
  grind

/-- The entries of a packed chain's table are read one round each. -/
theorem nextIndirect_eq (walker : Walker) {taken : UInt16}
    (walk : walker.chain.walk = .packedIndirect taken)
    (within : walker.inside = true ∨ ¬walker.chain.walked > bound) :
    nextIndirect memory walker.chain taken =
      ((round memory walker).1.chain, (round memory walker).2.join) := by
  simp only [nextIndirect, round, asks, told, walk, readPacked_eq]
  grind

/-- A walk that goes round again has entered a table and walks it as it walked before. -/
theorem round_again {memory : GuestMemory} {walker : Walker}
    (again : (round memory walker).2 = none) :
    match walker.chain.walk with
    | .split .. => (∃ next outerNext outerTable outerLen,
        (round memory walker).1.chain.walk = .split next true outerNext outerTable outerLen) ∧
        (round memory walker).1.inside = false
    | .packed .. => (round memory walker).1.chain.walk = .packedIndirect 0 ∧
        (round memory walker).1.inside = true
    | .packedIndirect _ => False := by
  simp only [round, told] at again ⊢
  grind

/-- One call of `next`, on a memory that stands still, is one round or two. -/
theorem next_eq_round (memory : GuestMemory) (chain : DescriptorChain) :
    chain.next memory =
      match round memory ⟨chain, false⟩ with
      | (walker, some result) => (walker.chain, result)
      | (walker, none) => ((round memory walker).1.chain, (round memory walker).2.join) := by
  by_cases spent : chain.walked > bound
  · simp [DescriptorChain.next, round, asks, spent]
  rw [DescriptorChain.next, if_neg spent]
  have again := @round_again memory ⟨chain, false⟩
  cases walk : chain.walk with
  | split next indirect outerNext outerTable outerLen =>
    simp only [walk] at again
    simp only [nextSplit, walk, splitTurn_eq memory chain walk]
    generalize round memory ⟨chain, false⟩ = after at again ⊢
    obtain ⟨⟨entered, inside⟩, result⟩ := after
    cases result with
    | some result => rfl
    | none => grind [splitTurn_eq]
  | packed start slots taken =>
    by_cases out : taken ≥ slots
    · simp [nextPacked, round, asks, walk, spent, out]
    have index : asks ⟨chain, false⟩ = some ((start + taken) % max chain.tableLen 1) := by
      simp [asks, walk, spent, out]
    simp only [nextPacked, walk, readPacked_eq, if_neg out, round, index]
    cases readRaw memory chain.table ((start + taken) % max chain.tableLen 1) with
    | none => rfl
    | some raw =>
      simp only [Option.map_some, told, walk]
      split
      · exact nextIndirect_eq memory ⟨_, true⟩ rfl (.inl rfl)
      · rfl
  | packedIndirect taken =>
    simp only [walk] at again
    simp only [nextPacked, walk, nextIndirect_eq memory ⟨chain, false⟩ walk (.inr spent)]
    generalize round memory ⟨chain, false⟩ = after at again ⊢
    obtain ⟨entered, result⟩ := after
    cases result with
    | some result => rfl
    | none => exact (again rfl).elim

/-! ## A walk over answers -/

/-- `for desc in chain`, up to a number of reads, where the reads are answered in turn. -/
def walk (answer : Nat → Nat → UInt16 → Option Raw) : Nat → Nat → Walker → Walked
  | 0, _, _ => ⟨[], false⟩
  | left + 1, clock, walker =>
      match walker.asks with
      | none => ⟨[], true⟩
      | some index =>
          let read : Read := ⟨walker.chain.table, walker.chain.tableLen, index⟩
          match answer clock walker.chain.table index with
          | none => ⟨[read], true⟩
          | some raw =>
              let rest := walk answer left (clock + 1) (walker.told raw).1
              ⟨read :: rest.reads, rest.ended⟩

variable {answer : Nat → Nat → UInt16 → Option Raw} {walker : Walker} {index : UInt16}

/-- Inside a call the bound is not reached yet, and a packed chain has read as many entries as
it has taken, of at most as many as the bound. -/
structure Bounded (walker : Walker) : Prop where
  inside : walker.inside = true → walker.chain.walked ≤ bound
  packed : ∀ start slots taken, walker.chain.walk = .packed start slots taken →
    walker.chain.walked = taken.toNat ∧ slots.toNat ≤ bound

theorem Bounded.asks (bounded : Bounded walker) (asks : walker.asks = some index) :
    walker.chain.walked ≤ bound := by
  have inside := bounded.inside
  unfold Walker.asks at asks
  grind

theorem walked_told (walker : Walker) (raw : Raw) :
    (walker.told raw).1.chain.walked = walker.chain.walked + 1 := by
  simp only [told]
  grind

theorem Bounded.told (bounded : Bounded walker) (asks : walker.asks = some index) (raw : Raw) :
    Bounded (walker.told raw).1 := by
  obtain ⟨_, packed⟩ := bounded
  cases walk : walker.chain.walk with
  | split next indirect outerNext outerTable outerLen | packedIndirect taken =>
    constructor <;> simp only [Walker.told, walk] <;> grind
  | packed start slots taken =>
    obtain ⟨walked, small⟩ := packed start slots taken walk
    have more : taken.toNat < slots.toNat := by
      simp only [Walker.asks, walk] at asks
      split at asks
      · cases asks
      · split at asks
        · cases asks
        · exact UInt16.lt_iff_toNat_lt.mp (UInt16.not_le.mp ‹_›)
    have next : (taken + 1).toNat = taken.toNat + 1 := by
      have fits := slots.toNat_lt
      simp only [UInt16.toNat_add, UInt16.reduceToNat]
      omega
    simp only [Walker.told, walk]
    split
    · exact ⟨fun _ => by dsimp only; omega, nofun⟩
    · refine ⟨nofun, fun _ _ _ same => ?_⟩
      cases same
      exact ⟨by dsimp only; omega, small⟩

/-- Every read comes before the bound, so the reads of a walk are at most those left to it and
one more, and with that many the walk is over. -/
theorem walk_bounded (left clock : Nat) (walker : Walker) (bounded : Bounded walker)
    (begun : walker.chain.walked ≤ bound + 1) :
    (walk answer left clock walker).reads.length + walker.chain.walked ≤ bound + 1 ∧
      (bound + 1 < left + walker.chain.walked → (walk answer left clock walker).ended = true) := by
  induction left generalizing clock walker with
  | zero => exact ⟨by simpa [walk] using begun, fun enough => by omega⟩
  | succ left ih =>
    unfold walk
    split
    · exact ⟨by simpa using begun, fun _ => rfl⟩
    rename_i index asks
    have early := bounded.asks asks
    split
    · exact ⟨by simp; omega, fun _ => rfl⟩
    rename_i raw _
    have walked := walked_told walker raw
    obtain ⟨reads, ended⟩ := ih (clock + 1) _ (bounded.told asks raw) (by omega)
    rw [walked] at reads ended
    refine ⟨?_, fun enough => ended (by omega)⟩
    simp only [List.length_cons]
    omega

/-- A call that yields a descriptor has counted it, and had not passed the bound. -/
theorem walked_next {memory : GuestMemory} {chain after : DescriptorChain} {desc : Descriptor}
    (yields : chain.next memory = (after, some desc)) :
    chain.walked ≤ bound ∧ chain.walked < after.walked := by
  have counted (walker : Walker) : walker.chain.walked ≤ (round memory walker).1.chain.walked ∧
      ((round memory walker).2 ≠ some none →
        walker.chain.walked < (round memory walker).1.chain.walked) := by
    simp only [round]
    grind [walked_told]
  refine ⟨?_, ?_⟩
  · grind [DescriptorChain.next]
  · rw [next_eq_round] at yields
    grind

/-- `for desc in chain` ends by itself: however many descriptors it may take, it takes the first
of one list, which is no longer than what the bound leaves. -/
theorem iteration_ends (memory : GuestMemory) (chain : DescriptorChain) (left : Nat) :
    descriptorsWithin memory left chain = (descriptors memory chain).take left ∧
      (descriptors memory chain).length ≤ bound + 1 - chain.walked := by
  unfold descriptors
  have enough : bound + 1 - chain.walked ≤ bound + 2 := by omega
  generalize bound + 2 = most at enough ⊢
  induction most generalizing chain left with
  | zero =>
    have stops : chain.next memory = (chain, none) := if_pos (by omega)
    cases left <;> simp [descriptorsWithin, stops]
  | succ most ih =>
    rcases called : chain.next memory with ⟨after, _ | desc⟩
    · cases left <;> simp [descriptorsWithin, called]
    · obtain ⟨early, counted⟩ := walked_next called
      have rest := fun left => ih after left (by omega)
      have few := (rest 0).2
      simp only [descriptorsWithin, called, List.length_cons]
      refine ⟨?_, by omega⟩
      cases left with
      | zero => rfl
      | succ left => simp only [descriptorsWithin, called, List.take_succ_cons, (rest left).1]

/-! ## The tables of a split walk -/

/-- A table the walk was sent to: the queue's own, or one that an answer with the indirect flag
points at. -/
def Listed (answer : Nat → Nat → UInt16 → Option Raw) (own : Nat × UInt16) (table : Nat)
    (tableLen : UInt16) : Prop :=
  (table, tableLen) = own ∨ ∃ clock place index raw, answer clock place index = some raw ∧
    raw.third &&& descIndirect ≠ 0 ∧ table = raw.addr ∧ tableLen = indirectLen raw.len

/-- A split walk is in such a table, and has come from one. -/
def Sent (answer : Nat → Nat → UInt16 → Option Raw) (own : Nat × UInt16) (walker : Walker) : Prop :=
  Listed answer own walker.chain.table walker.chain.tableLen ∧
    ∃ next indirect outerNext outerTable outerLen,
      walker.chain.walk = .split next indirect outerNext outerTable outerLen ∧
        (indirect = true → Listed answer own outerTable outerLen)

theorem Sent.told {own : Nat × UInt16} (sent : Sent answer own walker) {clock place : Nat}
    {raw : Raw} (told : answer clock place index = some raw) :
    Sent answer own (walker.told raw).1 := by
  obtain ⟨here, next, indirect, outerNext, outerTable, outerLen, walk, outer⟩ := sent
  simp only [Walker.told, walk]
  split
  · rename_i enters
    rw [Bool.and_eq_true] at enters
    exact ⟨.inr ⟨clock, place, index, raw, told, by simpa [Descriptor.isIndirect] using enters.1,
      rfl, rfl⟩, _, _, _, _, _, rfl, fun _ => here⟩
  split
  · exact ⟨here, _, _, _, _, _, rfl, outer⟩
  split
  · rename_i inside
    exact ⟨outer inside, _, _, _, _, _, rfl, nofun⟩
  · exact ⟨here, _, _, _, _, _, rfl, outer⟩

/-- Every read of a split walk is inside its table. -/
theorem walk_inside {own : Nat × UInt16} (left clock : Nat) (walker : Walker)
    (sent : Sent answer own walker) :
    ∀ read ∈ (walk answer left clock walker).reads,
      read.index < read.tableLen ∧ Listed answer own read.table read.tableLen := by
  induction left generalizing clock walker with
  | zero => simp [walk]
  | succ left ih =>
    unfold walk
    split
    · simp
    rename_i index asks
    obtain ⟨here, next, indirect, outerNext, outerTable, outerLen, is, _⟩ := id sent
    have below : index < walker.chain.tableLen := by
      simp only [Walker.asks, is] at asks
      split at asks
      · cases asks
      · split at asks
        · cases asks
        · simpa using (Option.filter_eq_some_iff.mp asks).2
    split
    · simpa using ⟨below, here⟩
    rename_i raw told
    intro read member
    rcases List.mem_cons.mp member with rfl | later
    · exact ⟨below, here⟩
    · exact ih (clock + 1) _ (sent.told told) read later

end Walker
end DescriptorChain

namespace Virtqueue

open DescriptorChain Walker

/-! ## The pass that measures a packed chain -/

/-- `measure`, where the reads of an entry's id and flags are answered in turn: the entries it
reads after the first, and the slots it finds. -/
def measureOver (size start : UInt16) (answer : Nat → UInt16 → Option (UInt16 × UInt16)) :
    (left : Nat) → (slots flags : UInt16) → List UInt16 × UInt16
  | 0, slots, _ => ([], slots)
  | left + 1, slots, flags =>
      if flags &&& descNext = 0 then ([], slots)
      else if slots ≥ size then ([], slots)
      else
        let index := (start + slots) % size
        match answer left index with
        | none => ([index], slots)
        | some (_, flags) =>
            let rest := measureOver size start answer left (slots + 1) flags
            (index :: rest.1, rest.2)

/-- The id and the flags of an entry, on a memory that stands still. -/
def entryOf (queue : Virtqueue) (memory : GuestMemory) (index : UInt16) :
    Option (UInt16 × UInt16) := do
  let id ← memory.readU16 (address (queue.descAt index) 12)
  let flags ← memory.readU16 (address (queue.descAt index) 14)
  return (id, flags)

/-- The model's pass is one over the entries that the memory holds. -/
theorem measure_eq (queue : Virtqueue) (memory : GuestMemory) (start : UInt16) (left : Nat)
    (slots flags id : UInt16) :
    (queue.measure memory start left slots flags id).1 =
      (measureOver queue.size start (fun _ => queue.entryOf memory) left slots flags).2 := by
  induction left generalizing slots flags id with
  | zero => rfl
  | succ left ih =>
    simp only [measure, measureOver, entryOf]
    cases memory.readU16 (address (queue.descAt ((start + slots) % queue.size)) 12) <;>
      cases memory.readU16 (address (queue.descAt ((start + slots) % queue.size)) 14) <;>
      simp only [Option.bind_eq_bind, Option.bind_some, Option.bind_none, Option.pure_def] <;>
      grind

/-- However long the pass may take, it reads no more entries than the ring has left. -/
theorem measureOver_bounded (size start : UInt16)
    (answer : Nat → UInt16 → Option (UInt16 × UInt16)) (left : Nat) (slots flags : UInt16) :
    (measureOver size start answer left slots flags).1.length + slots.toNat ≤
        max size.toNat slots.toNat ∧
      (measureOver size start answer left slots flags).2.toNat ≤ max size.toNat slots.toNat := by
  induction left generalizing slots flags with
  | zero => simp [measureOver]
  | succ left ih =>
    unfold measureOver
    split
    · simp
    split
    · simp
    rename_i few
    have few : slots.toNat < size.toNat := UInt16.lt_iff_toNat_lt.mp (UInt16.not_le.mp few)
    have next : (slots + 1).toNat = slots.toNat + 1 := by
      have fits := size.toNat_lt
      simp only [UInt16.toNat_add, UInt16.reduceToNat]
      omega
    dsimp only
    split
    · simp only [List.length_singleton]
      omega
    · grind

/-! ## Popped chains -/

/-- A chain the queue hands out, whatever was read on the way: any head of a split ring, and of
a packed ring one entry, or as many as the pass has found. -/
inductive Hands (queue : Virtqueue) : DescriptorChain → Prop
  | split (layout : queue.packed = false) (head : UInt16) :
      Hands queue (DescriptorChain.new queue.descAddr queue.size head)
  | indirect (layout : queue.packed = true) (start id : UInt16) :
      Hands queue (DescriptorChain.packed queue.descAddr queue.size start 1 id)
  | measured (layout : queue.packed = true) (start id flags : UInt16) (left : Nat)
      (answer : Nat → UInt16 → Option (UInt16 × UInt16)) :
      Hands queue (DescriptorChain.packed queue.descAddr queue.size start
        (measureOver queue.size start answer left 1 flags).2 id)

/-- What a pop returns is handed out by the queue. -/
theorem hands_pop {queue after : Virtqueue} {memory : GuestMemory} {chain : DescriptorChain}
    (popped : queue.pop memory = (after, some chain)) : Hands queue chain := by
  unfold pop at popped
  split at popped
  · cases popped
  split at popped
  · rename_i layout
    unfold popPacked at popped
    dsimp only at popped
    split at popped
    · cases popped
    rename_i flags _
    split at popped
    · cases popped
    split at popped
    · split at popped
      · split at popped <;> cases popped
        exact .indirect layout _ _
      · split at popped <;> cases popped
        simp only [advanceAvail, markTaken, measure_eq]
        exact .measured layout _ _ flags _ _
    · cases popped
  · rename_i layout
    unfold popSplit at popped
    split at popped
    · cases popped
    split at popped
    · cases popped
    dsimp only at popped
    split at popped
    · cases popped
    · split at popped <;> cases popped
      exact .split (Bool.eq_false_iff.mpr layout) _

theorem Hands.bounded {queue : Virtqueue} {chain : DescriptorChain} (hands : Hands queue chain)
    (supported : queue.packed = true → queue.size.toNat ≤ 2 * maxQueueSize.toNat) :
    Bounded ⟨chain, false⟩ ∧ chain.walked = 0 := by
  have positive : (1 : UInt16).toNat = 1 := rfl
  cases hands with
  | split layout head => exact ⟨⟨nofun, nofun⟩, rfl⟩
  | indirect layout start id =>
    refine ⟨⟨nofun, fun _ _ _ same => ?_⟩, rfl⟩
    cases same
    exact ⟨rfl, by decide⟩
  | measured layout start id flags left answer =>
    refine ⟨⟨nofun, fun _ _ _ same => ?_⟩, rfl⟩
    cases same
    have few := (measureOver_bounded queue.size start answer left 1 flags).2
    have size := supported layout
    rw [positive] at few
    have large : maxQueueSize.toNat = 256 := rfl
    refine ⟨rfl, ?_⟩
    unfold bound
    omega

theorem Hands.sent {queue : Virtqueue} {chain : DescriptorChain} (hands : Hands queue chain)
    (layout : queue.packed = false) (answer : Nat → Nat → UInt16 → Option Raw) :
    Sent answer (queue.descAddr, queue.size) ⟨chain, false⟩ := by
  cases hands with
  | split _ head => exact ⟨.inl rfl, _, _, _, _, _, rfl, nofun⟩
  | indirect other _ _ | measured other _ _ _ _ _ => rw [layout] at other; cases other

/-- What `pop` returns is such a chain. Whatever the guest writes while one is taken and walked:
the pass that measures a packed chain reads no more entries than the ring has, the walk ends after
at most `2 * MAX_QUEUE_SIZE + 1` descriptors, and a split walk reads each inside its table, which
is the queue's own or one it was sent to. -/
theorem chain_costs_bounded (queue : Virtqueue)
    (supported : queue.packed = true → queue.size.toNat ≤ 2 * maxQueueSize.toNat)
    (chain : DescriptorChain) (hands : Hands queue chain)
    (answer : Nat → Nat → UInt16 → Option Raw)
    (entry : Nat → UInt16 → Option (UInt16 × UInt16)) :
    (∀ left start flags, 1 + (measureOver queue.size start entry left 1 flags).1.length ≤
        max queue.size.toNat 1) ∧
      (∀ left, (walk answer left 0 ⟨chain, false⟩).reads.length ≤ 2 * maxQueueSize.toNat + 1) ∧
      (∀ left, 2 * maxQueueSize.toNat + 1 < left →
        (walk answer left 0 ⟨chain, false⟩).ended = true) ∧
      (queue.packed = false → ∀ left, ∀ read ∈ (walk answer left 0 ⟨chain, false⟩).reads,
        read.index < read.tableLen ∧
          Listed answer (queue.descAddr, queue.size) read.table read.tableLen) ∧
      ∀ memory after popped, queue.pop memory = (after, some popped) → Hands queue popped := by
  obtain ⟨bounded, fresh⟩ := hands.bounded supported
  have twice : bound = 2 * maxQueueSize.toNat := Nat.mul_comm _ _
  have walked := fun left => @walk_bounded answer left 0 ⟨chain, false⟩ bounded
    (by rw [fresh]; exact Nat.zero_le _)
  simp only [fresh, twice, Nat.add_zero] at walked
  refine ⟨fun left start flags => ?_, fun left => (walked left).1, fun left => (walked left).2,
    fun layout left => walk_inside left 0 _ (hands.sent layout answer),
    fun _ _ _ result => hands_pop result⟩
  have entries := (measureOver_bounded queue.size start entry left 1 flags).1
  rw [Nat.add_comm] at entries
  exact entries

/-- A ring of two entries, the first of which points at itself for ever. -/
def looping : Virtqueue :=
  { Virtqueue.new 2 with
    descAddr := 0x1000, availAddr := 0x2000, usedAddr := 0x3000, ready := true }

theorem chain_costs_bounded_looping :
    (walk (fun _ _ _ => some ⟨0, 0, descNext, 0⟩) 1000 0
        ⟨DescriptorChain.new 0x1000 2 0, false⟩).reads.length = 513 ∧
      (walk (fun _ _ _ => some ⟨0, 0, descNext, 0⟩) 1000 0
        ⟨DescriptorChain.new 0x1000 2 0, false⟩).reads.length ≤ 2 * maxQueueSize.toNat + 1 :=
  ⟨by decide +kernel,
    (chain_costs_bounded looping nofun _ (.split rfl 0) _ fun _ _ => none).2.1 1000⟩

end Virtqueue
end Lighter.Virtio
