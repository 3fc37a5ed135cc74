import Lighter.Lib.Transition
import Lighter.Virtio.Block

/-!
# Every request of a block device is completed once

The chains taken since the last reset are those returned since, those the queue refused to
return, and those held. A held request is counted for its own queue, and no queue holds more
than its ring has room for. Behind a request that waits for room there may be others; each of
these waits for something before it.

A queue refuses to return a head that is not outstanding. What is outstanding is held, whatever
the driver offers; if the driver offers a head again only when the chain it offered under it is
back, what is held is outstanding too, and nothing is refused.
-/

namespace Lighter.Virtio.Blk

open World List Function

/-! ## The record -/

/-- Where a chain goes back: its queue, and the head it was offered under. -/
def Taken.place (taken : Taken) : UInt16 × UInt16 := (taken.queue, taken.head)

/-- The chain that an event takes. -/
def Event.pops : Event → Option Taken
  | .popped taken => some taken
  | _ => none

/-- The chain that an event returns. -/
def Event.pushes : Event → Option Taken
  | .pushed taken => some taken
  | _ => none

/-- The chain that an event refuses to return. -/
def Event.refuses : Event → Option Taken
  | .refused taken => some taken
  | _ => none

/-- The chains taken, returned and refused, according to a record. -/
def pops (log : List Event) : List Taken := log.filterMap Event.pops

@[inherit_doc pops]
def pushes (log : List Event) : List Taken := log.filterMap Event.pushes

@[inherit_doc pops]
def refusals (log : List Event) : List Taken := log.filterMap Event.refuses

/-- What happened since the last reset. -/
def session (log : List Event) : List Event :=
  log.foldl (fun kept event => if event = .reset then [] else kept ++ [event]) []

/-- Each chain returned or refused was taken since the last reset before that. -/
def Separate (log : List Event) : Prop :=
  ∀ before after, log = before ++ .reset :: after →
    ∀ taken, .pushed taken ∈ after ∨ .refused taken ∈ after → .popped taken ∈ after

/-- The driver offers a head again only if the chain that it offered under it is back. -/
def Orderly (log : List Event) : Prop :=
  ∀ before taken after, log = before ++ .popped taken :: after →
    ∀ other ∈ pops (session before), other.place = taken.place → other ∈ pushes (session before)

section

variable {log : List Event}

theorem session_note (log : List Event) {event : Event} (calm : event ≠ .reset) :
    session (log ++ [event]) = session log ++ [event] := by
  rw [session, foldl_append, ← session]
  simp [calm]

theorem session_reset (before after : List Event) :
    session (before ++ .reset :: after) = session after := by
  simp [session, foldl_append]

theorem session_sublist (log : List Event) : (session log).Sublist log := by
  induction log using reverseRecOn with
  | nil => exact Sublist.refl _
  | append_singleton log event ih =>
    rw [session, foldl_append, ← session]
    simp only [foldl_cons, foldl_nil]
    split
    · exact nil_sublist _
    · exact ih.append (Sublist.refl _)

theorem mem_pops {taken : Taken} : taken ∈ pops log ↔ .popped taken ∈ log := by
  simp only [pops, mem_filterMap]
  constructor
  · rintro ⟨event, inside, takes⟩
    cases event with
    | popped other =>
      cases takes
      exact inside
    | pushed other | refused other | reset => cases takes
  · intro inside
    exact ⟨_, inside, rfl⟩

/-- A chain that goes back is returned or refused, whichever, and none is taken by that. -/
theorem pops_back (log : List Event) (queue : Virtqueue) (taken : Taken) :
    pops (log ++ [Event.back queue taken]) = pops log := by
  grind [pops, Event.back, Event.pops]

@[inherit_doc pops_back]
theorem back_perm (log : List Event) (queue : Virtqueue) (taken : Taken) :
    (pushes (log ++ [Event.back queue taken]) ++ refusals (log ++ [Event.back queue taken])).Perm
      (taken :: (pushes log ++ refusals log)) := by
  grind [pushes, refusals, Event.back, Event.pushes, Event.refuses]

/-- It is one more of its queue's, if the queue has it outstanding. -/
theorem countP_back (log : List Event) (queue : Virtqueue) (taken : Taken) (index : Nat) :
    (pushes (log ++ [Event.back queue taken])).countP (·.queue.toNat = index) =
      (pushes log).countP (·.queue.toNat = index) +
        if taken.queue.toNat = index ∧ queue.outstanding[taken.head.toNat]? = some true
          then 1 else 0 := by
  grind [pushes, Event.back, Event.pushes]

/-- What comes after is the last session's, so a chain of that session may be returned. -/
theorem Separate.note (separate : Separate log) (event : Event)
    (own : ∀ taken, event = .pushed taken ∨ event = .refused taken → taken ∈ pops (session log)) :
    Separate (log ++ [event]) := by
  intro before after split taken returned
  rcases eq_nil_or_concat after with rfl | ⟨prior, last, rfl⟩
  · simp at returned
  rw [concat_eq_append, ← cons_append, ← append_assoc] at split
  rw [concat_eq_append] at returned ⊢
  obtain ⟨whole, same⟩ := append_inj' split rfl
  obtain rfl := cons.inj same |>.1
  have earlier := separate before prior whole taken
  have popped : taken ∈ pops (session log) → .popped taken ∈ prior := by
    rw [whole, session_reset]
    exact fun inside => (session_sublist prior).subset (mem_pops.mp inside)
  grind

/-- A driver that was orderly to the end was orderly before. -/
theorem Orderly.before {event : Event} (orderly : Orderly (log ++ [event])) : Orderly log := by
  rintro before taken after rfl
  exact orderly before taken (after ++ [event]) (by simp)

end

/-! ## The chains -/

/-- Whether a queue has a chain outstanding under a head. -/
def outstanding (queues : List Virtqueue) (place : UInt16 × UInt16) : Prop :=
  ∃ queue, queues[place.1.toNat]? = some queue ∧ queue.outstanding[place.2.toNat]? = some true

/-- The chains of a device, while some are held. -/
structure Ledger (queues : List Virtqueue) (log : List Event) (popped : Nat)
    (held : List Taken) : Prop where
  /-- A chain taken is returned, refused or held. -/
  exactly : (pushes (session log) ++ refusals (session log) ++ held).Perm (pops (session log))
  /-- No chain has another's number. -/
  numbered : (pops log).Pairwise fun first second => first.ticket < second.ticket
  below : ∀ taken ∈ pops log, taken.ticket < popped
  separate : Separate log
  known : ∀ taken ∈ held, taken.queue.toNat < queues.length
  /-- A queue has a mark for each place of its ring, from its first chain on. -/
  sized : ∀ (index : Nat) (queue : Virtqueue), queues[index]? = some queue →
    queue.outstanding = [] ∨ queue.outstanding.length = queue.size.toNat
  /-- The used index of a split ring counts the chains returned. -/
  used : ∀ (index : Nat) (queue : Virtqueue), queues[index]? = some queue → queue.packed = false →
    queue.nextUsed = UInt16.ofNat ((pushes (session log)).countP (·.queue.toNat = index))
  /-- What is outstanding is held. -/
  marked : ∀ place, outstanding queues place → place ∈ held.map Taken.place
  /-- With an orderly driver nothing is refused, and what is held is outstanding. -/
  orderly : Orderly log → refusals (session log) = [] ∧ (held.map Taken.place).Nodup ∧
    ∀ place ∈ held.map Taken.place, outstanding queues place

namespace Ledger

variable {queues : List Virtqueue} {log : List Event} {popped : Nat} {held : List Taken}
  {index : UInt16} {queue : Virtqueue} {memory : GuestMemory}

/-- In which order chains are held is nothing to the ledger. -/
theorem perm (ledger : Ledger queues log popped held) {others : List Taken}
    (same : others.Perm held) : Ledger queues log popped others where
  exactly := (same.append_left _).trans ledger.exactly
  numbered := ledger.numbered
  below := ledger.below
  separate := ledger.separate
  known := fun taken inside => ledger.known taken (same.subset inside)
  sized := ledger.sized
  used := ledger.used
  marked := fun place has => (same.map Taken.place).mem_iff.mpr (ledger.marked place has)
  orderly := by
    intro orderly
    obtain ⟨none, apart, every⟩ := ledger.orderly orderly
    exact ⟨none, (same.map _).nodup_iff.mpr apart,
      fun place inside => every place ((same.map _).mem_iff.mp inside)⟩

/-- The chains of a session are each another: they have each their number. -/
theorem nodup (ledger : Ledger queues log popped held) :
    (pushes (session log) ++ refusals (session log) ++ held).Nodup := by
  rw [ledger.exactly.nodup_iff]
  have sub : (pops (session log)).Sublist (pops log) := (session_sublist log).filterMap _
  refine (ledger.numbered.sublist sub).imp ?_
  rintro first second lower rfl
  exact Nat.lt_irrefl _ lower

/-- What holds of every queue still does if it holds of the one that has changed. -/
theorem each_set {law : Nat → Virtqueue → Prop} {place : Nat} {after : Virtqueue}
    (each : ∀ (index : Nat) (queue : Virtqueue), queues[index]? = some queue → index ≠ place →
      law index queue) (here : law place after) (index : Nat) (queue : Virtqueue)
    (found : (queues.set place after)[index]? = some queue) : law index queue := by
  rw [getElem?_set] at found
  split at found
  case isTrue same =>
    subst same
    split at found
    · cases found
      exact here
    · cases found
  case isFalse apart => exact each index queue found (Ne.symm apart)

/-- What is outstanding once one of the queues has changed. -/
theorem outstanding_set {after : Virtqueue} (found : queues[index.toNat]? = some queue)
    (place : UInt16 × UInt16) :
    outstanding (queues.set index.toNat after) place ↔
      if place.1 = index then after.outstanding[place.2.toNat]? = some true
      else outstanding queues place := by
  have inside : index.toNat < queues.length := (List.getElem?_eq_some_iff.mp found).1
  unfold outstanding
  rw [getElem?_set]
  by_cases same : place.1 = index
  · simp [same, inside]
  · have apart : index.toNat ≠ place.1.toNat := fun equal => same (UInt16.toNat_inj.mp equal).symm
    simp [same, apart]

/-- A chain of a queue is outstanding if the queue says so. -/
theorem outstanding_here {taken : Taken} (found : queues[taken.queue.toNat]? = some queue)
    (has : outstanding queues taken.place) :
    queue.outstanding[taken.head.toNat]? = some true := by
  obtain ⟨ring, there, marked⟩ := has
  cases found.symm.trans there
  exact marked

/-- A queue that was looked at, and had no chain to take. -/
theorem idle (ledger : Ledger queues log popped held) {after : Virtqueue}
    (found : queues[index.toNat]? = some queue) (none : queue.pop memory = (after, none)) :
    Ledger (queues.set index.toNat after) log popped held := by
  have marks : after.outstanding = queue.outstanding := Virtqueue.pop_marks none
  obtain ⟨size, packed, nextUsed⟩ := Virtqueue.pop_fields none
  have same : ∀ place, outstanding (queues.set index.toNat after) place ↔
      outstanding queues place := by
    intro place
    rw [outstanding_set found, marks]
    split
    case isTrue here => simp [outstanding, here, found]
    case isFalse => rfl
  refine { ledger with known := ?_, sized := ?_, used := ?_, marked := ?_, orderly := ?_ }
  · simpa using ledger.known
  · refine each_set (fun other ring there _ => ledger.sized other ring there) ?_
    rw [marks, size]
    exact ledger.sized _ queue found
  · refine each_set (fun other ring there _ => ledger.used other ring there) ?_
    rw [packed, nextUsed]
    exact ledger.used _ queue found
  · intro place has
    exact ledger.marked place ((same place).mp has)
  · intro orderly
    obtain ⟨none, apart, every⟩ := ledger.orderly orderly
    exact ⟨none, apart, fun place inside => (same place).mpr (every place inside)⟩

/-- A chain is taken from a queue. -/
theorem take (ledger : Ledger queues log popped held) {after : Virtqueue}
    {chain : DescriptorChain} (found : queues[index.toNat]? = some queue)
    (some : queue.pop memory = (after, some chain)) {taken : Taken}
    (named : taken = ⟨popped, index, chain.head⟩) :
    Ledger (queues.set index.toNat after) (log ++ [.popped taken]) (popped + 1)
      (taken :: held) := by
  obtain ⟨inside, marks⟩ := Virtqueue.pop_marks some
  obtain ⟨size, packed, nextUsed⟩ := Virtqueue.pop_fields some
  have listed : index.toNat < queues.length := (List.getElem?_eq_some_iff.mp found).1
  obtain ⟨whole, made⟩ := Virtqueue.markTaken_marks inside (ledger.sized _ queue found)
  have place : taken.place = (index, chain.head) := by rw [named]; rfl
  have more : ∀ place, outstanding (queues.set index.toNat after) place ↔
      place = taken.place ∨ outstanding queues place := by
    intro other
    rw [outstanding_set found, marks, made, place]
    split
    case isTrue here => simp [outstanding, Prod.ext_iff, here, found]
    case isFalse apart => simp [Prod.ext_iff, apart]
  have kept : session (log ++ [.popped taken]) = session log ++ [.popped taken] :=
    session_note log nofun
  have popsMore : ∀ log, pops (log ++ [.popped taken]) = pops log ++ [taken] := fun log => by
    simp [pops, Event.pops]
  have pushesSame : pushes (session log ++ [.popped taken]) = pushes (session log) := by
    simp [pushes, Event.pushes]
  have refusalsSame : refusals (session log ++ [.popped taken]) = refusals (session log) := by
    simp [refusals, Event.refuses]
  constructor
  · rw [kept, popsMore, pushesSame, refusalsSame]
    exact perm_middle.trans ((ledger.exactly.cons taken).trans (perm_append_singleton _ _).symm)
  · rw [popsMore, pairwise_append]
    refine ⟨ledger.numbered, pairwise_singleton _ _, fun first prior second last => ?_⟩
    rw [mem_singleton.mp last, named]
    exact ledger.below first prior
  · rw [popsMore]
    intro other there
    rcases mem_append.mp there with prior | last
    · exact Nat.lt_succ_of_lt (ledger.below other prior)
    · rw [mem_singleton.mp last, named]
      exact Nat.lt_succ_self _
  · apply ledger.separate.note
    simp
  · intro other there
    rw [length_set]
    rcases mem_cons.mp there with rfl | prior
    · rw [named]
      exact listed
    · exact ledger.known other prior
  · refine each_set (fun other ring there _ => ledger.sized other ring there) (.inr ?_)
    rw [marks, size, whole]
  · rw [kept, pushesSame]
    refine each_set (fun other ring there _ => ledger.used other ring there) ?_
    rw [packed, nextUsed]
    exact ledger.used _ queue found
  · intro other has
    rw [map_cons, mem_cons]
    exact ((more other).mp has).imp_right (ledger.marked other)
  · intro orderly
    obtain ⟨none, apart, every⟩ := ledger.orderly orderly.before
    rw [kept, refusalsSame]
    refine ⟨none, nodup_cons.mpr ⟨fun again => ?_, apart⟩, fun other there => ?_⟩
    · -- A chain that is held under this head was taken and is not back.
      obtain ⟨other, there, same⟩ := mem_map.mp again
      have back := orderly log taken [] rfl other
        (ledger.exactly.subset (mem_append_right _ there)) same
      have disjoint := (nodup_append.mp ledger.nodup).2.2
      exact disjoint other (mem_append_left _ back) other there rfl
    · rw [map_cons, mem_cons] at there
      exact (more other).mpr (there.imp_right (every other))

/-- A chain goes back to its queue. -/
theorem push {taken : Taken} (ledger : Ledger queues log popped (taken :: held))
    (found : queues[taken.queue.toNat]? = some queue) (memory : GuestMemory) (len : UInt32) :
    Ledger (queues.set taken.queue.toNat (queue.pushUsed memory taken.head len).1)
      (log ++ [Event.back queue taken]) popped held := by
  let after := (queue.pushUsed memory taken.head len).1
  have geometry : after.geometry = queue.geometry := queue.geometry_pushUsed ..
  have size : after.size = queue.size := congrArg Geometry.size geometry
  have packed : after.packed = queue.packed := congrArg Geometry.packed geometry
  obtain ⟨length, unmarked, nextUsed⟩ := queue.pushUsed_marks memory taken.head len
  have fewer : ∀ place, outstanding (queues.set taken.queue.toNat after) place ↔
      place ≠ taken.place ∧ outstanding queues place := by
    intro place
    rw [outstanding_set found, unmarked]
    split
    case isTrue here => simp [outstanding, Taken.place, Prod.ext_iff, here, found]
    case isFalse apart => simp [Taken.place, Prod.ext_iff, apart]
  have calm : Event.back queue taken ≠ .reset := by grind [Event.back]
  have kept := session_note log calm
  constructor
  · rw [kept, pops_back]
    exact ((back_perm _ queue taken).append_right held).trans
      (perm_middle.symm.trans ledger.exactly)
  · rw [pops_back]
    exact ledger.numbered
  · rw [pops_back]
    exact ledger.below
  · apply ledger.separate.note
    have own : taken ∈ pops (session log) :=
      ledger.exactly.subset (mem_append_right _ mem_cons_self)
    grind [Event.back]
  · simpa using fun other there => ledger.known other (mem_cons_of_mem _ there)
  · refine each_set (fun other ring there _ => ledger.sized other ring there) ?_
    rw [← length_eq_zero_iff, length, size, length_eq_zero_iff]
    exact ledger.sized _ queue found
  · rw [kept]
    refine each_set (fun other ring there apart => ?_) fun split => ?_
    · rw [countP_back, if_neg (fun own => apart own.1.symm)]
      exact ledger.used other ring there
    · rw [packed] at split
      rw [countP_back, nextUsed split, ledger.used _ queue found split, UInt16.ofNat_add]
      congr 1
      by_cases has : queue.outstanding[taken.head.toNat]? = some true
      · rw [if_pos has, if_pos ⟨rfl, has⟩]
        rfl
      · rw [if_neg has, if_neg (fun own => has own.2)]
        rfl
  · intro place has
    obtain ⟨apart, before⟩ := (fewer place).mp has
    exact (mem_cons.mp (ledger.marked place before)).resolve_left apart
  · intro orderly
    obtain ⟨none, apart, every⟩ := ledger.orderly orderly.before
    obtain ⟨alone, apart⟩ := nodup_cons.mp apart
    have pushed : Event.back queue taken = .pushed taken :=
      if_pos (outstanding_here found (every taken.place mem_cons_self))
    rw [kept, pushed]
    refine ⟨by simpa [refusals, Event.refuses] using none, apart, fun place there => ?_⟩
    refine (fewer place).mpr ⟨?_, every place (mem_cons_of_mem _ there)⟩
    rintro rfl
    exact alone there

/-- Queues that are set up have nothing outstanding. -/
theorem setUp (queues : List Virtqueue) (quiet : session log = []) (numbered :
      (pops log).Pairwise fun first second => first.ticket < second.ticket)
    (below : ∀ taken ∈ pops log, taken.ticket < popped) (separate : Separate log) :
    Ledger (queues.map World.setUp) log popped [] := by
  have fresh : ∀ (index : Nat) (queue : Virtqueue), (queues.map World.setUp)[index]? = some queue →
      queue.outstanding = [] ∧ queue.nextUsed = 0 := by
    intro index queue found
    rw [getElem?_map, Option.map_eq_some_iff] at found
    obtain ⟨before, -, rfl⟩ := found
    exact ⟨rfl, rfl⟩
  constructor
  · rw [quiet]
    exact Perm.refl _
  · exact numbered
  · exact below
  · exact separate
  · nofun
  · exact fun index queue found => .inl (fresh index queue found).1
  · intro index queue found _
    rw [quiet]
    exact (fresh index queue found).2
  · rintro place ⟨queue, found, marked⟩
    rw [(fresh _ queue found).1] at marked
    cases marked
  · intro _
    rw [quiet]
    exact ⟨rfl, nodup_nil, nofun⟩

end Ledger

/-! ## The requests that wait -/

/-- How requests wait: the first of them for room, and each of the others for something
that was held before it. -/
structure Queued (block : Block) : Prop where
  headed : block.backlog ≠ [] → block.pending.isSome
  first : ∀ pending, block.pending = some pending → pending.request.operation.mutates = true
  blocked : ∀ before request after, block.backlog = before ++ request :: after →
    ∃ earlier ∈ (block.pending.map Pending.request).toList ++ before,
      request.operation.mayPass earlier.operation = false

/-- The tries of an operation keep what it is. -/
theorem perform_operation (block : Block) (memory : GuestMemory) (operation : Operation) :
    (block.perform memory operation).operation.mutates = operation.mutates ∧
      (block.perform memory operation).operation.mutationRange = operation.mutationRange := by
  cases operation with
  | read offset body => grind [Block.perform]
  | write offset body done =>
    unfold Block.perform
    dsimp only
    split <;> exact ⟨rfl, rfl⟩
  | flush | id body | discard offset len | zero offset len unmap done => exact ⟨rfl, rfl⟩

/-- What may pass an operation depends on what the operation is going to change. -/
theorem mayPass_congr {first second : Operation} (operation : Operation)
    (same : first.mutationRange = second.mutationRange) :
    operation.mayPass first = operation.mayPass second := by
  unfold Operation.mayPass
  rw [same]

/-- An operation looks at nothing of the device but the file. -/
theorem perform_congr {first second : Block} (same : first.disk = second.disk)
    (memory : GuestMemory) (operation : Operation) :
    first.perform memory operation = second.perform memory operation := by
  cases operation <;> simp [Block.perform, same]

namespace Queued

variable {block : Block} {pending : Pending}

theorem empty (free : block.pending = none) (clear : block.backlog = []) : Queued block := by
  constructor
  · intro some
    exact absurd clear some
  · intro pending found
    rw [free] at found
    cases found
  · grind

theorem of_eq {after : Block} (queued : Queued block) (pending : after.pending = block.pending)
    (backlog : after.backlog = block.backlog) : Queued after := by
  constructor
  · rw [backlog, pending]
    exact queued.headed
  · rw [pending]
    exact queued.first
  · rw [backlog, pending]
    exact queued.blocked

/-- Another request waits for those that are held. -/
theorem hold (queued : Queued block) (some : block.pending.isSome = true) {request : Request}
    (behind : block.canPass request.operation = false) :
    Queued { block with backlog := block.backlog ++ [request] } := by
  constructor
  · intro _
    exact some
  · exact queued.first
  intro before other after split
  rcases eq_nil_or_concat after with rfl | ⟨prior, last, rfl⟩
  · obtain ⟨rfl, same⟩ := append_inj' split rfl
    obtain rfl := (cons.inj same).1
    rw [Block.canPass, Bool.and_eq_false_iff] at behind
    rcases behind with head | tail
    · obtain ⟨pending, found⟩ := Option.isSome_iff_exists.mp some
      rw [found, Option.all_some] at head
      exact ⟨pending.request, by simp [found], head⟩
    · grind
  · rw [concat_eq_append, ← cons_append, ← append_assoc] at split
    obtain ⟨whole, _⟩ := append_inj' split rfl
    exact queued.blocked before other prior whole

/-- A request waits for room, and nothing is behind it. -/
theorem pend (clear : block.backlog = []) (mutates : pending.request.operation.mutates = true) :
    Queued { block with pending := some pending } := by
  constructor
  · intro _
    rfl
  · rintro _ ⟨⟩
    exact mutates
  · grind

/-- What is pending may be another operation that is going to change the same range. -/
theorem again (queued : Queued block) (found : block.pending = some pending) (after : Pending)
    (mutates : after.request.operation.mutates = pending.request.operation.mutates)
    (range : after.request.operation.mutationRange = pending.request.operation.mutationRange) :
    Queued { block with pending := some after } := by
  constructor
  · intro _
    rfl
  · rintro _ ⟨⟩
    rw [mutates]
    exact queued.first pending found
  · have blocked := queued.blocked
    grind [mayPass_congr]

/-- What goes past a pending request needs no room. -/
theorem passing {request : Request} (found : block.pending = some pending)
    (free : block.canPass request.operation = true) : request.operation.mutates = false := by
  rw [Block.canPass, found, Option.all_some, Bool.and_eq_true] at free
  have passes := free.1
  cases operation : request.operation with
  | read offset body => rfl
  | id body => rfl
  | write offset body done | flush | discard offset len | zero offset len unmap done =>
    rw [operation] at passes; cases passes

end Queued

/-! ## The books -/

/-- The books of the device, while some requests and some chains are in hand. -/
structure Books (world : World) (rest : List Request) (loose : List Taken) : Prop where
  ledger : Ledger world.queues world.log world.popped
    ((world.block.waiting ++ rest).map Request.taken ++ loose)
  /-- A request that is held is counted for its queue. -/
  counts : ∀ queue, world.block.retained queue =
    ((world.block.waiting ++ rest).map Request.taken).countP fun taken =>
      taken.queue.toNat = queue
  room : ∀ (index : Nat) (queue : Virtqueue), world.queues[index]? = some queue →
    world.block.retained index ≤ queue.size.toNat

/-- A chain has gone back: it is returned, or refused if the driver was not orderly. -/
def Back (taken : Taken) (before after : List Event) : Prop :=
  ∃ event ∈ after.drop before.length, (event = .pushed taken ∨ event = .refused taken) ∧
    (Orderly before → event = .pushed taken)

/-- What is noted later changes nothing about a chain that is back. -/
theorem Back.later {taken : Taken} {before after last : List Event}
    (back : Back taken before after) (grown : after <+: last) : Back taken before last := by
  obtain ⟨event, inside, which⟩ := back
  obtain ⟨more, rfl⟩ := grown
  refine ⟨event, ?_, which⟩
  rw [drop_append]
  exact mem_append_left _ inside

namespace Books

variable {world : World} {request : Request} {rest : List Request} {loose : List Taken}
  {taken : Taken} {queue : Virtqueue}

/-- Another file and another memory are nothing to the books. -/
theorem rewrite (books : Books world rest loose) (disk : Disk) (memory : GuestMemory) :
    Books { world with block := { world.block with disk := disk }, memory := memory } rest loose :=
  ⟨books.ledger, books.counts, books.room⟩

/-- A request that was tried has its chain still. -/
theorem tried (books : Books world (request :: rest) loose) (operation : Operation) :
    Books world ({ request with operation := operation } :: rest) loose := by
  obtain ⟨ledger, counts, room⟩ := books
  rw [map_append, map_cons] at ledger
  simp only [map_append, map_cons] at counts
  refine ⟨?_, ?_, room⟩
  · rw [map_append, map_cons]
    exact ledger
  · simp only [map_append, map_cons]
    exact counts

/-- The chain goes back. -/
theorem pushUsed (books : Books world rest (taken :: loose)) (len : UInt32) :
    Books (world.pushUsed taken len) rest loose ∧
      Back taken world.log (world.pushUsed taken len).log := by
  have ledger := books.ledger.perm perm_middle.symm
  obtain ⟨queue, found⟩ : ∃ queue, world.queues[taken.queue.toNat]? = some queue :=
    ⟨_, getElem?_eq_getElem (ledger.known taken mem_cons_self)⟩
  unfold World.pushUsed
  rw [found]
  dsimp only
  refine ⟨⟨ledger.push found world.memory len, books.counts, ?_⟩,
    Event.back queue taken, by simp [note], by grind [Event.back], fun orderly => ?_⟩
  · refine Ledger.each_set (fun other ring there _ => books.room other ring there) ?_
    rw [show Virtqueue.size _ = _ from congrArg Geometry.size (Virtqueue.geometry_pushUsed ..)]
    exact books.room _ _ found
  · have every := (ledger.orderly orderly).2.2
    exact if_pos (Ledger.outstanding_here found (every taken.place mem_cons_self))

/-- The status is written, and the chain goes back. -/
theorem complete (books : Books world rest (taken :: loose)) (status : Descriptor)
    (result : UInt8 × UInt32) :
    Books (world.complete taken status result) rest loose ∧
      Back taken world.log (world.complete taken status result).log :=
  (books.rewrite world.block.disk
    ((world.memory.write status.addr [result.1]).getD world.memory)).pushUsed (result.2 + 1)

/-- A request in hand is one more chain, and one more request. -/
theorem moved (waiting rest : List Request) (request : Request) (loose : List Taken) :
    ((waiting ++ rest).map Request.taken ++ request.taken :: loose).Perm
      ((waiting ++ request :: rest).map Request.taken ++ loose) := by
  grind

/-- A request that is no longer held is no longer counted. -/
theorem release (books : Books world (request :: rest) loose) :
    Books (world.release request.taken.queue) rest (request.taken :: loose) := by
  refine ⟨books.ledger.perm (moved ..), fun queue => ?_, fun index queue found => ?_⟩
  · have before := books.counts queue
    rw [map_append, map_cons, countP_append, countP_cons] at before
    change update world.block.retained request.taken.queue.toNat _ queue = _
    rw [update_apply, map_append, countP_append]
    change _ = countP _ (world.block.waiting.map Request.taken) + _
    by_cases own : queue = request.taken.queue.toNat
    · grind
    · grind
  · have least := books.room index queue found
    change update world.block.retained request.taken.queue.toNat _ index ≤ _
    rw [update_apply]
    split
    · rename_i own
      rw [← own]
      omega
    · exact least

/-- A chain is taken from a queue. -/
theorem take (books : Books world rest loose) {index : UInt16} {after : Virtqueue}
    {chain : DescriptorChain} (found : world.queues[index.toNat]? = some queue)
    (popped : queue.pop world.memory = (after, some chain)) :
    Books ({ world with queues := world.queues.set index.toNat after }.take index chain.head) rest
      (⟨world.popped, index, chain.head⟩ :: loose) := by
  refine ⟨(books.ledger.take found popped rfl).perm perm_middle, books.counts, ?_⟩
  refine Ledger.each_set (fun other ring there _ => books.room other ring there) ?_
  rw [(Virtqueue.pop_fields popped).1]
  exact books.room _ _ found

/-- A request is accepted where its queue has room. -/
theorem enter (books : Books world rest (request.taken :: loose))
    (space : ∀ queue, world.queues[request.taken.queue.toNat]? = some queue →
      world.block.retained request.taken.queue.toNat < queue.size.toNat) :
    Books (world.enter request) (request :: rest) loose := by
  refine ⟨books.ledger.perm (moved ..).symm, fun queue => ?_, fun index queue found => ?_⟩
  · have before := books.counts queue
    rw [map_append, countP_append] at before
    change update world.block.retained request.taken.queue.toNat _ queue = _
    rw [update_apply, map_append, map_cons, countP_append, countP_cons]
    change _ = countP _ (world.block.waiting.map Request.taken) + _
    by_cases own : queue = request.taken.queue.toNat
    · grind
    · grind
  · change update world.block.retained request.taken.queue.toNat _ index ≤ _
    rw [update_apply]
    split
    · rename_i own
      subst own
      exact space queue found
    · exact books.room index queue found

/-- Which of the requests are pending, in the backlog or in hand is nothing to the books. -/
theorem regroup (books : Books world rest loose) {pending : Option Pending}
    {backlog others : List Request}
    (same : (((pending.map Pending.request).toList ++ backlog ++ others).map Request.taken).Perm
      ((world.block.waiting ++ rest).map Request.taken)) :
    Books { world with block := { world.block with pending := pending, backlog := backlog } }
      others loose :=
  ⟨books.ledger.perm (same.append_right loose),
    fun queue => (books.counts queue).trans (same.countP_eq _).symm, books.room⟩

end Books

/-- The books, and how the requests wait. -/
structure Kept (world : World) (rest : List Request) : Prop where
  books : Books world rest []
  queued : Queued world.block

section

variable (world : World) (taken : Taken) (status : Descriptor) (result : UInt8 × UInt32)

theorem block_pushUsed (len : UInt32) : (world.pushUsed taken len).block = world.block := by
  unfold pushUsed
  split <;> rfl

theorem block_complete : (world.complete taken status result).block = world.block :=
  block_pushUsed _ _ _

theorem log_complete : world.log <+: (world.complete taken status result).log := by
  unfold complete pushUsed
  split
  · exact prefix_rfl
  · exact prefix_append _ _

/-- A submission returns nothing by itself. -/
theorem log_submit (clock : Nat) (request : Request) :
    (world.submit clock request).1.log = world.log := by
  grind [submit, attempt, World.release]

/-- A request's return and its count are two things. -/
theorem release_complete :
    (world.complete taken status result).release taken.queue =
      (world.release taken.queue).complete taken status result := by
  unfold complete pushUsed release
  dsimp only
  split <;> rfl

end

theorem log_resubmit (clock : Nat) (rest : List Request) (world : World) (serviced : Serviced) :
    world.log <+: (resubmit clock rest world serviced).1.log := by
  induction rest generalizing world serviced with
  | nil => exact prefix_rfl
  | cons request rest ih =>
    have same := log_submit world clock request
    unfold resubmit
    split
    · rename_i after result
      rw [result] at same
      rw [← same]
      exact ih after serviced
    · rename_i after ended answer result
      rw [result] at same
      rw [← same]
      exact (log_complete after ended.taken ended.status answer).trans (ih _ _)

/-- What a submission leaves: the request is held, or it has ended and is to go back. -/
def Submitted (request : Request) (rest : List Request) :
    World × Option (Request × UInt8 × UInt32) → Prop
  | (world, none) => Kept world rest
  | (world, some (ended, _)) => ended.taken = request.taken ∧ ended.status = request.status ∧
      Books world rest [ended.taken] ∧ Queued world.block

namespace Kept

variable {world : World} {request : Request} {rest : List Request} {queue : Virtqueue}

/-- A request that has ended goes back; those that wait are as they were. -/
theorem complete {taken : Taken} (books : Books world rest [taken]) (queued : Queued world.block)
    (status : Descriptor) (result : UInt8 × UInt32) :
    Kept (world.complete taken status result) rest := by
  refine ⟨(books.complete status result).1, ?_⟩
  rw [block_complete]
  exact queued

theorem submit (kept : Kept world (request :: rest)) (clock : Nat) :
    Submitted request rest (world.submit clock request) := by
  unfold World.submit attempt
  split
  · rename_i behind
    rw [Bool.and_eq_true, Bool.not_eq_true'] at behind
    refine ⟨kept.books.regroup ?_, kept.queued.hold behind.1 behind.2⟩
    simp [Block.waiting]
  rename_i ahead
  dsimp only
  have mutates := (perform_operation world.block world.memory request.operation).1
  generalize world.block.perform world.memory request.operation = performed at mutates ⊢
  obtain ⟨disk, memory, operation, answer⟩ := performed
  have books := (kept.books.rewrite disk memory).tried operation
  have queued : Queued { world.block with disk := disk } := kept.queued.of_eq rfl rfl
  cases answer with
  | ok written => exact ⟨rfl, rfl, books.release, queued.of_eq rfl rfl⟩
  | error error =>
    dsimp only
    split
    · rename_i full
      rw [Bool.and_eq_true] at full
      -- Something pending would have let pass only what needs no room.
      have free : world.block.pending = none := by
        cases found : world.block.pending with
        | none => rfl
        | some pending => grind [Queued.passing]
      have clear : world.block.backlog = [] := by
        by_contra some
        have headed := kept.queued.headed some
        rw [free] at headed
        cases headed
      have pended : Queued { world.block with
          disk := disk
          pending := some ⟨{ request with operation := operation }, clock + retryInterval⟩ } :=
        (Queued.pend clear full.2).of_eq rfl rfl
      refine ⟨books.regroup ?_, pended⟩
      simp [Block.waiting, free, clear]
    · exact ⟨rfl, rfl, books.release, queued.of_eq rfl rfl⟩

/-- One turn of a service: the chain that was popped is served. -/
theorem serve {index : UInt16} {chain : DescriptorChain}
    (taken : Books (world.take index chain.head) [] [⟨world.popped, index, chain.head⟩])
    (queued : Queued world.block)
    (space : ∀ queue, world.queues[index.toNat]? = some queue →
      world.block.retained index.toNat < queue.size.toNat) (clock : Nat) :
    Kept (world.serve clock index chain).1 [] := by
  unfold World.serve
  dsimp only
  split
  · refine ⟨(taken.pushUsed 0).1, ?_⟩
    rw [block_pushUsed]
    exact queued
  rename_i status _
  split
  · exact complete taken queued status _
  rename_i operation _
  let request : Request := ⟨⟨world.popped, index, chain.head⟩, status, operation⟩
  have entered : Books ((world.take index chain.head).enter request) [request] [] :=
    taken.enter space
  have submitted := submit ⟨entered, queued.of_eq rfl rfl⟩ clock
  split
  · rename_i after result
    rw [result] at submitted
    exact submitted
  rename_i after ended answer result
  rw [result] at submitted
  obtain ⟨sameTaken, sameStatus, books, queued⟩ := submitted
  rw [sameTaken] at books
  exact complete books queued status answer

/-- A pass over a queue. -/
theorem processQueue (kept : Kept world []) (clock : Nat) (index : UInt16) (turns : Nat)
    (usedAny : Bool) : Kept (processQueue clock index turns world usedAny).1 [] := by
  induction turns generalizing world usedAny with
  | zero => exact kept
  | succ turns ih =>
    unfold World.processQueue
    split
    · exact kept
    rename_i queue found
    split
    · rename_i space
      split
      · rename_i after none
        refine ⟨⟨kept.books.ledger.idle found none, kept.books.counts, ?_⟩, kept.queued⟩
        refine Ledger.each_set (fun other ring there _ => kept.books.room other ring there) ?_
        rw [(Virtqueue.pop_fields none).1]
        exact kept.books.room _ _ found
      · rename_i after chain popped
        refine ih (serve (kept.books.take found popped) kept.queued (fun ring there => ?_) clock) _
        have same : ring = after := by grind
        rw [same, (Virtqueue.pop_fields popped).1]
        exact space
    · exact kept

/-- Those that were held are reconsidered in turn. -/
theorem resubmit (clock : Nat) (rest : List Request) {world : World} (kept : Kept world rest)
    (serviced : Serviced) : Kept (World.resubmit clock rest world serviced).1 [] := by
  induction rest generalizing world serviced with
  | nil => exact kept
  | cons request rest ih =>
    have submitted := kept.submit clock
    unfold World.resubmit
    split
    · rename_i after result
      rw [result] at submitted
      exact ih submitted serviced
    · rename_i after ended answer result
      rw [result] at submitted
      obtain ⟨-, -, books, queued⟩ := submitted
      exact ih (complete books queued ended.status answer) _

/-- A later deadline is nothing to the books. -/
theorem postpone (kept : Kept world []) (deadline : Nat) : Kept (world.postpone deadline) [] := by
  constructor
  · apply kept.books.regroup
    rw [Option.map_map]
    exact List.Perm.refl _
  cases found : world.block.pending with
  | none => exact kept.queued.of_eq (by simp [World.postpone, found]) rfl
  | some pending =>
    have again := kept.queued.again found { pending with
      deadline := max pending.deadline deadline } rfl rfl
    exact again.of_eq (by simp [World.postpone, found]) rfl

/-- The request that was tried again has ended: its chain goes back, and those behind it
are reconsidered. -/
theorem recover (books : Books world [request] []) (free : world.block.pending = none)
    (clock now : Nat) (result : UInt8 × UInt32) :
    Kept (world.recover clock now request result).1 [] ∧
      Back request.taken world.log (world.recover clock now request result).1.log := by
  obtain ⟨finished, back⟩ := books.release.complete request.status result
  have block : ((world.release request.taken.queue).complete request.taken request.status
      result).block = (world.release request.taken.queue).block := block_complete ..
  unfold World.recover
  rw [release_complete]
  generalize (world.release request.taken.queue).complete request.taken request.status result =
    after at finished back block
  have still : after.block.pending = none := by
    rw [block]
    exact free
  have emptied : Kept { after with block := { after.block with backlog := [] } }
      after.block.backlog := by
    refine ⟨?_, Queued.empty still rfl⟩
    have regrouped : Books { after with
        block := { after.block with pending := none, backlog := [] } } after.block.backlog [] :=
      finished.regroup (by simp [Block.waiting, still])
    rw [← still] at regrouped
    exact regrouped
  exact ⟨(resubmit clock _ emptied _).postpone _, back.later (log_resubmit clock
    after.block.backlog { after with block := { after.block with backlog := [] } } _)⟩

/-- A retry keeps the books, and a request that finds its room goes back. -/
theorem retry (kept : Kept world []) (clock now : Nat) :
    Kept (world.retry clock now).1 [] ∧
      ∀ pending, world.block.pending = some pending → pending.deadline ≤ now →
        (∀ error, (world.block.perform world.memory pending.request.operation).result =
          .error error → isFull error = false) →
        Back pending.request.taken world.log (world.retry clock now).1.log := by
  cases found : world.block.pending with
  | none => grind [World.retry]
  | some pending =>
    unfold World.retry
    rw [found]
    dsimp only
    split
    · rename_i early
      exact ⟨kept, fun other same due _ => by grind⟩
    have bare : Books { world with block := { world.block with pending := none } }
        [pending.request] [] := by
      apply kept.books.regroup
      simp only [Block.waiting, found, Option.map_none, Option.toList_none, nil_append,
        Option.map_some, Option.toList_some, append_nil]
      exact (perm_append_singleton _ _).map _
    obtain ⟨mutates, range⟩ := perform_operation world.block world.memory
      pending.request.operation
    have looks : { world.block with pending := none }.perform world.memory
        pending.request.operation = world.block.perform world.memory pending.request.operation :=
      perform_congr rfl _ _
    unfold attempt
    dsimp only
    rw [looks]
    generalize result : world.block.perform world.memory pending.request.operation = performed
      at mutates range ⊢
    obtain ⟨disk, memory, operation, answer⟩ := performed
    have books := (bare.rewrite disk memory).tried operation
    cases answer with
    | ok written =>
      obtain ⟨recovered, back⟩ := recover books rfl clock now (statusOk, written)
      exact ⟨recovered, fun other same _ _ => by cases same; exact back⟩
    | error error =>
      dsimp only
      split
      · rename_i full
        refine ⟨⟨books.regroup ?_, ?_⟩, fun other same _ room => ?_⟩
        · simp only [Block.waiting, Option.map_none, Option.toList_none, nil_append,
            Option.map_some, Option.toList_some, append_nil, singleton_append, map_cons, map_append]
          exact (perm_append_singleton _ _).symm
        · have again := kept.queued.again found ⟨{ pending.request with operation := operation },
            max clock now + retryInterval⟩ mutates range
          exact again.of_eq rfl rfl
        · cases same
          rw [room error (by rw [result])] at full
          cases full
      · obtain ⟨recovered, back⟩ := recover books rfl clock now (statusIoErr, 0)
        exact ⟨recovered, fun other same _ _ => by cases same; exact back⟩

theorem reset (kept : Kept world []) (queues : List Virtqueue) : Kept (world.reset queues) [] := by
  have same : pops (world.log ++ [.reset]) = pops world.log := by simp [pops, Event.pops]
  refine ⟨⟨?_, fun _ => rfl, fun _ _ _ => Nat.zero_le _⟩, Queued.empty rfl rfl⟩
  refine Ledger.setUp queues ?_ ?_ ?_ ?_
  · exact session_reset world.log []
  · change (pops (world.log ++ [.reset])).Pairwise _
    rw [same]
    exact kept.books.ledger.numbered
  · change ∀ taken ∈ pops (world.log ++ [.reset]), _
    rw [same]
    exact kept.books.ledger.below
  · exact kept.books.ledger.separate.note _ (by simp)

/-- Whatever happens to the device, its books are kept. -/
theorem step (kept : Kept world []) (act : Act) : Kept (world.step act) [] := by
  cases act with
  | notify clock turns index =>
    have processQueue := kept.processQueue clock index turns false
    unfold World.step notify
    dsimp only
    split
    · exact kept
    · exact processQueue
  | retry clock now => exact (kept.retry clock now).1
  | ackFeatures features =>
    exact ⟨⟨kept.books.ledger, kept.books.counts, kept.books.room⟩, kept.queued.of_eq rfl rfl⟩
  | guest bytes => exact ⟨⟨kept.books.ledger, kept.books.counts, kept.books.room⟩, kept.queued⟩
  | reset queues => exact kept.reset queues

theorem start (disk : Disk) (count : Nat) (queues : List Virtqueue) (memory : GuestMemory) :
    Kept (World.start disk count queues memory) [] := by
  refine ⟨⟨?_, fun _ => rfl, fun _ _ _ => Nat.zero_le _⟩, Queued.empty rfl rfl⟩
  refine Ledger.setUp queues rfl Pairwise.nil nofun ?_
  intro before after split
  cases before <;> cases split

end Kept

/-- Whatever is offered on the rings, whatever the host's calls come back with and
whenever retries and resets come: the count of each queue is that of its requests held,
and within its ring; what is held has a deadline; the chains taken since the last reset,
each with its number, are those returned since, on their own queues under their own
heads, those refused and those held; none is returned or refused in a later session; a
split ring's used index counts those returned; each request behind the pending one waits
for something held before it; a retry that is due gives the pending chain back unless the
host is still full; and what is outstanding is held. If the driver offers no head again
before it is back, none is refused, and what is held is outstanding. -/
theorem requests_completed_once (disk : Disk) (count : Nat) (queues : List Virtqueue)
    (memory : GuestMemory) (acts : List Act) :
    let world := Transition.run World.step (World.start disk count queues memory) acts
    (∀ index, world.block.retained index =
        (world.block.waiting.map Request.taken).countP fun taken => taken.queue.toNat = index) ∧
      (∀ (index : Nat) (queue : Virtqueue), world.queues[index]? = some queue →
        world.block.retained index ≤ queue.size.toNat ∧
        (queue.packed = false → queue.nextUsed =
          UInt16.ofNat ((pushes (session world.log)).countP (·.queue.toNat = index)))) ∧
      (world.block.backlog ≠ [] → world.block.retryDeadline.isSome) ∧
      (pops world.log).Pairwise (fun first second => first.ticket < second.ticket) ∧
      (pushes (session world.log) ++ refusals (session world.log) ++
        world.block.waiting.map Request.taken).Perm (pops (session world.log)) ∧
      Separate world.log ∧
      (∀ before request after, world.block.backlog = before ++ request :: after →
        ∃ earlier ∈ (world.block.pending.map Pending.request).toList ++ before,
          request.operation.mayPass earlier.operation = false) ∧
      (∀ clock now pending, world.block.pending = some pending → pending.deadline ≤ now →
        (∀ error, (world.block.perform world.memory pending.request.operation).result =
          .error error → isFull error = false) →
        Back pending.request.taken world.log (world.retry clock now).1.log) ∧
      (∀ place, outstanding world.queues place →
        place ∈ world.block.waiting.map fun request => request.taken.place) ∧
      (Orderly world.log → refusals (session world.log) = [] ∧
        (world.block.waiting.map fun request => request.taken.place).Nodup ∧
        ∀ request ∈ world.block.waiting, outstanding world.queues request.taken.place) := by
  intro world
  have kept : Kept world [] :=
    Transition.run_preserves World.step (fun world => Kept world [])
      (fun _ act kept => kept.step act) _ acts (Kept.start disk count queues memory)
  have ledger := kept.books.ledger
  have counts := kept.books.counts
  rw [append_nil] at counts
  rw [append_nil, append_nil] at ledger
  have marked := ledger.marked
  have orderly := ledger.orderly
  rw [map_map] at marked orderly
  refine ⟨counts, fun index queue found => ⟨kept.books.room index queue found,
    ledger.used index queue found⟩, ?_, ledger.numbered, ledger.exactly, ledger.separate,
    kept.queued.blocked, fun clock now => (kept.retry clock now).2, marked, fun driver => ?_⟩
  · intro behind
    rw [Block.retryDeadline, Option.isSome_map]
    exact kept.queued.headed behind
  · obtain ⟨none, apart, every⟩ := orderly driver
    exact ⟨none, apart, fun request inside => every _ (mem_map_of_mem inside)⟩

/-! ### A head that is offered twice -/

/-- A driver's memory: a split ring that offers head 0 twice, and under it a header, one byte to
write and a status. -/
def offersTwice : GuestMemory where
  regions := [⟨0, 16384⟩]
  bytes := fun place => ([(4097, 19), (4104, 16), (4108, 1), (4110, 1), (4112, 32), (4113, 19),
    (4120, 1), (4124, 1), (4126, 2), (4128, 48), (4129, 19), (4136, 1), (4140, 2), (4354, 2),
    (4864, 1), (4896, 7)] : List (Nat × UInt8)).lookup place |>.getD 0

/-- Its ring. -/
def smallRing : Virtqueue :=
  { Virtqueue.new 4 with descAddr := 4096, availAddr := 4352, usedAddr := 4608, ready := true }

/-- A file whose host is full at first. -/
def fullAtFirst : Disk := ⟨fun _ => 0, 8192, false, [.failed enospc fun _ => false]⟩

/-- Both requests wait for room, and are done once there is some. The head goes back for the
first; for the second it is no longer outstanding, and the queue refuses it. -/
theorem second_offer_refused :
    let world := Transition.run World.step (World.start fullAtFirst 1 [smallRing] offersTwice)
      [.notify 0 3 0, .retry 0 retryInterval]
    pops (session world.log) = [⟨0, 0, 0⟩, ⟨1, 0, 0⟩] ∧ world.block.waiting = [] ∧
      pushes (session world.log) = [⟨0, 0, 0⟩] ∧ refusals (session world.log) = [⟨1, 0, 0⟩] ∧
      world.queues.map Virtqueue.nextUsed = [1] := by
  decide +kernel

end Lighter.Virtio.Blk
