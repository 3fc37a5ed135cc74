import Lighter.Virtio.Mirror

/-!
# The poller lets go of the transport

A thread that has watched queues without being kicked tells the driver to kick again, and
then polls the watched queues until none has anything outstanding, under the transport's
lock. What is outstanding is read off the rings alone; a poll takes nothing from a queue that
is not ready, and nothing before the driver is ready, and what it takes else is the device's
choice. So for a device that, told of a queue, takes all or nothing, the loop ends exactly if
nothing is outstanding on the watched queues that are not ready, or that the device does not
serve.

The guest leaves memory alone while the loop runs. The total is kept in sixteen bits, as the
code keeps it, and may wrap. A poll returns only if the loop of its service does.
-/

namespace Lighter.Virtio

open List

/-- `outstanding`: chains the driver has offered that were not taken. In a packed ring some
or none. -/
def Virtqueue.outstandingIn (queue : Virtqueue) (memory : GuestMemory) : UInt16 :=
  if queue.packed then (if queue.hasWork memory then 1 else 0)
  else (queue.availIdx memory).elim 0 fun idx => idx - queue.nextAvail

/-- There is work on a queue that is ready and has something outstanding. -/
theorem Virtqueue.hasWork_iff (queue : Virtqueue) (memory : GuestMemory) :
    queue.hasWork memory = true ↔ queue.ready = true ∧ queue.outstandingIn memory ≠ 0 := by
  unfold outstandingIn
  split
  · rename_i packed
    by_cases work : queue.hasWork memory = true
    · have ready : queue.ready = true := by
        unfold hasWork at work
        exact (Bool.and_eq_true_iff.mp work).1
      simp [work, ready]
    · simp [work]
  · rename_i split
    unfold hasWork
    rw [if_neg split]
    cases queue.availIdx memory with
    | none => simp
    | some idx => grind

namespace VirtioMmio

open Mirror

variable {δ : Type} (model : VirtioDevice δ) (turns : Nat) (watched : List UInt16)

/-- What is outstanding on one of these queues. -/
def left (queues : List Virtqueue) (memory : GuestMemory) (index : Nat) : UInt16 :=
  (queues[index]?).elim 0 fun queue => queue.outstandingIn memory

/-- `outstanding`: chains the driver has offered that we have not taken. -/
def outstanding (mmio : VirtioMmio δ) (index : UInt16) : UInt16 :=
  left mmio.queues mmio.memory index.toNat

/-- `poll_queue`. It does not return if the loop of its service has not ended after so many
turns. -/
def pollReturns (mmio : VirtioMmio δ) (index : UInt16) : Option (VirtioMmio δ) :=
  if (passOf model mmio (.poll turns index)).all fun pass =>
      ends model pass.1 pass.2.1 pass.2.2 then
    some (mmio.pollQueue model turns index)
  else none

/-- One queue's part of a turn. -/
def parkLook (state : VirtioMmio δ × UInt16) (index : UInt16) :
    Option (VirtioMmio δ × UInt16) :=
  (pollReturns model turns state.1 index).map fun mmio =>
    (mmio, state.2 + mmio.outstanding index)

/-- One turn: every watched queue is polled, and what is left of each is summed up. -/
def parkTurn : List UInt16 → VirtioMmio δ × UInt16 → Option (VirtioMmio δ × UInt16)
  | [], state => some state
  | index :: rest, state => (parkLook model turns state index).bind (parkTurn rest)

/-- The loop, if it ends after so many turns. -/
def parkLoop : Nat → VirtioMmio δ → Option (VirtioMmio δ)
  | 0, _ => none
  | count + 1, mmio =>
      (parkTurn model turns watched (mmio, 0)).bind fun after =>
        if after.2 = 0 ∨ (model.retryDeadline after.1.device).isSome then some after.1
        else parkLoop count after.1

/-- The driver is told to kick again. -/
def unsuppress (mmio : VirtioMmio δ) : VirtioMmio δ :=
  watched.foldl (fun mmio index => mmio.suppressNotifications index false) mmio

/-- After some number of turns, of this loop and of those in it, the lock is let go. -/
def LetsGo (mmio : VirtioMmio δ) : Prop :=
  ∃ turns count, (parkLoop model turns watched count (mmio.unsuppress watched)).isSome = true

/-- A device that takes all or nothing, in a set of states that it does not leave: told of a
queue it serves, it takes all that is outstanding, and told of another nothing. What is
outstanding elsewhere is not changed by that, nor by the words the transport writes to arm the
queues. It leaves nothing to be retried. -/
structure Serving (holds : δ → List Virtqueue → GuestMemory → Prop) (serves : Nat → Bool) :
    Prop where
  notify : ∀ {device queues memory index queue}, holds device queues memory →
    queues[index]? = some queue → queue.hasWork memory = true →
      let service := model.notify device (UInt16.ofNat index) queues memory
      holds service.device service.queues service.memory ∧
        (∀ other, other ≠ index →
          left service.queues service.memory other = left queues memory other) ∧
        if serves index then left service.queues service.memory index = 0
        else left service.queues service.memory index = left queues memory index ∧
          (service.queues[index]?).map Virtqueue.nextAvail = some queue.nextAvail
  arm : ∀ {device queues memory}, holds device queues memory →
    holds device (armAll queues memory).1 (armAll queues memory).2 ∧
      ∀ index, left (armAll queues memory).1 (armAll queues memory).2 index =
        left queues memory index
  ask : ∀ {device queues memory}, holds device queues memory → ∀ serviced,
    holds device (askAll serviced memory 0 queues).1 memory ∧
      ∀ index, left (askAll serviced memory 0 queues).1 memory index = left queues memory index
  prompt : ∀ {device queues memory}, holds device queues memory →
    model.retryDeadline device = none

/-- The driver and the queue are ready, and the device serves it. -/
def served (serves : Nat → Bool) (mmio : VirtioMmio δ) (index : Nat) : Bool :=
  mmio.activated && serves index && (mmio.queues[index]?).any Virtqueue.ready

/-- What is outstanding on a queue, unless it is served. -/
def unserved (serves : Nat → Bool) (mmio : VirtioMmio δ) (index : UInt16) : UInt16 :=
  if served serves mmio index.toNat then 0 else mmio.outstanding index

/-- What is outstanding on the watched queues that are not served, in sixteen bits. -/
def stuck (serves : Nat → Bool) (mmio : VirtioMmio δ) : UInt16 :=
  watched.foldl (fun sum index => sum + unserved serves mmio index) 0

variable {model turns watched} {holds : δ → List Virtqueue → GuestMemory → Prop}
  {serves : Nat → Bool} {mmio before after : VirtioMmio δ} {index : Nat}

/-- What a service may have done: a queue has what it had outstanding, or is served and has
nothing. -/
structure Onward (holds : δ → List Virtqueue → GuestMemory → Prop) (serves : Nat → Bool)
    (before after : VirtioMmio δ) : Prop where
  held : holds after.device after.queues after.memory
  activated : after.activated = before.activated
  same : after.geometries = before.geometries
  left : ∀ index, left after.queues after.memory index = left before.queues before.memory index ∨
    served serves before index = true ∧ VirtioMmio.left after.queues after.memory index = 0

namespace Onward

/-- Which queues are served does not change. -/
theorem served_eq (onward : Onward holds serves before after) (index : Nat) :
    served serves after index = served serves before index := by
  have ready : (after.queues[index]?).map Virtqueue.ready =
      (before.queues[index]?).map Virtqueue.ready := by
    have same :=
      congrArg (fun list : List Geometry => (list[index]?).map Geometry.ready) onward.same
    simpa [geometries, Function.comp_def, Virtqueue.geometry] using same
  have any : (after.queues[index]?).any Virtqueue.ready =
      (before.queues[index]?).any Virtqueue.ready := by
    simpa [Option.any_map, Function.comp_def] using congrArg (Option.any id) ready
  simp only [served, onward.activated, any]

/-- Nor what is outstanding on the others. -/
theorem unserved_eq (onward : Onward holds serves before after) :
    unserved serves after = unserved serves before := by
  funext index
  rw [unserved, unserved, onward.served_eq]
  split
  · rfl
  · rename_i other
    exact (onward.left index.toNat).resolve_right fun served => other served.1

theorem refl (held : holds mmio.device mmio.queues mmio.memory) :
    Onward holds serves mmio mmio :=
  ⟨held, rfl, rfl, fun _ => .inl rfl⟩

theorem trans {last : VirtioMmio δ} (first : Onward holds serves before after)
    (second : Onward holds serves after last) : Onward holds serves before last := by
  refine ⟨second.held, second.activated.trans first.activated, second.same.trans first.same,
    fun index => ?_⟩
  rcases second.left index with same | ⟨serving, none⟩
  · rw [same]
    exact first.left index
  · exact .inr ⟨(first.served_eq index).symm.trans serving, none⟩

/-- Where nothing is left, nothing comes. -/
theorem left_zero (onward : Onward holds serves before after)
    (none : VirtioMmio.left before.queues before.memory index = 0) :
    VirtioMmio.left after.queues after.memory index = 0 := by
  rcases onward.left index with same | ⟨_, zero⟩
  · rw [same, none]
  · exact zero

end Onward

/-- A served queue that has no work has nothing outstanding. -/
theorem left_of_idle
    (idle : ((mmio.queues[index]?).any fun queue => queue.hasWork mmio.memory) = false)
    (yes : served serves mmio index = true) : left mmio.queues mmio.memory index = 0 := by
  rw [served, Bool.and_eq_true, Option.any_eq_true] at yes
  obtain ⟨queue, found, ready⟩ := yes.2
  rw [found, Option.any_some] at idle
  by_contra some
  rw [left, found] at some
  exact Bool.eq_false_iff.mp idle ((Virtqueue.hasWork_iff queue _).mpr ⟨ready, some⟩)

section

variable (serving : Serving model holds serves)
include serving

/-- A notification of a queue with work. -/
theorem onward_notify {queue : Virtqueue} (held : holds mmio.device mmio.queues mmio.memory)
    (active : mmio.activated = true) (found : mmio.queues[index]? = some queue)
    (work : queue.hasWork mmio.memory = true) :
    let after := mmio.serviceDone
      (model.notify mmio.device (UInt16.ofNat index) mmio.queues mmio.memory)
    Onward holds serves mmio after ∧
      (served serves mmio index = true → left after.queues after.memory index = 0) ∧
      (served serves mmio index = false →
        (after.queues[index]?).map Virtqueue.nextAvail = some queue.nextAvail) := by
  obtain ⟨kept, others, own⟩ := serving.notify held found work
  have ready := ((Virtqueue.hasWork_iff queue mmio.memory).mp work).1
  have serving : served serves mmio index = serves index := by
    simp [served, active, found, ready]
  rw [serving]
  refine ⟨⟨kept, rfl, model.geometry_notify _ _ _ _, fun other => ?_⟩, fun yes => ?_, fun no => ?_⟩
  · by_cases same : other = index
    · subst same
      cases yes : serves other with
      | true =>
        rw [yes, if_pos rfl] at own
        exact .inr ⟨serving.trans yes, own⟩
      | false =>
        rw [yes, if_neg nofun] at own
        exact .inl own.1
    · exact .inl (others other same)
  · rw [yes, if_pos rfl] at own
    exact own
  · rw [no, if_neg nofun] at own
    exact own.2

/-- One look. It leaves nothing on a served queue, and moves only if it found something on one. -/
theorem onward_look (turn : Turn δ) (index : Nat)
    (held : holds turn.mmio.device turn.mmio.queues turn.mmio.memory)
    (active : turn.mmio.activated = true) :
    let after := look model turn index
    Onward holds serves turn.mmio after.mmio ∧
      (served serves turn.mmio index = true →
        left after.mmio.queues after.mmio.memory index = 0) ∧
      ((served serves turn.mmio index = true →
          left turn.mmio.queues turn.mmio.memory index = 0) → after.moved = turn.moved) := by
  rcases look_cases model turn index with
    ⟨idle, same, _⟩ | ⟨queue, found, work, service, moves, _⟩
  · dsimp only
    rw [same]
    exact ⟨.refl held, left_of_idle idle, fun _ => rfl⟩
  obtain ⟨onward, empties, stays⟩ := onward_notify serving held active found work
  dsimp only
  rw [service, moves]
  refine ⟨onward, empties, fun none => ?_⟩
  have other : served serves turn.mmio index = false := by
    by_contra yes
    have zero := none (Bool.not_eq_false _ ▸ yes)
    rw [left, found] at zero
    exact ((Virtqueue.hasWork_iff queue turn.mmio.memory).mp work).2 zero
  have same := stays other
  rw [serviceDone] at same
  simp [told, same]

/-- The looks of a turn. -/
theorem onward_looks (indices : List Nat) (turn : Turn δ)
    (held : holds turn.mmio.device turn.mmio.queues turn.mmio.memory)
    (active : turn.mmio.activated = true) :
    let after := indices.foldl (look model) turn
    Onward holds serves turn.mmio after.mmio ∧
      (∀ index ∈ indices, served serves turn.mmio index = true →
        left after.mmio.queues after.mmio.memory index = 0) ∧
      ((∀ index ∈ indices, served serves turn.mmio index = true →
          left turn.mmio.queues turn.mmio.memory index = 0) → after.moved = turn.moved) := by
  induction indices generalizing turn with
  | nil => exact ⟨.refl held, nofun, fun _ => rfl⟩
  | cons index rest ih =>
    obtain ⟨first, empties, still⟩ := onward_look serving turn index held active
    obtain ⟨later, emptied, stills⟩ :=
      ih (look model turn index) first.held (first.activated.trans active)
    refine ⟨first.trans later, forall_mem_cons.mpr ⟨fun yes => ?_, fun other inside yes => ?_⟩,
      fun idle => ?_⟩
    · exact later.left_zero (empties yes)
    · exact emptied other inside ((first.served_eq other).trans yes)
    · obtain ⟨here, there⟩ := forall_mem_cons.mp idle
      refine (stills fun other inside yes => ?_).trans (still here)
      exact first.left_zero (there other inside ((first.served_eq other).symm.trans yes))

/-- A turn of the loop in a service: it leaves nothing on the served queues, and moves only if
it found something there. -/
theorem onward_turn (mmio : VirtioMmio δ) (serviced : Serviced)
    (held : holds mmio.device mmio.queues mmio.memory) (active : mmio.activated = true) :
    let after := turn model mmio serviced
    Onward holds serves mmio after.mmio ∧
      (∀ index, served serves mmio index = true →
        left after.mmio.queues after.mmio.memory index = 0) ∧
      ((∀ index, served serves mmio index = true →
          left mmio.queues mmio.memory index = 0) → after.moved = false) := by
  obtain ⟨kept, same⟩ := serving.arm held
  have armed : Onward holds serves mmio (begun mmio serviced).mmio :=
    ⟨kept, rfl, map_armAll (fun queue memory => (queue.armNotifications_keeps memory).1) _ _,
      fun index => .inl (same index)⟩
  obtain ⟨onward, emptied, still⟩ := onward_looks serving (looks mmio serviced)
    (begun mmio serviced) kept active
  have inside : ∀ index, served serves mmio index = true → index ∈ looks mmio serviced := by
    intro index yes
    rw [← armed.served_eq, served, Bool.and_eq_true, Option.any_eq_true] at yes
    obtain ⟨queue, found, _⟩ := yes.2
    exact mem_range.mpr (List.getElem?_eq_some_iff.mp found).1
  refine ⟨armed.trans onward, fun index yes => ?_, fun idle => ?_⟩
  · exact emptied index (inside index yes) ((armed.served_eq index).trans yes)
  · refine still fun index _ yes => ?_
    exact armed.left_zero (idle index ((armed.served_eq index).symm.trans yes))

/-- The loop in a service, with its last questions. -/
theorem onward_finishService (turns : Nat) (mmio : VirtioMmio δ) (serviced : Serviced)
    (held : holds mmio.device mmio.queues mmio.memory) (active : mmio.activated = true) :
    Onward holds serves mmio (finishService model turns mmio serviced) := by
  have settled : Onward holds serves mmio (settle model turns mmio serviced).1 := by
    induction turns generalizing mmio serviced with
    | zero => exact .refl held
    | succ turns ih =>
      have first := (onward_turn serving mmio serviced held active).1
      unfold settle
      dsimp only
      split
      · exact first.trans (ih _ _ first.held (first.activated.trans active))
      · exact first
  refine settled.trans ?_
  unfold finishService
  generalize settle model turns mmio serviced = done at settled ⊢
  obtain ⟨kept, same⟩ := serving.ask settled.held done.2
  have asked : done.1.geometries = (askAll done.2 done.1.memory 0 done.1.queues).1.map
      Virtqueue.geometry :=
    (map_askAll Virtqueue.geometry_needsInterrupt done.2 done.1.memory 0 _).symm
  dsimp only
  split
  · exact .refl settled.held
  · split <;> exact ⟨kept, rfl, asked.symm, fun index => .inl (same index)⟩

/-- The loop in a service ends with its second turn, if not with the first. -/
theorem ends_two (mmio : VirtioMmio δ) (serviced : Serviced)
    (held : holds mmio.device mmio.queues mmio.memory) (active : mmio.activated = true) :
    ends model 2 mmio serviced = true := by
  obtain ⟨first, emptied, _⟩ := onward_turn serving mmio serviced held active
  obtain ⟨_, _, still⟩ := onward_turn serving (turn model mmio serviced).mmio
    (turn model mmio serviced).serviced first.held (first.activated.trans active)
  have second := still fun index yes => emptied index ((first.served_eq index).symm.trans yes)
  simp [ends, second]

/-- A poll leaves nothing on its queue if that is served, and what there was if it is not. -/
theorem onward_poll (turns : Nat) (mmio : VirtioMmio δ) (index : UInt16)
    (held : holds mmio.device mmio.queues mmio.memory) :
    let after := mmio.pollQueue model turns index
    Onward holds serves mmio after ∧
      after.outstanding index = unserved serves mmio index := by
  have kept : ∀ after, Onward holds serves mmio after →
      (served serves mmio index.toNat = true → after.outstanding index = 0) →
      after.outstanding index = unserved serves mmio index := by
    intro after onward empties
    rw [unserved]
    split
    · exact empties ‹_›
    · rename_i other
      exact (onward.left index.toNat).resolve_right fun served => other served.1
  dsimp only
  rw [pollQueue_eq]
  by_cases work : ((mmio.queues[index.toNat]?).any fun queue =>
      queue.hasWork mmio.memory) = true
  · rw [if_pos work]
    obtain ⟨queue, found, work⟩ := (Option.any_eq_true _ _).mp work
    unfold notifyQueue
    by_cases active : mmio.activated = true
    · rw [if_neg (by simp [active])]
      obtain ⟨told, empties, _⟩ := onward_notify serving held active found work
      rw [UInt16.ofNat_toNat] at told empties
      have finished := onward_finishService serving turns _
        (model.notify mmio.device index mmio.queues mmio.memory).serviced told.held
        (told.activated.trans active)
      exact ⟨told.trans finished, kept _ (told.trans finished) fun yes =>
        finished.left_zero (empties yes)⟩
    · have never : served serves mmio index.toNat ≠ true := by simp [served, active]
      rw [if_pos (by simp [active])]
      split
      · have early : Onward holds serves mmio
            { mmio with earlyKicks := mmio.earlyKicks ||| (1 <<< index.toUInt64) } :=
          ⟨held, rfl, rfl, fun _ => .inl rfl⟩
        exact ⟨early, kept _ early fun yes => absurd yes never⟩
      · exact ⟨.refl held, kept _ (.refl held) fun yes => absurd yes never⟩
  · rw [if_neg work]
    exact ⟨.refl held, kept _ (.refl held) (left_of_idle (Bool.eq_false_iff.mpr work))⟩

/-- A poll returns, after two turns of the loop in it at most. -/
theorem pollReturns_two (mmio : VirtioMmio δ) (index : UInt16)
    (held : holds mmio.device mmio.queues mmio.memory) :
    pollReturns model 2 mmio index = some (mmio.pollQueue model 2 index) := by
  refine if_pos ?_
  unfold passOf
  dsimp only
  by_cases work : ((mmio.queues[index.toNat]?).any fun queue =>
      queue.hasWork mmio.memory) = true
  · rw [if_pos work]
    obtain ⟨queue, found, work⟩ := (Option.any_eq_true _ _).mp work
    unfold passOf.notified
    by_cases active : mmio.activated = true
    · have told := (onward_notify serving held active found work).1
      rw [UInt16.ofNat_toNat] at told
      rw [if_pos active]
      exact ends_two serving _ _ told.held (told.activated.trans active)
    · rw [if_neg active]
      rfl
  · rw [if_neg work]
    rfl

/-- A turn of the loop leaves what is outstanding on the queues that are not served. -/
theorem parkTurn_left (list : List UInt16) {mmio after : VirtioMmio δ} {start sum : UInt16}
    (held : holds mmio.device mmio.queues mmio.memory)
    (ended : parkTurn model turns list (mmio, start) = some (after, sum)) :
    Onward holds serves mmio after ∧
      sum = list.foldl (fun sum index => sum + unserved serves mmio index) start := by
  induction list generalizing mmio start with
  | nil =>
    cases ended
    exact ⟨.refl held, rfl⟩
  | cons index rest ih =>
    obtain ⟨first, left⟩ := onward_poll serving turns mmio index held
    rw [parkTurn, parkLook, pollReturns] at ended
    split at ended
    · rw [Option.map_some, Option.bind_some] at ended
      obtain ⟨later, total⟩ := ih first.held ended
      rw [first.unserved_eq, left] at total
      exact ⟨first.trans later, total⟩
    · cases ended

/-- A turn of the loop comes to its end. -/
theorem parkTurn_two (list : List UInt16) (mmio : VirtioMmio δ) (start : UInt16)
    (held : holds mmio.device mmio.queues mmio.memory) :
    (parkTurn model 2 list (mmio, start)).isSome = true := by
  induction list generalizing mmio start with
  | nil => rfl
  | cons index rest ih =>
    rw [parkTurn, parkLook, pollReturns_two serving mmio index held, Option.map_some,
      Option.bind_some]
    exact ih _ _ (onward_poll serving 2 mmio index held).1.held

/-- A loop that ends leaves nothing stuck: every turn of it finds the same stuck. -/
theorem stuck_of_parkLoop {count : Nat} (held : holds mmio.device mmio.queues mmio.memory)
    (ended : (parkLoop model turns watched count mmio).isSome = true) :
    stuck watched serves mmio = 0 := by
  induction count generalizing mmio with
  | zero => cases ended
  | succ count ih =>
    rw [parkLoop] at ended
    cases turned : parkTurn model turns watched (mmio, 0) with
    | none =>
      rw [turned] at ended
      cases ended
    | some result =>
      obtain ⟨after, sum⟩ := result
      obtain ⟨onward, total⟩ := parkTurn_left serving watched held turned
      rw [turned, Option.bind_some, serving.prompt onward.held] at ended
      by_cases none : sum = 0
      · exact total.symm.trans none
      · rw [if_neg (by simp [none])] at ended
        have later := ih onward.held ended
        rwa [stuck, onward.unserved_eq] at later

end

/-! ### A queue that is not ready -/

/-- Memory in which the index of a ring at 256 is one. -/
def ahead : GuestMemory := ⟨[⟨0, 1024⟩], fun place => if place = 258 then 1 else 0⟩

/-- The driver has written the address of a ring, and nothing else. -/
def unready : VirtioMmio Unit := (new idle () ahead).write idle 0 0x090 [0, 1]

/-- The queue as the transport has it then. -/
def addressed : Virtqueue := { Virtqueue.new maxQueueSize with availAddr := 256 }

/-- An entry of a list of one. -/
theorem only_entry {queue other : Virtqueue} (found : [queue][index]? = some other) :
    index = 0 ∧ other = queue := by
  cases index with
  | zero => exact ⟨rfl, (Option.some.inj found).symm⟩
  | succ index => cases found

/-- The question of an interrupt leaves a split queue without event indices as it is. -/
theorem askAll_only {queue : Virtqueue} (split : queue.packed = false)
    (plain : queue.eventIdx = false) (serviced : Serviced) (memory : GuestMemory) :
    (askAll serviced memory 0 [queue]).1 = [queue] := by
  simp only [askAll]
  split
  · simp [Virtqueue.needsInterrupt, split, plain]
  · rfl

/-- Nothing is ever taken from it. -/
theorem serving_unready :
    Serving idle (fun _ queues memory => queues = [addressed] ∧ memory = ahead) fun _ => true where
  notify := by
    rintro _ _ _ index queue ⟨rfl, rfl⟩ found work
    rw [(only_entry found).2] at work
    exact absurd work (by decide +kernel)
  arm held := by
    obtain ⟨rfl, rfl⟩ := held
    exact ⟨⟨rfl, rfl⟩, fun _ => rfl⟩
  ask held serviced := by
    obtain ⟨rfl, rfl⟩ := held
    rw [askAll_only rfl rfl]
    exact ⟨⟨rfl, rfl⟩, fun _ => rfl⟩
  prompt _ := rfl

/-- A ring of one chain. -/
def full : Virtqueue :=
  { Virtqueue.new 4 with
    size := 4, descAddr := 512, availAddr := 256, usedAddr := 768, ready := true }

/-- The driver and the device are ready. -/
def offered : VirtioMmio Unit :=
  { new Mirror.taker () ahead with activated := true, queues := [full] }

/-- The driver was told to kick again. -/
def kicking : VirtioMmio Unit := offered.unsuppress [0]

/-- The device takes the chain, and then there is none. -/
theorem serving_offered :
    Serving Mirror.taker (fun _ queues memory => memory = kicking.memory ∧
      (queues = [full] ∨ queues = [Mirror.takes kicking.memory 4 full])) (· == 0) where
  notify := by
    rintro _ _ _ index queue ⟨rfl, rfl | rfl⟩ found work
    · obtain ⟨rfl, rfl⟩ := only_entry found
      have none : left [Mirror.takes kicking.memory 4 full] kicking.memory 0 = 0 := by
        decide +kernel
      refine ⟨⟨rfl, .inr rfl⟩, fun other differs => ?_, none⟩
      obtain ⟨place, rfl⟩ := Nat.exists_eq_succ_of_ne_zero differs
      rfl
    · rw [(only_entry found).2] at work
      exact absurd work (by decide +kernel)
  arm held := by
    obtain ⟨rfl, rfl | rfl⟩ := held
    · exact ⟨⟨rfl, .inl rfl⟩, fun _ => rfl⟩
    · exact ⟨⟨rfl, .inr rfl⟩, fun _ => rfl⟩
  ask held serviced := by
    obtain ⟨rfl, rfl | rfl⟩ := held
    · rw [askAll_only rfl rfl]
      exact ⟨⟨rfl, .inl rfl⟩, fun _ => rfl⟩
    · rw [askAll_only rfl rfl]
      exact ⟨⟨rfl, .inr rfl⟩, fun _ => rfl⟩
  prompt _ := rfl

end VirtioMmio
end Lighter.Virtio
