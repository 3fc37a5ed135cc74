import Lighter.Lib.Lap
import Lighter.Virtio.ReadyGeometry

/-!
# The lock-free mirror of the queues

A watcher asks a copy of each queue's cursor whether the driver has left anything, without the
transport's lock. The copies are made after every register write and at the top of every turn
of the loop that ends a service. What the last turn takes is not copied again: the loop ends
when no queue it notified the device of has its cursor elsewhere, and a packed ring taken once
round has it where it was, on the other lap. So the mirror is exact whenever the lock is free if
no notification of a loop's last turn takes an odd number of laps from its own queue, or anything
from another; and, for a device that takes from no other queue, only then. Before the first
register write there are only the defaults, which say the wrong lap.
-/

namespace Lighter.Virtio

open GuestMemory QueueSignal Virtqueue

/-- `QueueSignal::has_work`. -/
def QueueSignal.hasWork (signal : QueueSignal) (memory : GuestMemory) : Bool :=
  signal.ready &&
    if signal.packed then
      (memory.readU16 (address (address signal.ringAddr (signal.nextAvail.toNat * 16)) 14)).any
        fun flags =>
          let avail := flags &&& descAvail != 0
          let used := flags &&& descUsed != 0
          avail == signal.availWrap && used != avail
    else (memory.readU16 (address signal.ringAddr 2)).any (· != signal.nextAvail)

namespace Virtqueue

open Lap

/-- The cursor is where it was, a lap later or earlier. -/
def Lapped (before after : Virtqueue) : Prop :=
  after.nextAvail = before.nextAvail ∧ after.availWrap ≠ before.availWrap

instance (before after : Virtqueue) : Decidable (before.Lapped after) :=
  inferInstanceAs (Decidable (_ ∧ _))

/-- A cursor that stands at a place is moved on by the chains taken. -/
theorem cursor_advanceAvail (chains : List UInt16) {queue : Virtqueue} {place : Nat}
    (positive : 0 < queue.size.toNat) (fit : ∀ slots ∈ chains, slots ≤ queue.size)
    (position : queue.nextAvail.toNat = place % queue.size.toNat)
    (parity : queue.availWrap = lap queue.size.toNat place) :
    let after := chains.foldl advanceAvail queue
    let ended := place + (chains.map UInt16.toNat).sum
    after.nextAvail.toNat = ended % queue.size.toNat ∧
      after.availWrap = lap queue.size.toNat ended := by
  induction chains generalizing queue place with
  | nil => exact ⟨position, parity⟩
  | cons slots rest ih =>
    obtain ⟨short, fit⟩ := List.forall_mem_cons.mp fit
    rw [List.foldl_cons, List.map_cons, List.sum_cons, ← Nat.add_assoc]
    refine @ih (queue.advanceAvail slots) (place + slots.toNat) positive fit ?_ ?_
    · have narrow := (Nat.mod_lt (place + slots.toNat) positive).trans queue.size.toNat_lt
      rw [advanceAvail, position, Nat.mod_add_mod]
      exact UInt16.toNat_ofNat_of_lt' narrow
    · rw [advanceAvail, position, parity]
      exact (lap_add positive short place).symm

/-- A whole number of laps brings the cursor back, and an odd one on the other lap. -/
theorem lapped_iff (chains : List UInt16) {queue : Virtqueue}
    (inside : queue.nextAvail < queue.size) (fit : ∀ slots ∈ chains, slots ≤ queue.size) :
    queue.Lapped (chains.foldl advanceAvail queue) ↔
      (chains.map UInt16.toNat).sum % (2 * queue.size.toNat) = queue.size.toNat := by
  have low : queue.nextAvail.toNat < queue.size.toNat := inside
  have positive : 0 < queue.size.toNat := Nat.zero_lt_of_lt low
  have first : lap queue.size.toNat queue.nextAvail.toNat = true := by
    rw [lap, Nat.div_eq_of_lt low]
    rfl
  -- The cursor stands in the first lap, or at the same position in the second.
  obtain ⟨place, position, parity⟩ : ∃ place,
      queue.nextAvail.toNat = place % queue.size.toNat ∧
        queue.availWrap = lap queue.size.toNat place := by
    cases queue.availWrap with
    | true => exact ⟨_, (Nat.mod_eq_of_lt low).symm, first.symm⟩
    | false =>
      refine ⟨queue.nextAvail.toNat + queue.size.toNat, ?_, ?_⟩
      · rw [Nat.add_mod_right, Nat.mod_eq_of_lt low]
      · rw [lap_add_size positive, first]
        rfl
  obtain ⟨moved, turned⟩ := cursor_advanceAvail chains positive fit position parity
  rw [Lapped, ← UInt16.toNat_inj, moved, turned, position, parity]
  exact lap_flips_iff positive place _

/-- A signal answers as the queue it was copied from. -/
theorem hasWork_publish (queue : Virtqueue) (memory : GuestMemory) :
    (QueueSignal.publish queue).hasWork memory = queue.hasWork memory := by
  unfold QueueSignal.hasWork hasWork QueueSignal.publish
  cases queue.packed <;> rfl

/-- What is mirrored is the cursor and some of the geometry. -/
theorem publish_eq {queue other : Virtqueue} (same : queue.geometry = other.geometry)
    (place : queue.nextAvail = other.nextAvail) (lap : queue.availWrap = other.availWrap) :
    publish queue = publish other := by
  simp only [geometry, Geometry.mk.injEq] at same
  simp [publish, same, place, lap]

/-- Arming a queue changes nothing that is mirrored. -/
theorem publish_armNotifications (queue : Virtqueue) (memory : GuestMemory) :
    publish (queue.armNotifications memory).1 = publish queue := by
  unfold armNotifications publishAvailEvent
  split
  · rfl
  split
  · rfl
  · dsimp only
    split <;> split <;> rfl

/-- Nor does the question of an interrupt. -/
theorem publish_needsInterrupt (queue : Virtqueue) (memory : GuestMemory) :
    publish (queue.needsInterrupt memory).1 = publish queue := by
  unfold needsInterrupt
  split
  · rw [needsInterruptPacked_queue]
    rfl
  · split
    · rfl
    · split <;> rfl

/-- Nor does asking the driver for silence. -/
theorem publish_suppressNotifications (queue : Virtqueue) (memory : GuestMemory)
    (suppress : Bool) :
    publish (queue.suppressNotifications memory suppress).1 = publish queue := by
  unfold suppressNotifications publishAvailEvent
  split
  · rfl
  dsimp only
  split
  · rfl
  · split
    · split <;> split <;> rfl
    · rfl

end Virtqueue

namespace VirtioMmio.Mirror

open Transition

variable {δ : Type} (model : VirtioDevice δ)

/-- The transport, and whether a register was ever written. -/
structure World (δ : Type) where
  mmio : VirtioMmio δ
  written : Bool

/-- A store that is not to the device's own configuration. -/
def isRegister : Act → Bool
  | .write _ offset _ => offset < configSpace
  | _ => false

/-- One action. -/
def step (world : World δ) (action : Act) : World δ where
  mmio := act model world.mmio action
  written := world.written || isRegister action

/-- A fresh transport. -/
def start (device : δ) (memory : GuestMemory) : World δ := ⟨new model device memory, false⟩

/-- Every signal is that of its queue, and answers as the queue does whatever the memory is. -/
structure Exact (mmio : VirtioMmio δ) : Prop where
  signals : mmio.signals = mmio.queues.map QueueSignal.publish
  answers : ∀ (index : Nat) (signal : QueueSignal) (queue : Virtqueue),
    mmio.signals[index]? = some signal → mmio.queues[index]? = some queue →
      ∀ memory, signal.hasWork memory = queue.hasWork memory

/-- The service an action runs outside a register write: the turns it is given, the transport
as the loop finds it, and what was served before. -/
def passOf (mmio : VirtioMmio δ) : Act → Option (Nat × VirtioMmio δ × Serviced)
  | .service turns index => notified turns index
  | .poll turns index =>
      if (mmio.queues[index.toNat]?).any fun queue => queue.hasWork mmio.memory then
        notified turns index
      else none
  | .retry turns now =>
      if !mmio.activated ||
          (model.retryDeadline mmio.device).all fun deadline => now < deadline then
        none
      else
        let service := model.retryDeferred mmio.device mmio.queues mmio.memory now
        some (turns, mmio.serviceDone service, service.serviced)
  | _ => none
where
  notified (turns : Nat) (index : UInt16) : Option (Nat × VirtioMmio δ × Serviced) :=
    if mmio.activated then
      let service := model.notify mmio.device index mmio.queues mmio.memory
      some (turns, mmio.serviceDone service, service.serviced)
    else none

/-- The loop ends within its turns. -/
def ends : Nat → VirtioMmio δ → Serviced → Bool
  | 0, _, _ => false
  | turns + 1, mmio, serviced =>
      let turn := turn model mmio serviced
      !turn.moved || ends turns turn.mmio turn.serviced

/-- A turn before its looks: the cursors are copied and every queue is armed. -/
def begun (mmio : VirtioMmio δ) (serviced : Serviced) : Turn δ :=
  let (queues, memory) := armAll mmio.publishSignals.queues mmio.publishSignals.memory
  ⟨{ mmio.publishSignals with queues := queues, memory := memory }, serviced, false⟩

/-- The looks of a turn. -/
def looks (mmio : VirtioMmio δ) (serviced : Serviced) : List Nat :=
  List.range (begun mmio serviced).mmio.queues.length

/-- The notifications that looks at these queues make: the queue that the device is told of, and
the transport as it finds it. -/
def notices : List Nat → Turn δ → List (Nat × VirtioMmio δ)
  | [], _ => []
  | index :: rest, turn =>
      let later := notices rest (look model turn index)
      if (turn.mmio.queues[index]?).any fun queue => queue.hasWork turn.mmio.memory then
        (index, turn.mmio) :: later
      else later

/-- The notifications of the turn with which the loop ends. -/
def closing : Nat → VirtioMmio δ → Serviced → List (Nat × VirtioMmio δ)
  | 0, _, _ => []
  | turns + 1, mmio, serviced =>
      let turn := turn model mmio serviced
      if turn.moved then closing turns turn.mmio turn.serviced
      else notices model (looks mmio serviced) (begun mmio serviced)

/-- What a notification leaves of the queues. -/
def told (index : Nat) (mmio : VirtioMmio δ) : List Virtqueue :=
  (model.notify mmio.device (UInt16.ofNat index) mmio.queues mmio.memory).queues

/-- A notification takes from no other queue. -/
def Own (index : Nat) (mmio : VirtioMmio δ) : Prop :=
  ∀ other, other ≠ index →
    ((told model index mmio)[other]?).map publish = (mmio.queues[other]?).map publish

/-- And from its own it does not take an odd number of laps. -/
structure Modest (index : Nat) (mmio : VirtioMmio δ) : Prop where
  others : Own model index mmio
  unlapped : ∀ before after, mmio.queues[index]? = some before →
    (told model index mmio)[index]? = some after → ¬ before.Lapped after

/-- A service that is over has let go of the lock. -/
def Ended (world : World δ) (action : Act) : Prop :=
  ∀ turns mmio serviced, passOf model world.mmio action = some (turns, mmio, serviced) →
    ends model turns mmio serviced = true

/-- The notifications of a service's last turn, after the first register write. -/
def Closing (holds : Nat → VirtioMmio δ → Prop) (world : World δ) (action : Act) : Prop :=
  world.written = true → ∀ turns mmio serviced,
    passOf model world.mmio action = some (turns, mmio, serviced) →
      ∀ notice ∈ closing model turns mmio serviced, holds notice.1 notice.2

/-- The signals alone decide. -/
theorem exact_iff (mmio : VirtioMmio δ) : Exact mmio ↔ mmio.signals = mmio.queues.map publish := by
  refine ⟨Exact.signals, fun signals => ⟨signals, fun index signal queue copy found memory => ?_⟩⟩
  rw [signals, List.getElem?_map, found] at copy
  rw [← Option.some.inj copy, hasWork_publish]

/-! ## One turn -/

/-- A look at a queue without work leaves the turn as it was. Another tells the device, and the
turn has moved if the place is not what it was. -/
theorem look_cases (turn : Turn δ) (index : Nat) :
    (((turn.mmio.queues[index]?).any fun queue => queue.hasWork turn.mmio.memory) = false ∧
      look model turn index = turn ∧
      ∀ rest, notices model (index :: rest) turn = notices model rest turn) ∨
    ∃ queue, turn.mmio.queues[index]? = some queue ∧ queue.hasWork turn.mmio.memory = true ∧
      (look model turn index).mmio = turn.mmio.serviceDone
        (model.notify turn.mmio.device (UInt16.ofNat index) turn.mmio.queues turn.mmio.memory) ∧
      (look model turn index).moved = (turn.moved ||
        ((told model index turn.mmio)[index]?).map Virtqueue.nextAvail != some queue.nextAvail) ∧
      ∀ rest, notices model (index :: rest) turn =
        (index, turn.mmio) :: notices model rest (look model turn index) := by
  simp only [notices, look]
  cases found : turn.mmio.queues[index]? with
  | none => exact .inl ⟨rfl, rfl, fun _ => rfl⟩
  | some queue =>
    cases work : queue.hasWork turn.mmio.memory with
    | false => exact .inl (by simp [work])
    | true => exact .inr ⟨queue, rfl, work, by simp [work, told]⟩

/-- Once something has moved, the turn has moved. -/
theorem moved_looks (indices : List Nat) {turn : Turn δ} (moved : turn.moved = true) :
    (indices.foldl (look model) turn).moved = true := by
  induction indices generalizing turn with
  | nil => exact moved
  | cons index rest ih =>
    refine ih ?_
    rcases look_cases model turn index with ⟨_, same, _⟩ | ⟨_, _, _, _, moves, _⟩
    · rw [same, moved]
    · rw [moves, moved, Bool.true_or]

/-- Queues that agree at one place and at all others agree. -/
theorem map_publish_ext {queues others : List Virtqueue} {index : Nat}
    (here : (queues[index]?).map publish = (others[index]?).map publish)
    (there : ∀ other, other ≠ index →
      (queues[other]?).map publish = (others[other]?).map publish) :
    queues.map publish = others.map publish := by
  apply List.ext_getElem?
  intro place
  rw [List.getElem?_map, List.getElem?_map]
  by_cases same : place = index
  · rw [same, here]
  · exact there place same

/-- A turn that moved no cursor's place, and whose notifications were modest, left all that is
mirrored. -/
theorem mirrored_of_modest (indices : List Nat) {turn : Turn δ}
    (still : (indices.foldl (look model) turn).moved = false)
    (modest : ∀ notice ∈ notices model indices turn, Modest model notice.1 notice.2) :
    (indices.foldl (look model) turn).mmio.queues.map publish =
      turn.mmio.queues.map publish := by
  induction indices generalizing turn with
  | nil => rfl
  | cons index rest ih =>
    rcases look_cases model turn index with
      ⟨_, same, notes⟩ | ⟨queue, found, _, served, moves, notes⟩
    · rw [notes] at modest
      rw [List.foldl_cons, same] at still ⊢
      exact ih still modest
    rw [notes] at modest
    obtain ⟨first, later⟩ := List.forall_mem_cons.mp modest
    refine (ih still later).trans ?_
    rw [served]
    refine map_publish_ext ?_ first.others
    -- The place is what it was, for the turn did not move.
    have stays : (look model turn index).moved = false :=
      Bool.eq_false_iff.mpr fun moved => Bool.eq_false_iff.mp still (moved_looks model rest moved)
    rw [moves, Bool.or_eq_false_iff, bne_eq_false_iff_eq] at stays
    obtain ⟨after, left, place⟩ := Option.map_eq_some_iff.mp stays.2
    have lap := first.unlapped queue after found left
    have shapes := congrArg (·[index]?) (model.geometry_notify turn.mmio.device
      (UInt16.ofNat index) turn.mmio.queues turn.mmio.memory)
    rw [told] at left
    simp only [List.getElem?_map, found, left, Option.map_some, Option.some.injEq] at shapes
    rw [found, serviceDone, left, Option.map_some, Option.map_some]
    exact congrArg some (publish_eq shapes place (by_contra fun other => lap ⟨place, other⟩))

/-- Where notifications take from no other queue, looks at others leave what is mirrored. -/
theorem mirrored_looks {index : Nat} (indices : List Nat) (absent : index ∉ indices)
    {turn : Turn δ} (own : ∀ notice ∈ notices model indices turn, Own model notice.1 notice.2) :
    ((indices.foldl (look model) turn).mmio.queues[index]?).map publish =
      (turn.mmio.queues[index]?).map publish := by
  induction indices generalizing turn with
  | nil => rfl
  | cons first rest ih =>
    obtain ⟨differs, absent⟩ := not_or.mp (List.mem_cons.not.mp absent)
    rcases look_cases model turn first with ⟨_, same, notes⟩ | ⟨_, _, _, served, _, notes⟩
    · rw [notes] at own
      rw [List.foldl_cons, same]
      exact ih absent own
    · rw [notes] at own
      obtain ⟨here, later⟩ := List.forall_mem_cons.mp own
      refine (ih absent later).trans ?_
      rw [served]
      exact here index differs

/-- And then all that is mirrored is left only by modest notifications: each queue is looked at
once, so what one look takes no other look brings back. -/
theorem modest_of_mirrored {indices : List Nat} (once : indices.Nodup) {turn : Turn δ}
    (own : ∀ notice ∈ notices model indices turn, Own model notice.1 notice.2)
    (same : (indices.foldl (look model) turn).mmio.queues.map publish =
      turn.mmio.queues.map publish) :
    ∀ notice ∈ notices model indices turn, Modest model notice.1 notice.2 := by
  induction indices generalizing turn with
  | nil => exact nofun
  | cons index rest ih =>
    obtain ⟨absent, once⟩ := List.nodup_cons.mp once
    rcases look_cases model turn index with ⟨_, idle, notes⟩ | ⟨_, _, _, served, _, notes⟩
    · rw [notes] at own ⊢
      rw [List.foldl_cons, idle] at same
      exact ih once own same
    rw [notes] at own ⊢
    obtain ⟨alone, later⟩ := List.forall_mem_cons.mp own
    have here : ((look model turn index).mmio.queues[index]?).map publish =
        (turn.mmio.queues[index]?).map publish := by
      rw [← mirrored_looks model rest absent later, ← List.getElem?_map, ← List.getElem?_map]
      exact congrArg (·[index]?) same
    rw [served] at here
    have left : (look model turn index).mmio.queues.map publish =
        turn.mmio.queues.map publish := by
      rw [served]
      exact map_publish_ext here alone
    refine List.forall_mem_cons.mpr ⟨⟨alone, fun before after was is lapped => ?_⟩,
      ih once later (same.trans left.symm)⟩
    rw [told] at is
    rw [was, serviceDone, is, Option.map_some, Option.map_some] at here
    exact lapped.2 (congrArg QueueSignal.availWrap (Option.some.inj here))

/-! ## One service -/

/-- A turn copies the cursors it starts from. -/
theorem signals_turn (mmio : VirtioMmio δ) (serviced : Serviced) :
    (turn model mmio serviced).mmio.signals = mmio.queues.map publish := by
  have looked : ∀ (indices : List Nat) (begun : Turn δ),
      (indices.foldl (look model) begun).mmio.signals = begun.mmio.signals := by
    intro indices
    induction indices with
    | nil => exact fun _ => rfl
    | cons index rest ih =>
      refine fun begun => (ih _).trans ?_
      unfold look
      split
      · rfl
      · split <;> rfl
  exact looked _ _

/-- The mirror is exact after a turn exactly if its looks leave all that is mirrored. -/
theorem signals_turn_iff (mmio : VirtioMmio δ) (serviced : Serviced) :
    (turn model mmio serviced).mmio.signals =
        (turn model mmio serviced).mmio.queues.map publish ↔
      ((looks mmio serviced).foldl (look model) (begun mmio serviced)).mmio.queues.map publish =
        (begun mmio serviced).mmio.queues.map publish := by
  have armed : (begun mmio serviced).mmio.queues.map publish = mmio.queues.map publish :=
    map_armAll publish_armNotifications _ _
  rw [signals_turn, eq_comm, armed]
  rfl

/-- A loop that ends does so with a turn that moves nothing. -/
theorem settle_closing (turns : Nat) (mmio : VirtioMmio δ) (serviced : Serviced)
    (finished : ends model turns mmio serviced = true) :
    ∃ last before, (settle model turns mmio serviced).1 = (turn model last before).mmio ∧
      (turn model last before).moved = false ∧
      closing model turns mmio serviced =
        notices model (looks last before) (begun last before) := by
  induction turns generalizing mmio serviced with
  | zero => cases finished
  | succ turns ih =>
    simp only [ends, Bool.or_eq_true, Bool.not_eq_true'] at finished
    unfold settle closing
    by_cases moved : (turn model mmio serviced).moved = true
    · rw [if_pos moved, if_pos moved]
      exact ih _ _ (finished.resolve_left (Bool.not_eq_false _ ▸ moved))
    · rw [if_neg moved, if_neg moved]
      exact ⟨mmio, serviced, rfl, Bool.eq_false_iff.mpr moved, rfl⟩

/-- The last questions of a service change nothing that is mirrored. -/
theorem exact_finishService_iff (turns : Nat) (mmio : VirtioMmio δ) (serviced : Serviced) :
    Exact (finishService model turns mmio serviced) ↔
      (settle model turns mmio serviced).1.signals =
        (settle model turns mmio serviced).1.queues.map publish := by
  rw [exact_iff]
  unfold finishService
  dsimp only
  split
  · rfl
  · split <;> simp only [map_askAll publish_needsInterrupt]

/-- The mirror is exact after a service whose last notifications are modest. -/
theorem exact_of_modest {turns : Nat} {mmio : VirtioMmio δ} {serviced : Serviced}
    (finished : ends model turns mmio serviced = true)
    (modest : ∀ notice ∈ closing model turns mmio serviced, Modest model notice.1 notice.2) :
    Exact (finishService model turns mmio serviced) := by
  obtain ⟨last, before, ended, still, notes⟩ := settle_closing model turns mmio serviced finished
  rw [notes] at modest
  rw [exact_finishService_iff, ended, signals_turn_iff]
  exact mirrored_of_modest model _ still modest

/-- And after no other, where these take from no other queue than their own. -/
theorem modest_of_exact {turns : Nat} {mmio : VirtioMmio δ} {serviced : Serviced}
    (finished : ends model turns mmio serviced = true)
    (own : ∀ notice ∈ closing model turns mmio serviced, Own model notice.1 notice.2)
    (exact : Exact (finishService model turns mmio serviced)) :
    ∀ notice ∈ closing model turns mmio serviced, Modest model notice.1 notice.2 := by
  obtain ⟨last, before, ended, _, notes⟩ := settle_closing model turns mmio serviced finished
  rw [exact_finishService_iff, ended, signals_turn_iff] at exact
  rw [notes] at own ⊢
  exact modest_of_mirrored model List.nodup_range own exact

/-! ## Every action -/

/-- What an action comes to: its service, or nothing that is mirrored. -/
def Comes (mmio after : VirtioMmio δ) : Option (Nat × VirtioMmio δ × Serviced) → Prop
  | some (turns, begun, serviced) => after = finishService model turns begun serviced
  | none => after.signals = mmio.signals ∧ after.queues.map publish = mmio.queues.map publish

/-- A notification from the host. -/
theorem comes_notified (mmio : VirtioMmio δ) (turns : Nat) (index : UInt16) :
    Comes model mmio (mmio.notifyQueue model turns index)
      (passOf.notified model mmio turns index) := by
  unfold passOf.notified notifyQueue
  cases mmio.activated with
  | true => rfl
  | false =>
    simp only [Bool.not_false, if_true, Bool.false_eq_true, if_false]
    split <;> exact ⟨rfl, rfl⟩

/-- A poll is a notification if there is work, and nothing if there is none. -/
theorem pollQueue_eq (mmio : VirtioMmio δ) (turns : Nat) (index : UInt16) :
    mmio.pollQueue model turns index =
      if (mmio.queues[index.toNat]?).any fun queue => queue.hasWork mmio.memory then
        mmio.notifyQueue model turns index
      else mmio := by
  unfold pollQueue
  cases mmio.queues[index.toNat]? with
  | none => rfl
  | some queue => cases work : queue.hasWork mmio.memory <;> simp [work]

/-- Every action but a register write. -/
theorem comes_act (mmio : VirtioMmio δ) {action : Act} (other : isRegister action = false) :
    Comes model mmio (act model mmio action) (passOf model mmio action) := by
  cases action with
  | write turns offset data =>
    have config : offset ≥ configSpace := Nat.not_lt.mp (of_decide_eq_false other)
    simp only [act, write, if_pos config]
    exact ⟨rfl, rfl⟩
  | memory memory | configChange => exact ⟨rfl, rfl⟩
  | service turns index => exact comes_notified model mmio turns index
  | poll turns index =>
    simp only [act, passOf, pollQueue_eq]
    split
    · exact comes_notified model mmio turns index
    · exact ⟨rfl, rfl⟩
  | retry turns now =>
    simp only [act, retryDeferred, passOf]
    split
    · exact ⟨rfl, rfl⟩
    · rfl
  | suppress index suppress =>
    simp only [act, suppressNotifications]
    cases found : mmio.queues[index.toNat]? with
    | none => exact ⟨rfl, rfl⟩
    | some queue =>
      refine ⟨rfl, ?_⟩
      rw [List.map_set, queue.publish_suppressNotifications]
      apply List.ext_getElem?
      grind

/-- A register is written by a store below the device's configuration. -/
theorem write_of_isRegister {action : Act} (register : isRegister action = true) :
    ∃ turns offset data, action = .write turns offset data ∧ offset < configSpace := by
  cases action with
  | write turns offset data => exact ⟨turns, offset, data, rfl, of_decide_eq_true register⟩
  | memory _ | service _ _ | poll _ _ | retry _ _ | configChange | suppress _ _ => cases register

/-- The mirror is refreshed after every register write. -/
theorem exact_write (world : World δ) {action : Act} (register : isRegister action = true) :
    Exact (step model world action).mmio := by
  obtain ⟨turns, offset, data, rfl, low⟩ := write_of_isRegister register
  refine (exact_iff _).mpr ?_
  simp only [step, act, write, if_neg (Nat.not_le.mpr low)]
  split <;> rfl

/-- What holds since the first register write. -/
def Mirrored (world : World δ) : Prop := world.written = true → Exact world.mmio

/-- One action keeps the mirror exact if its last notifications are modest. -/
theorem exact_step (world : World δ) (action : Act) (exact : Mirrored world)
    (allowed : Ended model world action ∧ Closing model (Modest model) world action) :
    Mirrored (step model world action) := by
  intro now
  cases register : isRegister action with
  | true => exact exact_write model world register
  | false =>
    have before : world.written = true := by simpa [step, register] using now
    have comes := comes_act model world.mmio register
    cases pass : passOf model world.mmio action with
    | none =>
      rw [pass] at comes
      rw [exact_iff, step, comes.1, comes.2]
      exact (exact before).signals
    | some service =>
      obtain ⟨turns, begun, serviced⟩ := service
      rw [pass] at comes
      rw [step, comes]
      exact exact_of_modest model (allowed.1 _ _ _ pass) (allowed.2 before _ _ _ pass)

/-- And only then, where these take from no other queue than their own. -/
theorem modest_step (world : World δ) (action : Act)
    (allowed : Ended model world action ∧ Closing model (Own model) world action)
    (after : Mirrored (step model world action)) : Closing model (Modest model) world action := by
  intro before turns mmio serviced pass
  have other : isRegister action = false := by
    cases action with
    | write turns offset data => cases pass
    | memory _ | service _ _ | poll _ _ | retry _ _ | configChange | suppress _ _ => rfl
  have exact := after (by simp [step, before])
  have comes := comes_act model world.mmio other
  rw [pass] at comes
  rw [step, comes] at exact
  exact modest_of_exact model (allowed.1 _ _ _ pass) (allowed.2 before _ _ _ pass) exact

/-- At every moment of a run after the first register write at which the lock is free, every
signal is that of its queue, if the notifications in the last turn of every service take nothing
from other queues than their own, and from their own no odd number of laps. In a run where they
take from no other queue, that is exactly when. Chains taken from a packed ring bring the cursor
back to its place on the other lap exactly if their slots are an odd number of rings. -/
theorem mirror_exact (device : δ) (memory : GuestMemory) (actions : List Act)
    (ended : Legal (Ended model) (step model) (start model device memory) actions) :
    (Legal (Closing model (Modest model)) (step model) (start model device memory) actions →
      ∀ earlier, earlier <+: actions →
        Mirrored (run (step model) (start model device memory) earlier)) ∧
    (Legal (Closing model (Own model)) (step model) (start model device memory) actions →
      (∀ earlier, earlier <+: actions →
        Mirrored (run (step model) (start model device memory) earlier)) →
      Legal (Closing model (Modest model)) (step model) (start model device memory) actions) ∧
    ∀ (queue : Virtqueue) (chains : List UInt16), queue.nextAvail < queue.size →
      (∀ slots ∈ chains, slots ≤ queue.size) →
        (queue.Lapped (chains.foldl advanceAvail queue) ↔
          (chains.map UInt16.toNat).sum % (2 * queue.size.toNat) = queue.size.toNat) := by
  have fresh : Mirrored (start model device memory) := nofun
  refine ⟨?_, fun own => ?_, fun queue chains => lapped_iff chains⟩
  · rintro modest earlier ⟨rest, rfl⟩
    have legal := ended.and _ _ modest
    rw [legal_append] at legal
    exact run_invariant _ _ Mirrored (exact_step model) _ earlier fresh legal.1
  · exact (holds_throughout_iff_of_legal (Closing model (Modest model)) (step model)
      (fun world action => Ended model world action ∧ Closing model (Own model) world action)
      Mirrored (fun world action allowed exact => ⟨modest_step model world action allowed,
        fun modest => exact_step model world action exact ⟨allowed.1, modest⟩⟩)
      _ actions (ended.and _ _ own) fresh).mp

/-! ## A lap -/

/-- Takes so many chains. -/
def takes (memory : GuestMemory) : Nat → Virtqueue → Virtqueue
  | 0, queue => queue
  | count + 1, queue => takes memory count (queue.pop memory).1

/-- Taking changes no geometry. -/
theorem geometry_takes (memory : GuestMemory) (count : Nat) (queue : Virtqueue) :
    (takes memory count queue).geometry = queue.geometry := by
  induction count generalizing queue with
  | zero => rfl
  | succ count ih => exact (ih _).trans (queue.pop_keeps memory).1

/-- A device with two queues. Told of the first it takes up to four chains from it, and keeps
them. The second has buffers it never needs. -/
def taker : VirtioDevice Unit where
  __ := idle
  features _ := ringPacked
  queueCount := 2
  notify device index queues memory :=
    match index, queues with
    | 0, queue :: rest => ⟨device, takes memory 4 queue :: rest, memory, .none⟩
    | _, _ => ⟨device, queues, memory, .none⟩
  geometry_notify _ index queues memory := by
    split
    · rw [List.map_cons, List.map_cons, geometry_takes]
    · rfl

/-- A packed ring of two at 0x1000 and one at 0x1800, with these bytes in their flags. -/
def flagged (places : List Nat) : GuestMemory where
  regions := [⟨0, 0x2000⟩]
  bytes := fun place => if place ∈ places then 0x80 else 0

/-- Both descriptors of the first ring are on offer. -/
def lapOffered : GuestMemory := flagged [0x100e, 0x101e]

/-- One descriptor of either ring is on offer. -/
def oneOffered : GuestMemory := flagged [0x100e, 0x180e]

/-- The driver sets up a queue of two entries at such an address. -/
def ring (index high : UInt8) : List Act :=
  [.write 0 0x030 [index], .write 0 0x038 [2], .write 0 0x080 [0, high],
    .write 0 0x090 [0, high + 2], .write 0 0x0a0 [0, high + 4], .write 0 0x044 [1]]

/-- The driver chooses the packed layout, sets up both queues and is ready. -/
def setUp : List Act :=
  [.write 0 0x024 [1], .write 0 0x020 [4]] ++ ring 0 0x10 ++ ring 1 0x18 ++ [.write 0 0x070 [4]]

/-- A whole lap is offered, and the host serves the other queue. -/
def lap : List Act := setUp ++ [.memory lapOffered, .service 3 1]

/-- A fresh transport in empty memory. -/
def blank : World Unit := start taker () ⟨[], fun _ => 0⟩

/-- The transport after some actions. -/
def afterwards (actions : List Act) : VirtioMmio Unit := (run (step taker) blank actions).mmio

/-- The lap is taken and the signal still has the cursor's lap before it: it finds work where
the queue has none. A fresh transport has signals of no lap at all. -/
theorem mirror_a_lap_behind :
    (afterwards lap).signals.map QueueSignal.availWrap = [true, true] ∧
      (afterwards lap).queues.map Virtqueue.availWrap = [false, true] ∧
      (afterwards lap).signals.map (QueueSignal.hasWork · lapOffered) = [true, false] ∧
      (afterwards lap).queues.map (Virtqueue.hasWork · lapOffered) = [false, false] ∧
      (afterwards []).signals.map QueueSignal.availWrap ≠
        (afterwards []).queues.map Virtqueue.availWrap := by
  decide +kernel

/-- One descriptor is on offer in either ring, and the host serves the second queue. -/
def half : List Act := setUp ++ [.memory oneOffered, .service 3 1]

/-- Told of the second queue, the device takes nothing. -/
theorem taker_second (mmio : VirtioMmio Unit) : Modest taker 1 mmio := by
  refine ⟨fun _ _ => rfl, fun before after was is lapped => lapped.2 ?_⟩
  have same : told taker 1 mmio = mmio.queues := rfl
  rw [same, was] at is
  rw [Option.some.inj is]

/-- The first turn takes the descriptor of the first ring, the last tells the device of the second
in vain, and the signals have the cursors that are left. -/
theorem mirror_exact_half :
    (afterwards half).queues.map Virtqueue.nextAvail = [1, 0] ∧ Exact (afterwards half) := by
  have writes : Legal (fun _ action => action.isWrite = true) (step taker) blank setUp :=
    legal_of_all _ (by decide)
  have quiet : ∀ (world : World Unit) (action : Act), action.isWrite = true →
      passOf taker world.mmio action = none := by
    intro world action written
    cases action with
    | write turns offset data => rfl
    | memory _ | service _ _ | poll _ _ | retry _ _ | configChange | suppress _ _ => cases written
  have last : (passOf taker (step taker (run (step taker) blank setUp)
        (.memory oneOffered)).mmio (.service 3 1)).map (fun pass =>
      (ends taker pass.1 pass.2.1 pass.2.2,
        (closing taker pass.1 pass.2.1 pass.2.2).map Prod.fst)) = some (true, [1]) := by
    decide +kernel
  have ended : Legal (Ended taker) (step taker) blank half := by
    refine (legal_append _ _ _ _ _).mpr ⟨writes.weaken _ _ ?_, nofun, ?_, trivial⟩
    · intro world action written _ _ _ pass
      rw [quiet world action written] at pass
      cases pass
    · intro turns mmio serviced pass
      rw [pass, Option.map_some] at last
      exact congrArg Prod.fst (Option.some.inj last)
  have modest : Legal (Closing taker (Modest taker)) (step taker) blank half := by
    refine (legal_append _ _ _ _ _).mpr ⟨writes.weaken _ _ ?_, nofun, ?_, trivial⟩
    · intro world action written _ _ _ _ pass
      rw [quiet world action written] at pass
      cases pass
    · intro _ turns mmio serviced pass notice made
      rw [pass, Option.map_some] at last
      have heads : (closing taker turns mmio serviced).map Prod.fst = [1] :=
        congrArg Prod.snd (Option.some.inj last)
      have second : notice.1 ∈ (closing taker turns mmio serviced).map Prod.fst :=
        List.mem_map_of_mem made
      rw [heads, List.mem_singleton] at second
      rw [second]
      exact taker_second notice.2
  refine ⟨by decide +kernel, ?_⟩
  exact (mirror_exact taker () ⟨[], fun _ => 0⟩ half ended).1 modest _
    List.prefix_rfl (by decide +kernel)

end VirtioMmio.Mirror
end Lighter.Virtio
