import Lighter.Lib.Transition
import Lighter.Virtio.Services

/-!
# The geometry of a live queue

The transport checks a queue's geometry once, when the driver makes it ready, and
every ring operation relies on what was checked. The registers that choose the
geometry can be written at any later time all the same. The runs through which a
ready queue keeps the geometry it was made ready with are exactly those whose
register writes leave the chosen values of ready queues as they are.
-/

namespace Lighter.Virtio.VirtioMmio

open Transition

/-- What was chosen for a queue when it was made ready. -/
structure Shape where
  size : UInt16
  descAddr : Nat
  availAddr : Nat
  usedAddr : Nat
  packed : Bool
deriving DecidableEq, Repr

end Lighter.Virtio.VirtioMmio

namespace Lighter.Virtio.Geometry

open VirtioMmio

def shape (geometry : Geometry) : Shape :=
  ⟨geometry.size, geometry.descAddr, geometry.availAddr, geometry.usedAddr, geometry.packed⟩

/-- What the registers of size, addresses and features do not touch. -/
def lasting (geometry : Geometry) : Bool × UInt16 := (geometry.ready, geometry.maxSize)

/-- A size and addresses that the ring arithmetic can work with. -/
structure Usable (geometry : Geometry) : Prop where
  positive : 0 < geometry.size
  supported : geometry.size ≤ geometry.maxSize
  power : isPowerOfTwo geometry.size = true
  desc : geometry.descAddr ≠ 0
  avail : geometry.availAddr ≠ 0
  used : geometry.usedAddr ≠ 0

end Lighter.Virtio.Geometry

namespace Lighter.Virtio.VirtioMmio

open Transition

theorem usable_iff (queue : Virtqueue) : queue.isGeometryValid = true ↔ queue.geometry.Usable := by
  simp only [Virtqueue.isGeometryValid, Bool.and_eq_true, decide_eq_true_eq, bne_iff_ne]
  constructor
  · rintro ⟨⟨⟨⟨⟨positive, supported⟩, power⟩, desc⟩, avail⟩, used⟩
    exact ⟨positive, supported, power, desc, avail, used⟩
  · rintro ⟨positive, supported, power, desc, avail, used⟩
    exact ⟨⟨⟨⟨⟨positive, supported⟩, power⟩, desc⟩, avail⟩, used⟩

/-- The transport, and the shape each queue had when it was last made ready. -/
structure World (δ : Type) where
  mmio : VirtioMmio δ
  made : Nat → Shape

variable {δ : Type} (model : VirtioDevice δ)

/-- The geometry of every queue. -/
def geometries (mmio : VirtioMmio δ) : List Geometry := mmio.queues.map Virtqueue.geometry

/-- The shape of a queue, noted at the moment its ready flag is set. -/
def noted (made : Nat → Shape) (before after : List Geometry) (index : Nat) : Shape :=
  match before[index]?, after[index]? with
  | some earlier, some later =>
      if !earlier.ready && later.ready then later.shape else made index
  | _, _ => made index

def step (world : World δ) (action : Act) : World δ where
  mmio := act model world.mmio action
  made := noted world.made world.mmio.geometries (act model world.mmio action).geometries

def start (device : δ) (memory : GuestMemory) : World δ where
  mmio := new model device memory
  made := fun _ => ⟨0, 0, 0, 0, false⟩

/-- Every ready queue is usable and has the shape it was made ready with. -/
def Live (made : Nat → Shape) (queues : List Geometry) : Prop :=
  ∀ index geometry, queues[index]? = some geometry → geometry.ready = true →
    geometry.Usable ∧ geometry.shape = made index

def Kept (world : World δ) : Prop := Live world.made world.mmio.geometries

/-- The address of an area. -/
def areaAddr (queue : Virtqueue) : Area → Nat
  | .desc => queue.descAddr
  | .driver => queue.availAddr
  | .device => queue.usedAddr

/-- A write that leaves what was chosen for ready queues as it is: the selected
queue's size and addresses, and the layout of every queue. -/
def Gentle (mmio : VirtioMmio δ) (value : UInt32) : Register → Prop
  | .queueNum => ∀ queue, mmio.queues[mmio.queueSel.toNat]? = some queue → queue.ready = true →
      min value.toUInt16 queue.maxSize = queue.size
  | .queueAddr area high => ∀ queue, mmio.queues[mmio.queueSel.toNat]? = some queue →
      queue.ready = true →
        Virtqueue.half (areaAddr queue area) value high = areaAddr queue area
  | .driverFeatures => ∀ queue ∈ mmio.queues, queue.ready = true →
      ((mmio.accepted model value).negotiatedFeatures model &&& ringPacked != 0) = queue.packed
  | _ => True

/-- Every register the guest writes, it writes gently. -/
def Orderly (world : World δ) : Act → Prop
  | .write _ offset data => offset < configSpace →
      ∀ register, Register.ofOffset (offset / 4 * 4) = some register →
        Gentle model world.mmio (storeValue data) register
  | _ => True

/-- A service leaves the geometry alone. -/
theorem stable_geometries (geometries : List Geometry) :
    Stable model fun mmio => mmio.geometries = geometries where
  mirror _ _ same := same
  rings _ _ _ kept same := kept.trans same
  notify _ _ same := (model.geometry_notify _ _ _ _).trans same
  retry _ _ same := (model.geometry_retryDeferred _ _ _ _).trans same
  status _ _ same := same
  generation _ _ same := same
  early _ _ same := same

/-! ## What a register does to it -/

variable {made : Nat → Shape} {before after : List Geometry}

/-- Nothing is noted of a queue that keeps its ready flag. -/
theorem noted_same {index : Nat}
    (same : (after[index]?).map Geometry.ready = (before[index]?).map Geometry.ready) :
    noted made before after index = made index := by
  unfold noted
  split
  · grind
  · rfl

/-- Where the ready flags stay, so do the laws, as long as no ready queue's shape is
touched. -/
theorem live_iff (live : Live made before)
    (flags : ∀ index : Nat, (after[index]?).map Geometry.lasting =
      (before[index]?).map Geometry.lasting) :
    Live (noted made before after) after ↔
      ∀ (index : Nat) (prior later : Geometry), before[index]? = some prior →
        after[index]? = some later → prior.ready = true → later.shape = prior.shape := by
  have ready : ∀ index : Nat, (after[index]?).map Geometry.ready =
      (before[index]?).map Geometry.ready := by
    intro index
    have first := congrArg (Option.map Prod.fst) (flags index)
    rwa [Option.map_map, Option.map_map] at first
  constructor
  · intro kept index prior later atFirst atLast up
    have flag := ready index
    rw [atFirst, atLast] at flag
    have still : later.ready = prior.ready := Option.some.inj flag
    have now := (kept index later atLast (still.trans up)).2
    rw [noted_same (ready index)] at now
    exact now.trans (live index prior atFirst up).2.symm
  intro untouched index later atLast up
  have flag := flags index
  rw [atLast] at flag
  obtain ⟨prior, atFirst, pair⟩ := Option.map_eq_some_iff.mp flag.symm
  obtain ⟨still, bound⟩ := Prod.mk.inj pair
  have was := live index prior atFirst (still.trans up)
  have shape := untouched index prior later atFirst atLast (still.trans up)
  rw [noted_same (ready index)]
  refine ⟨?_, shape.trans was.2⟩
  have parts := shape
  simp only [Geometry.shape, Shape.mk.injEq] at parts
  obtain ⟨size, desc, avail, used, -⟩ := parts
  obtain ⟨positive, supported, power, descSet, availSet, usedSet⟩ := was.1
  exact ⟨size ▸ positive, by rw [size, ← bound]; exact supported, size ▸ power, desc ▸ descSet,
    avail ▸ availSet, used ▸ usedSet⟩

theorem live_of_same (live : Live made before) (same : after = before) :
    Live (noted made before after) after := by
  subst same
  refine (live_iff live fun _ => rfl).mpr ?_
  intro index prior later atFirst atLast _
  rw [atFirst] at atLast
  exact congrArg Geometry.shape (Option.some.inj atLast).symm

/-- Where no queue is ready there is nothing to keep. -/
theorem live_of_down (down : ∀ geometry ∈ after, geometry.ready = false)
    (made : Nat → Shape) : Live made after := by
  intro index geometry found up
  have off := down geometry (List.mem_of_getElem? found)
  rw [off] at up
  exact absurd up Bool.false_ne_true

section Selected

variable (mmio : VirtioMmio δ) (change : Virtqueue → Virtqueue)

theorem getElem?_onSelected (index : Nat) :
    (mmio.onSelected change).geometries[index]? =
      if mmio.queueSel.toNat = index then
        (mmio.queues[index]?).map fun queue => (change queue).geometry
      else mmio.geometries[index]? := by
  simp only [geometries, onSelected, List.getElem?_map, List.getElem?_modify]
  split
  · simp [Option.map_map, Function.comp_def]
  · simp

/-- A register that works on the selected queue and not on its ready flag. -/
theorem live_onSelected_iff (live : Live made mmio.geometries)
    (lasting : ∀ queue, (change queue).geometry.lasting = queue.geometry.lasting) :
    Live (noted made mmio.geometries (mmio.onSelected change).geometries)
        (mmio.onSelected change).geometries ↔
      ∀ queue, mmio.queues[mmio.queueSel.toNat]? = some queue → queue.ready = true →
        (change queue).geometry.shape = queue.geometry.shape := by
  rw [live_iff live]
  · constructor
    · intro untouched queue found up
      refine untouched mmio.queueSel.toNat queue.geometry (change queue).geometry ?_ ?_ up
      · rw [geometries, List.getElem?_map, found, Option.map_some]
      · rw [getElem?_onSelected, if_pos rfl, found, Option.map_some]
    intro untouched index prior later atFirst atLast up
    rw [getElem?_onSelected] at atLast
    rw [geometries, List.getElem?_map] at atFirst
    obtain ⟨queue, found, rfl⟩ := Option.map_eq_some_iff.mp atFirst
    split at atLast
    · rename_i here
      rw [found, Option.map_some] at atLast
      rw [← Option.some.inj atLast]
      exact untouched queue (here ▸ found) up
    · rw [geometries, List.getElem?_map, found, Option.map_some] at atLast
      rw [← Option.some.inj atLast]
  · intro index
    rw [getElem?_onSelected]
    split
    · simp only [geometries, List.getElem?_map, Option.map_map, Function.comp_def, lasting]
    · rfl

end Selected

/-- Making a queue ready checks it first, and notes the shape it has then. -/
theorem live_setReady (mmio : VirtioMmio δ) (ready : Bool) (live : Live made mmio.geometries) :
    Live (noted made mmio.geometries
        (mmio.onSelected fun queue => (queue.setReady ready).1).geometries)
      (mmio.onSelected fun queue => (queue.setReady ready).1).geometries := by
  intro index later atLast up
  have atLater := atLast
  rw [getElem?_onSelected] at atLast
  split at atLast
  · obtain ⟨queue, found, changed⟩ := Option.map_eq_some_iff.mp atLast
    have atFirst : mmio.geometries[index]? = some queue.geometry := by
      rw [geometries, List.getElem?_map, found, Option.map_some]
    simp only [noted, atFirst, atLater]
    unfold Virtqueue.setReady at changed
    split at changed
    · -- Refused: the queue stays as it was.
      subst changed
      rw [Bool.not_and_self, if_neg Bool.false_ne_true]
      exact live index queue.geometry atFirst up
    rename_i passed
    subst changed
    have on : ready = true := up
    subst on
    have valid : queue.isGeometryValid = true := by simpa using passed
    obtain ⟨positive, supported, power, desc, avail, used⟩ := (usable_iff queue).mp valid
    refine ⟨⟨positive, supported, power, desc, avail, used⟩, ?_⟩
    cases was : queue.geometry.ready with
    | true =>
      have shape := (live index queue.geometry atFirst was).2
      simp only [Bool.not_true, Bool.false_and, if_neg Bool.false_ne_true]
      exact shape
    | false => simp [Virtqueue.geometry]
  · have kept := live index later atLast up
    rw [noted_same (by rw [atLater, atLast])]
    exact kept

theorem shape_setAddr_iff (queue : Virtqueue) (area : Area) (value : UInt32) (high : Bool) :
    (queue.setAddr area value high).geometry.shape = queue.geometry.shape ↔
      Virtqueue.half (areaAddr queue area) value high = areaAddr queue area := by
  cases area <;> simp [Virtqueue.setAddr, Virtqueue.geometry, Geometry.shape, areaAddr]

/-- Accepting features sets the layout of every queue, ready or not. -/
theorem live_ackFeatures_iff (mmio : VirtioMmio δ) (value : UInt32)
    (live : Live made mmio.geometries) :
    Live (noted made mmio.geometries (mmio.ackFeatures model value).geometries)
        (mmio.ackFeatures model value).geometries ↔
      Gentle model mmio value .driverFeatures := by
  have places : ∀ index : Nat, (mmio.ackFeatures model value).geometries[index]? =
      (mmio.queues[index]?).map fun queue => { queue.geometry with
        eventIdx := (mmio.accepted model value).negotiatedFeatures model &&& ringEventIdx != 0
        packed := (mmio.accepted model value).negotiatedFeatures model &&& ringPacked != 0 } := by
    intro index
    simp only [geometries, ackFeatures, List.map_map, List.getElem?_map]
    rfl
  rw [live_iff live]
  · constructor
    · intro untouched queue member up
      obtain ⟨index, found⟩ := List.getElem?_of_mem member
      have same := untouched index queue.geometry _
        (by rw [geometries, List.getElem?_map, found, Option.map_some])
        (by rw [places, found, Option.map_some]) up
      exact congrArg Shape.packed same
    · intro gentle index prior later atFirst atLast up
      rw [geometries, List.getElem?_map] at atFirst
      obtain ⟨queue, found, rfl⟩ := Option.map_eq_some_iff.mp atFirst
      rw [places, found, Option.map_some] at atLast
      rw [← Option.some.inj atLast]
      have layout := gentle queue (List.mem_of_getElem? found) up
      simp [Geometry.shape, layout, Virtqueue.geometry]
  · intro index
    rw [places, geometries, List.getElem?_map, Option.map_map, Option.map_map]
    rfl

theorem live_setStatus (turns : Nat) (mmio : VirtioMmio δ) (value : UInt32)
    (live : Live made mmio.geometries) :
    Live (noted made mmio.geometries (mmio.setStatus model turns value).geometries)
      (mmio.setStatus model turns value).geometries := by
  unfold setStatus
  split
  · apply live_of_down
    intro geometry member
    simp only [geometries, reset, List.map_map, List.mem_map] at member
    obtain ⟨queue, -, rfl⟩ := member
    rfl
  · dsimp only
    split
    · exact live_of_same live ((stable_geometries model mmio.geometries).kicks turns _ _ rfl)
    · exact live_of_same live rfl

/-- One register: the law survives the write exactly if the write is gentle. -/
theorem live_register_iff (turns : Nat) (mmio : VirtioMmio δ) (register : Register)
    (value : UInt32) (live : Live made mmio.geometries) :
    Live (noted made mmio.geometries
          (mmio.writeRegisterInner model turns register value).geometries)
        (mmio.writeRegisterInner model turns register value).geometries ↔
      Gentle model mmio value register := by
  cases register with
  | deviceFeaturesSel | driverFeaturesSel | queueSel | interruptAck | shmSel =>
    exact iff_of_true (live_of_same live rfl) trivial
  | driverFeatures => exact live_ackFeatures_iff model mmio value live
  | queueNotify =>
    exact iff_of_true (live_of_same live
      ((stable_geometries model mmio.geometries).notifyQueue turns mmio _ rfl)) trivial
  | status => exact iff_of_true (live_setStatus model turns mmio value live) trivial
  | queueReady => exact iff_of_true (live_setReady mmio _ live) trivial
  | queueNum =>
    refine (live_onSelected_iff mmio (fun queue => queue.setSize value.toUInt16) live
      fun _ => rfl).trans ?_
    simp [Gentle, Virtqueue.setSize, Virtqueue.geometry, Geometry.shape]
  | queueAddr area high =>
    refine (live_onSelected_iff mmio _ live fun queue => by cases area <;> rfl).trans ?_
    simp [Gentle, shape_setAddr_iff]

/-- One action: the law survives it exactly if it is orderly. -/
theorem kept_step_iff (world : World δ) (action : Act) (kept : Kept world) :
    Kept (step model world action) ↔ Orderly model world action := by
  have unchanged : (act model world.mmio action).geometries = world.mmio.geometries →
      Orderly model world action →
        (Kept (step model world action) ↔ Orderly model world action) :=
    fun same orderly => iff_of_true (live_of_same kept same) orderly
  have still : action.isWrite = false →
      (act model world.mmio action).geometries = world.mmio.geometries :=
    fun other => (stable_geometries model _).act world.mmio action other rfl
  cases action with
  | memory _ | service _ _ | poll _ _ | retry _ _ | configChange | suppress _ _ =>
    exact unchanged (still rfl) trivial
  | write turns offset data =>
    by_cases low : offset < configSpace
    · cases decoded : Register.ofOffset (offset / 4 * 4) with
      | none =>
        refine unchanged ?_ (by simp [Orderly, decoded])
        simp only [act, write, if_neg (Nat.not_le.mpr low), decoded]
        rfl
      | some register =>
        have one := live_register_iff model turns world.mmio register (storeValue data) kept
        have written : (act model world.mmio (.write turns offset data)).geometries =
            (world.mmio.writeRegisterInner model turns register (storeValue data)).geometries := by
          simp only [act, write, if_neg (Nat.not_le.mpr low), decoded]
          rfl
        simp [Kept, step, written, one, Orderly, low, decoded]
    · refine unchanged ?_ (fun below => absurd below low)
      simp only [act, write, if_pos (Nat.le_of_not_lt low)]
      rfl

theorem kept_start (device : δ) (memory : GuestMemory) : Kept (start model device memory) := by
  apply live_of_down
  intro geometry member
  simp only [geometries, start, new, List.map_map, List.mem_map] at member
  obtain ⟨index, -, rfl⟩ := member
  rfl

/-- A ready queue keeps a valid geometry through a run exactly if every register
write of the run leaves what was chosen for ready queues as it is. -/
theorem ready_geometry_kept_iff (device : δ) (memory : GuestMemory) (actions : List Act) :
    (∀ earlier, earlier <+: actions →
        Kept (run (step model) (start model device memory) earlier)) ↔
      Legal (Orderly model) (step model) (start model device memory) actions :=
  holds_throughout_iff (Orderly model) (step model) (fun _ => True) Kept
    (fun world action _ kept => kept_step_iff model world action kept)
    (start model device memory) actions (fun _ _ => trivial) (kept_start model device memory)

/-- A device with one queue and nothing to do. -/
def idle : VirtioDevice Unit where
  features _ := 0
  ackFeatures device _ := device
  queueCount := 1
  queueMaxSizeOf _ := maxQueueSize
  configWrite device _ _ := device
  activate device _ := device
  notify device _ queues memory := ⟨device, queues, memory, .none⟩
  retryDeadline _ := none
  retryDeferred device queues memory _ := ⟨device, queues, memory, .none⟩
  reset device := device
  geometry_notify _ _ _ _ := rfl
  geometry_retryDeferred _ _ _ _ := rfl

/-- Three addresses, ready, and then the size again. -/
def shrunk : List Act :=
  [.write 0 0x080 [0, 16, 0, 0], .write 0 0x090 [0, 32, 0, 0], .write 0 0x0a0 [0, 48, 0, 0],
    .write 0 0x044 [1, 0, 0, 0], .write 0 0x038 [0, 0, 0, 0]]

/-- The size register of a ready queue is written with zero: the queue stays ready,
and its next ring operation divides by zero. -/
theorem ready_queue_of_size_zero :
    ∃ queue,
      (run (step idle) (start idle () ⟨[], fun _ => 0⟩) shrunk).mmio.queues[0]? = some queue ∧
      queue.ready = true ∧ queue.size = 0 ∧
      ¬ Kept (run (step idle) (start idle () ⟨[], fun _ => 0⟩) shrunk) := by
  refine ⟨_, rfl, by decide, by decide, ?_⟩
  intro kept
  have positive := (kept 0 _ rfl (by decide)).1.positive
  exact absurd positive (by decide)

end Lighter.Virtio.VirtioMmio
