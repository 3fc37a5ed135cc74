import Lighter.Virtio.Mmio

/-!
# What can happen to a transport, and what a service keeps

The guest writes to registers and memory; the host serves queues of its own accord, polls
them, lets a device go on with unfinished work, and asks for silence. A service touches the
device, the rings, the mirror of the cursors and the interrupt status, and the loop that ends
it does so again. So a property that each of these touches keeps is kept by a service, however
many turns it takes.
-/

namespace Lighter.Virtio.VirtioMmio

/-- What can happen to a transport. A service of the host's own is a notification,
and `turns` bounds the loop that ends a service. -/
inductive Act where
  /-- A store by the guest, at any offset. -/
  | write (turns offset : Nat) (data : List UInt8)
  /-- Guest memory as the guest leaves it. -/
  | memory (memory : GuestMemory)
  | service (turns : Nat) (index : UInt16)
  | poll (turns : Nat) (index : UInt16)
  | retry (turns now : Nat)
  | configChange
  | suppress (index : UInt16) (suppress : Bool)

variable {δ : Type} (model : VirtioDevice δ)

/-- The transport after one of them. -/
def act (mmio : VirtioMmio δ) : Act → VirtioMmio δ
  | .write turns offset data => mmio.write model turns offset data
  | .memory memory => { mmio with memory := memory }
  | .service turns index => mmio.notifyQueue model turns index
  | .poll turns index => mmio.pollQueue model turns index
  | .retry turns now => mmio.retryDeferred model turns now
  | .configChange => mmio.notifyConfigChange
  | .suppress index suppress => mmio.suppressNotifications index suppress

/-- An action of the host, or of the guest on its memory. -/
def Act.isWrite : Act → Bool
  | .write .. => true
  | _ => false

/-- What each touch of a service keeps. The rings change, their geometry does not. -/
structure Stable (keeps : VirtioMmio δ → Prop) : Prop where
  mirror : ∀ mmio signals, keeps mmio → keeps { mmio with signals := signals }
  rings : ∀ mmio queues memory,
    queues.map Virtqueue.geometry = mmio.queues.map Virtqueue.geometry →
      keeps mmio → keeps { mmio with queues := queues, memory := memory }
  notify : ∀ mmio index, keeps mmio →
    keeps (mmio.serviceDone (model.notify mmio.device index mmio.queues mmio.memory))
  retry : ∀ mmio now, keeps mmio →
    keeps (mmio.serviceDone (model.retryDeferred mmio.device mmio.queues mmio.memory now))
  status : ∀ mmio status, keeps mmio → keeps { mmio with interruptStatus := status }
  generation : ∀ mmio count, keeps mmio → keeps { mmio with configGeneration := count }
  early : ∀ mmio kicks, keeps mmio → keeps { mmio with earlyKicks := kicks }

/-- What arming a queue leaves of it, the pass over them leaves of each. -/
theorem map_armAll {β : Type*} {view : Virtqueue → β}
    (same : ∀ queue memory, view (Virtqueue.armNotifications queue memory).1 = view queue)
    (queues : List Virtqueue) (memory : GuestMemory) :
    (armAll queues memory).1.map view = queues.map view := by
  induction queues generalizing memory with
  | nil => rfl
  | cons queue rest ih =>
    simp [armAll, ih, same queue memory]

/-- What the question of an interrupt leaves of a queue, the pass over them leaves of each. -/
theorem map_askAll {β : Type*} {view : Virtqueue → β}
    (same : ∀ queue memory, view (Virtqueue.needsInterrupt queue memory).1 = view queue)
    (serviced : Serviced) (memory : GuestMemory) (index : Nat) (queues : List Virtqueue) :
    (askAll serviced memory index queues).1.map view = queues.map view := by
  induction queues generalizing index with
  | nil => rfl
  | cons queue rest ih =>
    simp only [askAll, List.map_cons, ih]
    split
    · rw [same queue memory]
    · rfl

variable {model} {keeps : VirtioMmio δ → Prop}

namespace Stable

section

variable (stable : Stable model keeps)
include stable

theorem look (turn : Turn δ) (index : Nat)
    (kept : keeps turn.mmio) : keeps (VirtioMmio.look model turn index).mmio := by
  unfold VirtioMmio.look
  split
  · exact kept
  · split
    · exact kept
    · exact stable.notify _ _ kept

theorem turn (mmio : VirtioMmio δ) (serviced : Serviced)
    (kept : keeps mmio) : keeps (VirtioMmio.turn model mmio serviced).mmio := by
  have looked : ∀ (indices : List Nat) (begun : Turn δ), keeps begun.mmio →
      keeps (indices.foldl (VirtioMmio.look model) begun).mmio := by
    intro indices
    induction indices with
    | nil => exact fun _ kept => kept
    | cons index _ ih => exact fun begun kept => ih _ (stable.look begun index kept)
  exact looked _ _ (stable.rings _ _ _
    (map_armAll (fun queue memory => (queue.armNotifications_keeps memory).1) _ _)
    (stable.mirror _ _ kept))

variable (turns : Nat)

theorem settle (mmio : VirtioMmio δ) (serviced : Serviced) (kept : keeps mmio) :
    keeps (VirtioMmio.settle model turns mmio serviced).1 := by
  induction turns generalizing mmio serviced with
  | zero => exact kept
  | succ turns ih =>
    have turn := stable.turn
    grind [VirtioMmio.settle]

theorem finishService (mmio : VirtioMmio δ) (serviced : Serviced) (kept : keeps mmio) :
    keeps (VirtioMmio.finishService model turns mmio serviced) := by
  have settled := stable.settle turns mmio serviced kept
  unfold VirtioMmio.finishService
  generalize VirtioMmio.settle model turns mmio serviced = done at settled ⊢
  dsimp only
  split
  · exact settled
  have asked := stable.rings _ _ done.1.memory
    (map_askAll Virtqueue.geometry_needsInterrupt done.2 done.1.memory 0 _) settled
  split
  · exact stable.status _ _ asked
  · exact asked

theorem notifyQueue (mmio : VirtioMmio δ)
    (index : UInt16) (kept : keeps mmio) : keeps (mmio.notifyQueue model turns index) := by
  unfold VirtioMmio.notifyQueue
  split
  · split
    · exact stable.early _ _ kept
    · exact kept
  · exact stable.finishService turns _ _ (stable.notify _ _ kept)

/-- The kicks that came early. -/
theorem kicks (indices : List Nat) (mmio : VirtioMmio δ) (kept : keeps mmio) :
    keeps (indices.foldl (fun mmio index =>
      mmio.notifyQueue model turns (UInt16.ofNat index)) mmio) := by
  induction indices generalizing mmio with
  | nil => exact kept
  | cons index _ ih => exact ih _ (stable.notifyQueue turns mmio _ kept)

/-- Every action but a store to a register. -/
theorem act (mmio : VirtioMmio δ) (action : Act)
    (other : action.isWrite = false) (kept : keeps mmio) :
    keeps (VirtioMmio.act model mmio action) := by
  cases action with
  | write turns offset data => cases other
  | memory memory => exact stable.rings _ _ _ rfl kept
  | service turns index => exact stable.notifyQueue turns mmio index kept
  | poll turns index =>
    have notifyQueue := stable.notifyQueue
    grind [VirtioMmio.act, VirtioMmio.pollQueue]
  | retry turns now =>
    simp only [VirtioMmio.act, VirtioMmio.retryDeferred]
    split
    · exact kept
    · exact stable.finishService turns _ _ (stable.retry _ _ kept)
  | configChange =>
    exact stable.status _ (mmio.interruptStatus ||| intConfig)
      (stable.generation _ (mmio.configGeneration + 1) kept)
  | suppress index suppress =>
    simp only [VirtioMmio.act, VirtioMmio.suppressNotifications]
    split
    · exact kept
    · rename_i queue found
      exact stable.rings _ _ _ (Virtqueue.map_geometry_set found
        (queue.geometry_suppressNotifications mmio.memory suppress)) kept

end

end Stable
end Lighter.Virtio.VirtioMmio
