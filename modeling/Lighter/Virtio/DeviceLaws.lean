import Lighter.Virtio.ReadyGeometry

/-!
# What the transport does to its device

Of everything that happens to a transport only two things happen to the device besides
services and feature words: it is reset, when the driver writes zero to the status, and
activated, at the first `DRIVER_OK` after that. So a law of the device that its services
keep is kept by the transport, if a reset and an activation keep it.
-/

namespace Lighter.Virtio.VirtioMmio

variable {δ : Type} (model : VirtioDevice δ)

/-- What the driver writes to the status, with the turns its services are given. -/
def statusWritten : Act → Option (Nat × UInt32)
  | .write turns offset data =>
      if offset < configSpace ∧ Register.ofOffset (offset / 4 * 4) = some .status then
        some (turns, storeValue data)
      else none
  | _ => none

/-- The driver resets the device. -/
def resets (action : Act) : Bool := (statusWritten action).any fun written => written.2 = 0

/-- The driver is ready, for the first time since a reset. -/
def activates (mmio : VirtioMmio δ) (action : Act) : Bool :=
  !mmio.activated &&
    (statusWritten action).any fun written => written.2 ≠ 0 && written.2 &&& driverOk != 0

theorem activates_of_resets {mmio : VirtioMmio δ} {action : Act} (reset : resets action = true) :
    activates mmio action = false := by
  unfold resets at reset
  unfold activates
  cases written : statusWritten action with
  | none => exact Bool.and_false _
  | some pair => grind

/-- What services, feature words and configuration writes keep. -/
structure Serves (law : δ → Prop) : Prop where
  ackFeatures : ∀ device features, law device → law (model.ackFeatures device features)
  configWrite : ∀ device offset data, law device → law (model.configWrite device offset data)
  notify : ∀ device index queues memory, law device →
    law (model.notify device index queues memory).device
  retryDeferred : ∀ device queues memory now, law device →
    law (model.retryDeferred device queues memory now).device

variable {model} {law : δ → Prop} (serves : Serves model law)
include serves

/-- Services keep the law, and whether the device is active. -/
theorem Serves.stable (activated : Bool) :
    Stable model fun mmio => law mmio.device ∧ mmio.activated = activated where
  mirror _ _ kept := kept
  rings _ _ _ _ kept := kept
  notify _ _ kept := ⟨serves.notify _ _ _ _ kept.1, kept.2⟩
  retry _ _ kept := ⟨serves.retryDeferred _ _ _ _ kept.1, kept.2⟩
  status _ _ kept := kept
  generation _ _ kept := kept
  early _ _ kept := kept

/-- A write to a register other than the status. -/
theorem Serves.register (turns : Nat) (mmio : VirtioMmio δ)
    {register : Register} (other : register ≠ .status) (value : UInt32) (holds : law mmio.device) :
    law (mmio.writeRegisterInner model turns register value).device ∧
      (mmio.writeRegisterInner model turns register value).activated = mmio.activated := by
  cases register with
  | status => exact absurd rfl other
  | driverFeatures => exact ⟨serves.ackFeatures _ _ holds, rfl⟩
  | queueNotify => exact (serves.stable mmio.activated).notifyQueue turns mmio _ ⟨holds, rfl⟩
  | deviceFeaturesSel | driverFeaturesSel | queueSel | queueNum | queueReady | interruptAck
  | queueAddr _ _ | shmSel => exact ⟨holds, rfl⟩

/-- The first `DRIVER_OK`: the device is activated, and then serves what was kicked early. -/
theorem Serves.setStatus (turns : Nat) (mmio : VirtioMmio δ) {value : UInt32} (some : value ≠ 0)
    (holds : law (if value &&& driverOk != 0 && !mmio.activated
      then model.activate mmio.device mmio.memory else mmio.device)) :
    law (mmio.setStatus model turns value).device ∧
      (mmio.setStatus model turns value).activated =
        (mmio.activated || (value &&& driverOk != 0 && !mmio.activated)) := by
  unfold VirtioMmio.setStatus
  rw [if_neg some]
  dsimp only
  split
  · rename_i first
    rw [if_pos first] at holds
    have after := (serves.stable true).kicks turns
      ((List.range 64).filter fun index => mmio.earlyKicks &&& (1 <<< UInt64.ofNat index) != 0)
      { mmio with
        deviceStatus := value
        activated := true
        device := model.activate mmio.device mmio.memory
        earlyKicks := 0 } ⟨holds, rfl⟩
    refine ⟨after.1, after.2.trans ?_⟩
    rw [first, Bool.or_true]
  · grind

/-- A law that services keep holds after an action if it holds after what the action begins
with: a reset, an activation or nothing. -/
theorem Serves.act (mmio : VirtioMmio δ) (action : Act)
    (holds : law (if resets action then model.reset mmio.device
      else if activates mmio action then model.activate mmio.device mmio.memory
      else mmio.device)) :
    law (act model mmio action).device ∧
      (act model mmio action).activated =
        (!resets action && (mmio.activated || activates mmio action)) := by
  have quiet : statusWritten action = none → law mmio.device ∧
      (!resets action && (mmio.activated || activates mmio action)) = mmio.activated := by
    intro none
    simp only [resets, activates, none, Option.any_none, Bool.and_false, Bool.false_eq_true,
      if_false] at holds ⊢
    exact ⟨holds, by simp⟩
  cases action with
  | write turns offset data =>
    by_cases config : offset ≥ configSpace
    · obtain ⟨held, same⟩ := quiet (if_neg fun both => absurd both.1 (Nat.not_lt.mpr config))
      rw [same]
      simp only [VirtioMmio.act, VirtioMmio.write, if_pos config]
      exact ⟨serves.configWrite _ _ _ held, trivial⟩
    simp only [VirtioMmio.act, VirtioMmio.write, if_neg config]
    cases named : Register.ofOffset (offset / 4 * 4) with
    | none =>
      obtain ⟨held, same⟩ := quiet (if_neg fun both => by
        rw [named] at both
        cases both.2)
      exact ⟨held, same.symm⟩
    | some register =>
      by_cases status : register = .status
      · subst status
        have written : statusWritten (.write turns offset data) =
            some (turns, storeValue data) := if_pos ⟨Nat.not_le.mp config, named⟩
        simp only [resets, activates, written, Option.any_some] at holds ⊢
        change law (mmio.setStatus model turns (storeValue data)).device ∧
          (mmio.setStatus model turns (storeValue data)).activated = _
        by_cases zero : storeValue data = 0
        · simp only [zero, decide_true, if_true] at holds ⊢
          exact ⟨holds, rfl⟩
        · have setStatus := serves.setStatus
          grind
      · obtain ⟨held, same⟩ := quiet (if_neg fun both => by
          rw [named] at both
          exact status (Option.some.inj both.2))
        rw [same]
        exact serves.register turns mmio status (storeValue data) held
  | memory _ | service _ _ | poll _ _ | retry _ _ | configChange | suppress _ _ =>
    rw [(quiet rfl).2]
    exact (serves.stable mmio.activated).act mmio _ rfl ⟨(quiet rfl).1, rfl⟩

end Lighter.Virtio.VirtioMmio
