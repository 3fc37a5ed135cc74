import Lighter.Virtio.ReadyGeometry

/-!
# Feature negotiation

The driver accepts features 32 at a time, each half through a selector. What should be on
record is, for each half, the last word the driver wrote to it since the last reset. The
transport adds every word to what it has, and shifts it by what the selector says, whatever
that is: a build with overflow checks stops at a shift by 64 or more, and one without takes it
modulo 64. The record is right at every moment exactly in the runs whose words repeat what
their half has and, under a selector of no half, say nothing new.
-/

namespace Lighter.Virtio.Negotiation

open VirtioMmio Transition

/-- The transport and what the driver wrote to it. -/
structure World (δ : Type) where
  mmio : VirtioMmio δ
  /-- The words written since the last reset, each with its selector, the newest first. -/
  words : List (UInt32 × UInt32)
  /-- A shift overflowed in a build that checks for it. -/
  stopped : Bool

variable {δ : Type} (model : VirtioDevice δ) (checked : Bool)

/-- The register a store goes to, and the value. -/
def stored : Act → Option (Register × UInt32)
  | .write _ offset data =>
      if offset < configSpace then
        (Register.ofOffset (offset / 4 * 4)).map fun register => (register, storeValue data)
      else none
  | _ => none

/-- The shift amount `32 * selector` is too large for 64 bits. -/
def overflows (selector : UInt32) : Bool := checked && 64 ≤ 32 * selector.toNat

def step (world : World δ) (action : Act) : World δ :=
  if world.stopped then world
  else
    match stored action with
    | some (.driverFeatures, value) =>
        if overflows checked world.mmio.driverFeaturesSel then { world with stopped := true }
        else
          { world with
            mmio := act model world.mmio action
            words := (world.mmio.driverFeaturesSel, value) :: world.words }
    | some (.status, value) =>
        { world with
          mmio := act model world.mmio action
          words := if value = 0 then [] else world.words }
    | _ => { world with mmio := act model world.mmio action }

def start (device : δ) (memory : GuestMemory) : World δ := ⟨new model device memory, [], false⟩

/-- The last word written to a half, or nothing. -/
def half (words : List (UInt32 × UInt32)) (selector : UInt32) : UInt32 :=
  (words.lookup selector).getD 0

/-- Every feature is on record exactly if the last word for its half has it. -/
def Recorded (words : List (UInt32 × UInt32)) (acked : UInt64) : Prop :=
  ∀ bit < 64, acked.toNat.testBit bit =
    (half words (UInt32.ofNat (bit / 32))).toNat.testBit (bit % 32)

structure Faithful (world : World δ) : Prop where
  running : world.stopped = false
  recorded : Recorded world.words world.mmio.ackedFeatures

/-- Every bit of one word is in another. -/
def Covers (word part : UInt32) : Prop :=
  ∀ bit < 32, part.toNat.testBit bit = true → word.toNat.testBit bit = true

/-- A word for a half repeats what the half has, and one for no half says nothing new and
overflows nothing. -/
def Careful (world : World δ) (action : Act) : Prop :=
  ∀ value, stored action = some (.driverFeatures, value) →
    if world.mmio.driverFeaturesSel < 2 then
      Covers value (half world.words world.mmio.driverFeaturesSel)
    else
      checked = false ∧ Covers (half world.words (world.mmio.driverFeaturesSel % 2)) value

/-- A word under any selector ends up in the half the selector has modulo two. -/
theorem testBit_shifted (selector value : UInt32) {bit : Nat} (inside : bit < 64) :
    (value.toUInt64 <<< (32 * selector.toUInt64)).toNat.testBit bit =
      (decide (bit / 32 = selector.toNat % 2) && value.toNat.testBit (bit % 32)) := by
  have amount : (32 * selector.toUInt64).toNat % 64 = 32 * (selector.toNat % 2) := by
    simp only [UInt64.toNat_mul, UInt32.toNat_toUInt64, UInt64.reduceToNat]
    omega
  have short : ∀ place, 32 ≤ place → value.toNat.testBit place = false := fun place long =>
    Nat.testBit_lt_two_pow
      (Nat.lt_of_lt_of_le value.toNat_lt (Nat.pow_le_pow_right (by decide) long))
  rw [UInt64.toNat_shiftLeft, amount, UInt32.toNat_toUInt64, Nat.testBit_mod_two_pow,
    Nat.testBit_shiftLeft, decide_eq_true inside, Bool.true_and]
  by_cases high : 32 ≤ bit
  · grind
  · grind

/-! ## What is on record -/

theorem half_cons (words : List (UInt32 × UInt32)) (selector value other : UInt32) :
    half ((selector, value) :: words) other =
      if other = selector then value else half words other := by
  unfold half
  rw [List.lookup_cons]
  by_cases same : other = selector
  · simp [same]
  · simp [same, beq_eq_false_iff_ne.mpr same]

/-- The half a feature is in is the one selected. -/
theorem ofNat_div_eq_iff {bit : Nat} (inside : bit < 64) (selector : UInt32) :
    UInt32.ofNat (bit / 32) = selector ↔ bit / 32 = selector.toNat := by
  rw [← UInt32.toNat_inj, UInt32.toNat_ofNat', Nat.mod_eq_of_lt (by omega)]

/-- One word: the record is right after it exactly if the word is careful. -/
theorem recorded_or_iff {words : List (UInt32 × UInt32)} {acked : UInt64}
    (recorded : Recorded words acked) (selector value : UInt32) :
    Recorded ((selector, value) :: words)
        (acked ||| value.toUInt64 <<< (32 * selector.toUInt64)) ↔
      if selector < 2 then Covers value (half words selector)
      else Covers (half words (selector % 2)) value := by
  -- Bit by bit: what was on record or what the word brings is what the words now say.
  have bits : Recorded ((selector, value) :: words)
      (acked ||| value.toUInt64 <<< (32 * selector.toUInt64)) ↔
      ∀ bit < 64, ((half words (UInt32.ofNat (bit / 32))).toNat.testBit (bit % 32) ||
        (decide (bit / 32 = selector.toNat % 2) && value.toNat.testBit (bit % 32))) =
      (if bit / 32 = selector.toNat then value
        else half words (UInt32.ofNat (bit / 32))).toNat.testBit (bit % 32) := by
    refine forall₂_congr fun bit inside => ?_
    simp only [UInt64.toNat_or, Nat.testBit_or, recorded bit inside, testBit_shifted _ _ inside,
      half_cons, ofNat_div_eq_iff inside]
  rw [bits]
  by_cases two : selector < 2
  · have below : selector.toNat < 2 := two
    rw [if_pos two]
    constructor
    · intro said bit short has
      have here := said (32 * selector.toNat + bit) (by omega)
      simpa [Nat.mul_add_div, Nat.mul_add_mod, Nat.div_eq_of_lt short, Nat.mod_eq_of_lt short,
        Nat.mod_eq_of_lt below, has] using here
    intro covers bit inside
    by_cases mine : bit / 32 = selector.toNat
    · have again := covers (bit % 32) (Nat.mod_lt _ (by decide))
      rw [(ofNat_div_eq_iff inside selector).mpr mine, mine, Nat.mod_eq_of_lt below]
      simpa using again
    · simp [mine, Nat.mod_eq_of_lt below]
  · have above : ¬selector.toNat < 2 := two
    have parity : (selector % 2).toNat = selector.toNat % 2 := UInt32.toNat_mod ..
    have none : ∀ bit < 64, ¬bit / 32 = selector.toNat := by omega
    rw [if_neg two]
    constructor
    · intro said bit short has
      have inside : 32 * (selector.toNat % 2) + bit < 64 := by omega
      have place : (32 * (selector.toNat % 2) + bit) / 32 = (selector % 2).toNat := by omega
      have here := said _ inside
      rw [if_neg (none _ inside), (ofNat_div_eq_iff inside _).mpr place] at here
      simpa [place, parity, Nat.mul_add_mod, Nat.mod_eq_of_lt short, has] using here
    · intro covers bit inside
      rw [if_neg (none bit inside)]
      by_cases mine : bit / 32 = (selector % 2).toNat
      · have before := covers (bit % 32) (Nat.mod_lt _ (by decide))
        rw [(ofNat_div_eq_iff inside _).mpr mine]
        simpa [mine, parity] using before
      · grind

/-- Whatever does not write features or reset leaves the record alone. -/
theorem stable_acked (acked : UInt64) : Stable model fun mmio => mmio.ackedFeatures = acked where
  mirror _ _ same := same
  rings _ _ _ _ same := same
  notify _ _ same := same
  retry _ _ same := same
  status _ _ same := same
  generation _ _ same := same
  early _ _ same := same

theorem acked_setStatus (turns : Nat) (mmio : VirtioMmio δ) (value : UInt32) :
    (mmio.setStatus model turns value).ackedFeatures =
      if value = 0 then 0 else mmio.ackedFeatures := by
  unfold setStatus
  split
  · rfl
  dsimp only
  split
  · exact (stable_acked model mmio.ackedFeatures).kicks turns _ _ rfl
  · rfl

/-- What an action leaves on record. -/
theorem acked_act (mmio : VirtioMmio δ) (action : Act) :
    (act model mmio action).ackedFeatures =
      match stored action with
      | some (.driverFeatures, value) =>
          mmio.ackedFeatures ||| value.toUInt64 <<< (32 * mmio.driverFeaturesSel.toUInt64)
      | some (.status, value) => if value = 0 then 0 else mmio.ackedFeatures
      | _ => mmio.ackedFeatures := by
  cases action with
  | memory _ | service _ _ | poll _ _ | retry _ _ | configChange | suppress _ _ =>
    exact (stable_acked model mmio.ackedFeatures).act mmio _ rfl rfl
  | write turns offset data =>
    simp only [act, write, stored]
    by_cases low : offset < configSpace
    · rw [if_neg (Nat.not_le.mpr low), if_pos low]
      cases Register.ofOffset (offset / 4 * 4) with
      | none => rfl
      | some register =>
        cases register with
        | status => exact acked_setStatus model turns mmio (storeValue data)
        | queueNotify =>
          exact (stable_acked model mmio.ackedFeatures).notifyQueue turns mmio _ rfl
        | driverFeatures | deviceFeaturesSel | driverFeaturesSel | queueSel | queueNum
        | queueReady | interruptAck | queueAddr _ _ | shmSel => rfl
    · rw [if_pos (Nat.not_lt.mp low), if_neg low]

/-- One action: the record stays right exactly if the action is careful. -/
theorem faithful_step_iff (world : World δ) (action : Act) (faithful : Faithful world) :
    Faithful (step model checked world action) ↔ Careful checked world action := by
  obtain ⟨running, recorded⟩ := faithful
  have acked := acked_act model world.mmio action
  have quiet : (∀ value, stored action ≠ some (.driverFeatures, value)) →
      Careful checked world action := fun other value is => absurd is (other value)
  unfold step
  rw [if_neg (Bool.eq_false_iff.mp running)]
  split
  · rename_i value said
    simp only [said] at acked
    have word := recorded_or_iff recorded world.mmio.driverFeaturesSel value
    simp only [Careful, said, Option.some.injEq, Prod.mk.injEq, true_and, forall_eq']
    by_cases two : world.mmio.driverFeaturesSel < 2
    · have small : ¬64 ≤ 32 * world.mmio.driverFeaturesSel.toNat := by
        have below : world.mmio.driverFeaturesSel.toNat < 2 := two
        omega
      rw [if_pos two] at word ⊢
      simp only [overflows, small, decide_false, Bool.and_false, Bool.false_eq_true, if_false]
      exact ⟨fun after => word.mp (acked ▸ after.recorded),
        fun covers => ⟨running, acked ▸ word.mpr covers⟩⟩
    have large : 64 ≤ 32 * world.mmio.driverFeaturesSel.toNat := by
      have above : ¬world.mmio.driverFeaturesSel.toNat < 2 := two
      omega
    rw [if_neg two] at word ⊢
    cases checked with
    | true =>
      refine iff_of_false (fun after => ?_) (fun both => Bool.noConfusion both.1)
      have still := after.running
      simp [overflows, large] at still
    | false =>
      simp only [overflows, Bool.false_and, Bool.false_eq_true, if_false, true_and]
      exact ⟨fun after => word.mp (acked ▸ after.recorded),
        fun covers => ⟨running, acked ▸ word.mpr covers⟩⟩
  · rename_i value said
    simp only [said] at acked
    refine iff_of_true ⟨running, ?_⟩ (quiet fun _ => by rw [said]; nofun)
    dsimp only
    rw [acked]
    by_cases zero : value = 0
    · simp [zero, Recorded, half]
    · simpa [zero] using recorded
  · rename_i silent resting
    refine iff_of_true ⟨running, ?_⟩ (quiet silent)
    split at acked
    · exact absurd ‹_› (silent _)
    · exact absurd ‹_› (resting _)
    · exact acked ▸ recorded

/-- The record says, at every moment of a run, of every feature whether the last word for its
half had it, and nothing stops the machine, exactly if every word of the run is careful. -/
theorem features_recorded_iff (device : δ) (memory : GuestMemory) (actions : List Act) :
    (∀ earlier, earlier <+: actions →
        Faithful (run (step model checked) (start model device memory) earlier)) ↔
      Legal (Careful checked) (step model checked) (start model device memory) actions :=
  holds_throughout_iff (Careful checked) (step model checked) (fun _ => True) Faithful
    (fun world action _ faithful => faithful_step_iff model checked world action faithful)
    (start model device memory) actions (fun _ _ => trivial)
    ⟨rfl, fun bit _ => by simp [start, new, half]⟩

/-- The driver writes under a selector of no half, or writes one half twice. -/
def noHalf : List Act := [.write 0 0x024 [2], .write 0 0x020 [1]]
def twice : List Act := [.write 0 0x020 [3], .write 0 0x020 [1]]

/-- The word for no half adds a feature to the low half, or stops a build with checks; and what
a half had before it was written again is still on record. -/
theorem features_misrecorded :
    let after (checked : Bool) (actions : List Act) :=
      run (step idle checked) (start idle () ⟨[], fun _ => 0⟩) actions
    (after false noHalf).words = [(2, 1)] ∧ (after false noHalf).mmio.ackedFeatures = 1 ∧
      (after true noHalf).stopped = true ∧ (after false twice).mmio.ackedFeatures = 3 := by
  decide +kernel

end Lighter.Virtio.Negotiation
