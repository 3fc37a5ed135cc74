import Lighter.Lib.Transition
import Lighter.Virtio.Mem
import Mathlib.Algebra.Order.Group.Nat

/-!
# How the range is sized

Each line from the guest may grow the range, shrink it or leave it. A growth covers what is
missing from the headroom and a shrink leaves half as much again as the headroom; the headroom
follows the guest's total, which either of them changes. Numbers are `u64`: a sum that may pass
the word is cut or saturates as in the source.
-/

namespace Lighter.Machine.Policy

open Virtio.Mem (blockSize)

/-- What a growth at a step's pace may add. -/
def growStepMin : Nat := 268435456

/-- A quarter of what the guest has, and no less than a gigabyte, is to be available. -/
def headroom (total : Nat) : Nat := max (total / 4) 1073741824

/-- The sums of the source that stop at the largest word. -/
def saturate (value : Nat) : Nat := min value (2 ^ 64 - 1)

/-- How fast the host lets the range grow. -/
inductive Pace where
  | free
  | step
  | hold
deriving DecidableEq

/-- The range and what bounds it, in bytes. -/
structure Range where
  plugged : Nat
  requested : Nat
  total : Nat
  region : Nat
  held : Bool
  floor : Nat
  ceiling : Nat
  pace : Pace

/-- What the guest says it has, and could give back. -/
structure GuestLine where
  availMib : Nat
  spareMib : Nat

/-- What the guest asks for besides. -/
inductive Demand where
  | need
  | room
  | none
deriving DecidableEq

/-- What is made of a line. -/
inductive Sizing where
  | resize (target : Nat)
  | wait
  | pass
deriving DecidableEq

/-- The shift may lose bits. -/
def bytes (mib : Nat) : Nat := mib * 1048576 % 2 ^ 64

/-- A target under the pace. -/
def paced (range : Range) (target : Nat) : Nat :=
  match range.pace with
  | .free => target
  | .step => min target (saturate (range.plugged + growStepMin))
  | .hold => range.plugged

/-- A growth to whole blocks, as far as the region and the ceiling go. -/
def growTo (range : Range) (target : Nat) : Sizing :=
  let whole := saturate ((paced range target + blockSize.toNat - 1) / blockSize.toNat *
    blockSize.toNat)
  let target := min (min whole range.region) range.ceiling
  if target > range.plugged then .resize target else .wait

/-- What a shrink has to leave available. -/
def keep (total : Nat) : Nat := headroom total + headroom total / 2

/-- What a shrink takes back. -/
def give (range : Range) (line : GuestLine) : Nat :=
  min (min (bytes line.spareMib) (bytes line.availMib - keep range.total))
    (range.plugged - range.floor) / blockSize.toNat * blockSize.toNat

/-- The answer to a line: memory first to who needs it, then from who can spare it. -/
def sizeRange (range : Range) (line : GuestLine) (demand : Demand) : Sizing :=
  if range.requested > range.plugged then .wait
  else if demand = .need ∨ demand = .room then
    growTo range (saturate (range.plugged + headroom range.total))
  else if bytes line.availMib < headroom range.total ∧ range.plugged < range.region then
    growTo range ((range.plugged + (headroom range.total - bytes line.availMib)) % 2 ^ 64)
  else if range.requested < range.plugged then .wait
  else if range.plugged > range.floor ∧ bytes line.spareMib ≥ blockSize.toNat ∧
      range.held = false ∧ give range line > 0 then
    .resize (range.plugged - give range line)
  else .pass

/-- Sizes are whole blocks, a ceiling being one or none. -/
structure Range.Whole (range : Range) : Prop where
  plugged : blockSize.toNat ∣ range.plugged
  region : blockSize.toNat ∣ range.region
  floor : blockSize.toNat ∣ range.floor
  ceiling : blockSize.toNat ∣ range.ceiling ∨ range.ceiling = 2 ^ 64 - 1
  within : range.plugged ≤ range.region
  word : range.region < 2 ^ 64

section

variable {range : Range} {line : GuestLine} {demand : Demand} {target wanted : Nat}

/-- A growth covers less than a block more than what was wanted. -/
structure Grown (range : Range) (wanted target : Nat) : Prop where
  more : range.plugged < target
  whole : blockSize.toNat ∣ target
  region : target ≤ range.region
  ceiling : target ≤ range.ceiling
  pace : range.pace ≠ .hold
  step : range.pace = .step → target ≤ range.plugged + growStepMin
  near : target < wanted + blockSize.toNat

/-- Stopping early makes nothing larger. -/
theorem saturate_le (value : Nat) : saturate value ≤ value := Nat.min_le_left _ _

/-- Unless it holds the range, the pace takes something off the target. -/
theorem paced_le (runs : range.pace ≠ .hold) : paced range wanted ≤ wanted := by
  unfold paced
  split
  · exact Nat.le_refl _
  · exact Nat.min_le_left _ _
  · exact absurd ‹_› runs

/-- A step adds no more than a step. -/
theorem paced_step (steps : range.pace = .step) :
    paced range wanted ≤ range.plugged + growStepMin := by
  rw [paced, steps]
  exact (Nat.min_le_right _ _).trans (saturate_le _)

/-- Rounding up gives whole blocks that there are, and less than one too many. -/
theorem rounded {size region ceiling : Nat} (positive : 0 < size) (regions : size ∣ region)
    (ceilings : size ∣ ceiling ∨ ceiling = 2 ^ 64 - 1) (word : region < 2 ^ 64) (paced : Nat) :
    let target := min (min (saturate ((paced + size - 1) / size * size)) region) ceiling
    size ∣ target ∧ target < paced + size := by
  intro target
  have up : (paced + size - 1) / size * size ≤ paced + size - 1 := Nat.div_mul_le_self _ _
  have cut : min (saturate ((paced + size - 1) / size * size)) region =
      min ((paced + size - 1) / size * size) region := by
    unfold saturate
    omega
  have whole : size ∣ min ((paced + size - 1) / size * size) region :=
    min_rec' _ (Nat.dvd_mul_left _ _) regions
  refine ⟨?_, ?_⟩
  · unfold target
    rw [cut]
    rcases ceilings with whole' | none
    · exact min_rec' _ whole whole'
    · rw [Nat.min_eq_left (by omega)]
      exact whole
  · omega

/-- An answer that grows the range keeps to its bounds. -/
theorem growTo_grown (whole : range.Whole) (answer : growTo range wanted = .resize target) :
    Grown range wanted target := by
  unfold growTo at answer
  dsimp only at answer
  split at answer
  · rename_i more
    obtain rfl := Sizing.resize.inj answer
    have positive : 0 < blockSize.toNat := by decide
    obtain ⟨blocks, near⟩ := rounded positive whole.region whole.ceiling whole.word
      (paced range wanted)
    have runs : range.pace ≠ .hold := by
      intro holds
      have same : paced range wanted = range.plugged := by rw [paced, holds]
      rw [same] at near more blocks
      exact absurd more (Nat.not_lt.2 (Nat.le_of_lt_add_of_dvd near blocks whole.plugged))
    refine ⟨more, blocks, ?_, Nat.min_le_right _ _, runs, fun steps => ?_, ?_⟩
    · exact (Nat.min_le_left _ _).trans (Nat.min_le_right _ _)
    · refine Nat.le_of_lt_add_of_dvd ?_ blocks (Nat.dvd_add whole.plugged (by decide))
      exact near.trans_le (Nat.add_le_add_right (paced_step steps) _)
    · exact near.trans_le (Nat.add_le_add_right (paced_le runs) _)
  · cases answer

/-- A shrink leaves half as much again as the headroom. -/
structure Shrunk (range : Range) (line : GuestLine) (target : Nat) : Prop where
  less : target < range.plugged
  whole : blockSize.toNat ∣ target
  floor : range.floor ≤ target
  still : range.requested = range.plugged
  free : range.held = false
  spared : keep range.total + (range.plugged - target) ≤ bytes line.availMib

/-- What is taken back is within what is spare, available and above the floor. -/
theorem taken_back {plugged floor given spare avail kept : Nat} (above : plugged > floor)
    (some : given > 0) (below : given ≤ min (min spare (avail - kept)) (plugged - floor)) :
    plugged - given < plugged ∧ floor ≤ plugged - given ∧
      kept + (plugged - (plugged - given)) ≤ avail := by
  omega

/-- An answer that takes something back keeps to its bounds. -/
theorem give_shrunk (whole : range.Whole) (above : range.plugged > range.floor)
    (still : range.requested = range.plugged) (free : range.held = false)
    (some : give range line > 0) : Shrunk range line (range.plugged - give range line) := by
  have below : give range line ≤ min (min (bytes line.spareMib)
      (bytes line.availMib - keep range.total)) (range.plugged - range.floor) := by
    rw [give]
    exact Nat.div_mul_le_self _ _
  obtain ⟨less, floor, spared⟩ := taken_back above some below
  refine ⟨less, Nat.dvd_sub whole.plugged ?_, floor, still, free, spared⟩
  rw [give]
  exact Nat.dvd_mul_left _ _

/-- A line resizes the range by a growth, which without a demand covers what is missing from the
headroom, or by a shrink. -/
theorem sizeRange_cases (whole : range.Whole)
    (answer : sizeRange range line demand = .resize target) :
    range.requested ≤ range.plugged ∧
      ((∃ wanted, Grown range wanted target ∧
        (demand = .none → wanted + bytes line.availMib ≤ range.plugged + headroom range.total)) ∨
      Shrunk range line target) := by
  unfold sizeRange at answer
  split at answer
  · cases answer
  rename_i settled
  refine ⟨Nat.not_lt.1 settled, ?_⟩
  split at answer
  · rename_i demanded
    refine Or.inl ⟨_, growTo_grown whole answer, fun none => ?_⟩
    rcases demanded with need | room
    · cases none.symm.trans need
    · cases none.symm.trans room
  split at answer
  · rename_i short
    refine Or.inl ⟨_, growTo_grown whole answer, fun _ => ?_⟩
    have cut := Nat.mod_le (range.plugged + (headroom range.total - bytes line.availMib)) (2 ^ 64)
    omega
  split at answer
  · cases answer
  split at answer
  · rename_i shrinks
    obtain ⟨above, _, free, some⟩ := shrinks
    obtain rfl := Sizing.resize.inj answer
    have still : range.requested = range.plugged := by omega
    exact Or.inr (give_shrunk whole above still free some)
  · cases answer

/-- What was missing and has come leaves less than a block more than was to be kept. -/
theorem covered {plugged wanted target avail room kept size : Nat} (more : plugged ≤ target)
    (near : target < wanted + size) (missing : wanted + avail ≤ plugged + room)
    (roomy : room ≤ kept) : avail + (target - plugged) < kept + size := by
  omega

/-- A larger guest is to have more available. -/
theorem headroom_mono {less more : Nat} (le : less ≤ more) : headroom less ≤ headroom more :=
  max_le_max (Nat.div_le_div_right le) (Nat.le_refl _)

/-- A shrink leaves at least the headroom of anything smaller. -/
theorem headroom_le_keep {less more : Nat} (le : less ≤ more) : headroom less ≤ keep more :=
  (headroom_mono le).trans (Nat.le_add_right _ _)

/-- Without a demand there is no growth while the headroom is available. -/
theorem not_grown (whole : range.Whole) (roomy : headroom range.total ≤ bytes line.availMib)
    (answer : sizeRange range line .none = .resize target) : target ≤ range.plugged := by
  obtain ⟨_, ⟨wanted, grown, missing⟩ | shrunk⟩ := sizeRange_cases whole answer
  · have enough : wanted ≤ range.plugged :=
      Nat.le_of_add_le_add_right ((missing rfl).trans (Nat.add_le_add_left roomy _))
    exact Nat.le_of_lt_add_of_dvd (grown.near.trans_le (Nat.add_le_add_right enough _))
      grown.whole whole.plugged
  · exact shrunk.less.le

/-- There is no shrink unless a block more is available than is kept. -/
theorem not_shrunk (whole : range.Whole)
    (scarce : bytes line.availMib < keep range.total + blockSize.toNat)
    (answer : sizeRange range line demand = .resize target) : range.plugged ≤ target := by
  obtain ⟨_, ⟨wanted, grown, _⟩ | shrunk⟩ := sizeRange_cases whole answer
  · exact grown.more.le
  refine Nat.le_of_lt_add_of_dvd ?_ whole.plugged shrunk.whole
  have spared := shrunk.spared.trans_lt scarce
  rw [Nat.add_lt_add_iff_left] at spared
  exact (Nat.sub_lt_iff_lt_add' shrunk.less.le).1 spared

end

/-- A line resizes the range to whole blocks of it, and only while the guest has plugged what it
was offered. A growth stays under the ceiling and at the pace; a shrink is made only of a range at
rest, down to the floor. When the memory has gone, the next line does not ask for it back; and
when the memory that was missing has come, the next line does not give it back. -/
theorem sizing_bounded_and_stable (range : Range) (line : GuestLine) (demand : Demand)
    (target : Nat) (whole : range.Whole) (answer : sizeRange range line demand = .resize target) :
    range.requested ≤ range.plugged ∧ blockSize.toNat ∣ target ∧ target ≤ range.region ∧
      (range.plugged < target → target ≤ range.ceiling ∧ range.pace ≠ .hold ∧
        (range.pace = .step → target ≤ range.plugged + growStepMin)) ∧
      (target < range.plugged →
        range.floor ≤ target ∧ range.requested = range.plugged ∧ range.held = false ∧
        ∀ (next : Range) (later : GuestLine) (again : Nat), next.Whole → next.plugged = target →
          next.total = range.total - (range.plugged - target) →
          bytes later.availMib = bytes line.availMib - (range.plugged - target) →
          later.spareMib = line.spareMib →
          sizeRange next later .none = .resize again → again ≤ target) ∧
      (demand = .none → range.plugged < target →
        ∀ (next : Range) (later : GuestLine) (asked : Demand) (again : Nat), next.Whole →
          next.plugged = target → next.total = range.total + (target - range.plugged) →
          bytes later.availMib = bytes line.availMib + (target - range.plugged) →
          sizeRange next later asked = .resize again → target ≤ again) := by
  obtain ⟨settled, ⟨wanted, grown, missing⟩ | shrunk⟩ := sizeRange_cases whole answer
  · refine ⟨settled, grown.whole, grown.region,
      fun _ => ⟨grown.ceiling, grown.pace, grown.step⟩,
      fun less => absurd grown.more less.not_gt, ?_⟩
    rintro rfl _ next later asked again sizes rfl total avail answer
    refine not_shrunk sizes ?_ answer
    rw [total, avail]
    exact covered grown.more.le grown.near (missing rfl)
      (headroom_le_keep (Nat.le_add_right _ _))
  · refine ⟨settled, shrunk.whole, shrunk.less.le.trans whole.within,
      fun more => absurd shrunk.less more.not_gt,
      fun _ => ⟨shrunk.floor, shrunk.still, shrunk.free, ?_⟩,
      fun _ more => absurd shrunk.less more.not_gt⟩
    rintro next later again sizes rfl total avail _ answer
    refine not_grown sizes ?_ answer
    rw [total, avail]
    exact (headroom_le_keep (Nat.sub_le _ _)).trans (Nat.le_sub_of_add_le shrunk.spared)

/-- So much is plugged of four blocks, in a guest of a size. -/
def ofFour (plugged total : Nat) : Range :=
  ⟨plugged, plugged, total, 536870912, false, 0, 2 ^ 64 - 1, .free⟩

/-- Of four blocks two are taken back, and the next line does not ask for them. Of none one is
given, for 24 MiB that were missing, and the next line does not give it back. -/
theorem sizing_bounded_and_stable_four :
    (sizeRange (ofFour 536870912 4294967296) ⟨4096, 256⟩ .none = .resize 268435456 ∧
      ∀ again, sizeRange (ofFour 268435456 4026531840) ⟨3840, 256⟩ .none = .resize again →
        again ≤ 268435456) ∧
    sizeRange (ofFour 0 2147483648) ⟨1000, 1000⟩ .none = .resize 134217728 ∧
      ∀ again, sizeRange (ofFour 134217728 2281701376) ⟨1128, 1000⟩ .none = .resize again →
        134217728 ≤ again := by
  have whole (blocks total : Nat) (few : 134217728 * blocks ≤ 536870912) :
      (ofFour (134217728 * blocks) total).Whole :=
    ⟨Nat.dvd_mul_right _ _, show blockSize.toNat ∣ 536870912 by decide, Nat.dvd_zero _,
      Or.inr rfl, few, show 536870912 < 2 ^ 64 by decide⟩
  have shrinks : sizeRange (ofFour 536870912 4294967296) ⟨4096, 256⟩ .none =
      .resize 268435456 := by decide +kernel
  have grows : sizeRange (ofFour 0 2147483648) ⟨1000, 1000⟩ .none =
      .resize 134217728 := by decide +kernel
  obtain ⟨_, _, _, _, less, _⟩ :=
    sizing_bounded_and_stable _ _ _ _ (whole 4 _ (by decide)) shrinks
  obtain ⟨_, _, _, _, _, more⟩ :=
    sizing_bounded_and_stable _ _ _ _ (whole 0 _ (by decide)) grows
  refine ⟨⟨shrinks, fun again => ?_⟩, grows, fun again => ?_⟩
  · exact (less (by decide)).2.2.2 _ _ again (whole 2 _ (by decide)) rfl rfl (by decide) rfl
  · exact more rfl (by decide) _ _ .none again (whole 1 _ (by decide)) rfl rfl (by decide)

end Lighter.Machine.Policy
