import Lighter.Virtio.Mem
import Mathlib.Algebra.Ring.Nat
import Mathlib.Data.List.Pairwise

/-!
# The guest's physical address map

The windows of the GIC and of the devices have fixed bases. What stands above RAM is placed by
rounding the end of the window below it up to a boundary. Only the whole redistributor region
the host reports is checked against the device window: neither the distributor nor the
redistributors this machine has are.

Sizes of memory are far from the end of the address space and are natural numbers; the sizes the
host reports are any words, and the sum and the product made of them wrap.
-/

namespace Lighter.Machine

open List
open Virtio.Mem (blockSize)

structure Window where
  base : Nat
  size : Nat

namespace Window

/-- Where a window ends. -/
def «end» (window : Window) : Nat := window.base + window.size

def contains (window : Window) (addr : Nat) : Bool :=
  addr ≥ window.base && addr < window.base + window.size

/-- No address is in both. -/
def Apart (first second : Window) : Prop :=
  ∀ addr, ¬ (first.contains addr = true ∧ second.contains addr = true)

/-- One ends before the other begins. -/
def Below (lower upper : Window) : Prop := lower.end ≤ upper.base

instance (lower upper : Window) : Decidable (lower.Below upper) :=
  inferInstanceAs (Decidable (lower.end ≤ upper.base))

/-- Windows are apart if one of them is empty or lies below the other, and only then. -/
theorem apart_iff {first second : Window} : first.Apart second ↔
    first.size = 0 ∨ second.size = 0 ∨ first.Below second ∨ second.Below first := by
  simp only [Apart, contains, Below, Window.end, Bool.and_eq_true, decide_eq_true_eq]
  constructor
  · intro apart
    -- The higher of the two bases is in both unless one of them ends before it.
    have higher := apart (max first.base second.base)
    omega
  · intro either addr
    omega

/-- Windows one below the other share no address. -/
theorem Below.apart {lower upper : Window} (below : lower.Below upper) : lower.Apart upper :=
  apart_iff.mpr (Or.inr (Or.inr (Or.inl below)))

/-- Where the upper window has an address, that is all it takes to be apart. -/
theorem Apart.below {lower upper : Window} (apart : lower.Apart upper)
    (order : lower.base ≤ upper.base) (some : 0 < upper.size) : lower.Below upper := by
  have either := apart_iff.mp apart
  unfold Below Window.end at *
  omega

end Window

/-- What the map reads of the geometry the host reports. -/
structure GicParameters where
  distributorSize : UInt64
  redistributorSize : UInt64
  redistributorRegionSize : UInt64

inductive LayoutError where
  | gicOverlapsDevices (base size deviceBase : Nat)
  | ramTooSmall (bytes : Nat)

structure GuestLayout where
  gicd : Window
  gicr : Window
  uart : Window
  virtioMmio : Window
  ram : Window
  hotplug : Option Window
  gpu : Option Window
  video : Option Window

def virtioMmioSlots : Nat := 32
def virtioMmioSize : Nat := 0x200

/-- The boundary of the apertures. -/
def align : Nat := 2 ^ 30

def divCeil (value unit : Nat) : Nat :=
  if value % unit > 0 then value / unit + 1 else value / unit

/-- A window for these bytes at the first boundary past `above`, if there are any. -/
def placed (above bytes unit : Nat) : Option Window :=
  if bytes > 0 then some ⟨divCeil above unit * unit, divCeil bytes unit * unit⟩ else none

/-- Where the next window may begin. -/
def past (above : Nat) (window : Option Window) : Nat := (window.map Window.end).getD above

/-- The hot-plug range, the GPU's aperture and the video decoder's, each past the one below. -/
def stack (block align above hotplugBytes gpuBytes videoBytes : Nat) :
    Option Window × Option Window × Option Window :=
  let hotplug := placed above hotplugBytes block
  let gpu := placed (past above hotplug) gpuBytes align
  (hotplug, gpu, placed (past (past above hotplug) gpu) videoBytes align)

/-- Where they end, computed apart from them. -/
def stackTop (block align ramEnd hotplugBytes gpuBytes videoBytes : Nat) : Nat :=
  let above := if hotplugBytes > 0 then
      divCeil ramEnd block * block + divCeil hotplugBytes block * block
    else ramEnd
  let gpuEnd := if gpuBytes > 0 then
      some (divCeil above align * align + divCeil gpuBytes align * align)
    else none
  let videoEnd := if videoBytes > 0 then
      some (divCeil (gpuEnd.getD above) align * align + divCeil videoBytes align * align)
    else none
  (videoEnd.or gpuEnd).getD above

/-- The computation apart from the windows ends where they end. -/
theorem stackTop_eq (block align above hotplugBytes gpuBytes videoBytes : Nat) :
    let windows := stack block align above hotplugBytes gpuBytes videoBytes
    stackTop block align above hotplugBytes gpuBytes videoBytes =
      past (past (past above windows.1) windows.2.1) windows.2.2 := by
  simp only [stack, stackTop, placed, past]
  split <;> split <;> split <;> rfl

/-- Rounding up to a boundary goes no lower. -/
theorem le_divCeil_mul {unit : Nat} (positive : 0 < unit) (value : Nat) :
    value ≤ divCeil value unit * unit := by
  have parts := Nat.div_add_mod' value unit
  have rest := Nat.mod_lt value positive
  unfold divCeil
  split
  · rw [Nat.succ_mul]
    omega
  · omega

/-- A window past what is below it, on a boundary at both ends. -/
structure Placed (above unit : Nat) (window : Window) : Prop where
  above : above ≤ window.base
  base : unit ∣ window.base
  past : unit ∣ window.end

/-- A window that is placed stands past what is below it. -/
theorem placed_spec (above bytes : Nat) {unit : Nat} (positive : 0 < unit) :
    ∀ window ∈ placed above bytes unit, Placed above unit window := by
  intro window there
  unfold placed at there
  split at there
  · cases there
    exact ⟨le_divCeil_mul positive above, Nat.dvd_mul_left _ _,
      Nat.dvd_add (Nat.dvd_mul_left _ _) (Nat.dvd_mul_left _ _)⟩
  · cases there

/-- Each of the three stands past those below it. -/
theorem stack_placed {block align : Nat} (blocks : 0 < block) (units : 0 < align)
    (above hotplugBytes gpuBytes videoBytes : Nat) :
    let windows := stack block align above hotplugBytes gpuBytes videoBytes
    (∀ window ∈ windows.1, Placed above block window) ∧
      (∀ window ∈ windows.2.1, Placed (past above windows.1) align window) ∧
      ∀ window ∈ windows.2.2, Placed (past (past above windows.1) windows.2.1) align window :=
  ⟨placed_spec _ _ blocks, placed_spec _ _ units, placed_spec _ _ units⟩

namespace GuestLayout

def ramBase : Nat := 0x40000000
def gicdBase : Nat := 0x08000000
def gicrBase : Nat := 0x080a0000
def deviceBase : Nat := 0x0c000000

/-- The map, once the checks have passed. -/
def map (gic : GicParameters) (vcpus : UInt32)
    (ramBytes hotplugBytes gpuBytes videoBytes : Nat) : GuestLayout :=
  let upper := stack blockSize.toNat align (ramBase + ramBytes) hotplugBytes gpuBytes videoBytes
  { gicd := ⟨gicdBase, gic.distributorSize.toNat⟩
    gicr := ⟨gicrBase, (gic.redistributorSize * vcpus.toUInt64).toNat⟩
    uart := ⟨deviceBase, 0x1000⟩
    virtioMmio := ⟨deviceBase + 0x10000, virtioMmioSize * virtioMmioSlots⟩
    ram := ⟨ramBase, ramBytes⟩
    hotplug := upper.1
    gpu := upper.2.1
    video := upper.2.2 }

def new (gic : GicParameters) (vcpus : UInt32)
    (ramBytes hotplugBytes gpuBytes videoBytes : Nat) : Except LayoutError GuestLayout :=
  let region := gic.redistributorRegionSize.toNat
  if ramBytes < 64 * 1024 * 1024 then .error (.ramTooSmall ramBytes)
  else if (gicrBase + region) % 2 ^ 64 > deviceBase then
    .error (.gicOverlapsDevices gicrBase region deviceBase)
  else .ok (map gic vcpus ramBytes hotplugBytes gpuBytes videoBytes)

def top (layout : GuestLayout) : Nat :=
  (([some layout.ram, layout.hotplug, layout.gpu, layout.video].filterMap id).map
    Window.end).max?.getD layout.ram.end

def topFor (ramBytes hotplugBytes gpuBytes videoBytes : Nat) : Nat :=
  stackTop blockSize.toNat align (ramBase + ramBytes) hotplugBytes gpuBytes videoBytes

def windows (layout : GuestLayout) : List Window :=
  [layout.gicd, layout.gicr, layout.uart, layout.virtioMmio, layout.ram] ++
    layout.hotplug.toList ++ layout.gpu.toList ++ layout.video.toList

/-- What the map does not check: both of the GIC's windows end before the devices, and the
distributor's before the redistributors, if there are any bytes of these. -/
structure Fits (layout : GuestLayout) : Prop where
  distributor : layout.gicd.end ≤ deviceBase
  redistributors : layout.gicr.end ≤ deviceBase
  order : layout.gicr.size = 0 ∨ layout.gicd.end ≤ gicrBase

/-- Windows one below the other, that end no later than `bound`. -/
def Under (bound : Nat) (windows : List Window) : Prop :=
  windows.Pairwise Window.Below ∧ ∀ window ∈ windows, window.end ≤ bound

/-- One more window, past those there are. -/
theorem Under.append {above unit : Nat} {windows : List Window} {window : Option Window}
    (under : Under above windows) (fits : ∀ next ∈ window, Placed above unit next) :
    Under (past above window) (windows ++ window.toList) := by
  cases window with
  | none => rwa [Option.toList_none, append_nil]
  | some next =>
    have reached := (fits next rfl).above
    refine ⟨pairwise_append.mpr ⟨under.1, pairwise_singleton _ _, ?_⟩, ?_⟩
    · intro lower inside upper last
      cases mem_singleton.mp last
      exact Nat.le_trans (under.2 lower inside) reached
    intro window inside
    show window.end ≤ next.base + next.size
    rcases mem_append.mp inside with lower | last
    · have bound := under.2 window lower
      omega
    · cases mem_singleton.mp last
      exact Nat.le_refl _

/-- A window placed past `above` ends highest. -/
theorem max_past {above unit : Nat} {window : Option Window}
    (fits : ∀ next ∈ window, Placed above unit next) :
    (window.toList.map Window.end).foldl max above = past above window := by
  cases window with
  | none => rfl
  | some next => exact Nat.max_eq_right (Nat.le_trans (fits next rfl).above (Nat.le_add_right _ _))

/-- The top is the highest end from that of RAM on. -/
theorem top_eq (layout : GuestLayout) :
    layout.top = ((layout.hotplug.toList ++ layout.gpu.toList ++ layout.video.toList).map
      Window.end).foldl max layout.ram.end := by
  unfold top
  cases layout.hotplug <;> cases layout.gpu <;> cases layout.video <;> rfl

/-- The windows at fixed places, with all that is below the devices as one. -/
theorem fixed_under (ram : Nat) :
    Under (ramBase + ram) [⟨gicdBase, deviceBase - gicdBase⟩, ⟨deviceBase, 0x1000⟩,
      ⟨deviceBase + 0x10000, virtioMmioSize * virtioMmioSlots⟩, ⟨ramBase, ram⟩] := by
  simp only [Under, Window.Below, Window.end, pairwise_cons, mem_cons, not_mem_nil,
    or_false, forall_eq_or_imp, forall_eq, gicdBase, deviceBase, ramBase, virtioMmioSize,
    virtioMmioSlots, List.Pairwise.nil, false_implies, implies_true, and_true]
  omega

/-- The map's windows are apart exactly if the GIC's two fit. -/
theorem map_apart_iff (gic : GicParameters) (vcpus : UInt32) (ram hotplug gpu video : Nat) :
    (map gic vcpus ram hotplug gpu video).windows.Pairwise Window.Apart ↔
      (map gic vcpus ram hotplug gpu video).Fits := by
  obtain ⟨hotplugged, accelerated, decoding⟩ := stack_placed (show 0 < blockSize.toNat by decide)
    (show 0 < align by decide) (ramBase + ram) hotplug gpu video
  have stacked := (((fixed_under ram).append hotplugged).append accelerated).append decoding
  obtain ⟨above, rest⟩ := pairwise_cons.mp stacked.1
  set layout := map gic vcpus ram hotplug gpu video
  have split : layout.windows = layout.gicd :: layout.gicr ::
      ([layout.uart, layout.virtioMmio, layout.ram] ++ layout.hotplug.toList ++
        layout.gpu.toList ++ layout.video.toList) := rfl
  rw [split, pairwise_cons, pairwise_cons]
  constructor
  · rintro ⟨distributor, redistributors, _⟩
    refine ⟨?_, ?_, ?_⟩
    · exact (distributor layout.uart (by simp)).below (show gicdBase ≤ deviceBase by decide)
        (show 0 < 0x1000 by decide)
    · exact (redistributors layout.uart (by simp)).below (show gicrBase ≤ deviceBase by decide)
        (show 0 < 0x1000 by decide)
    · rcases Nat.eq_zero_or_pos layout.gicr.size with empty | some
      · exact Or.inl empty
      · exact Or.inr ((distributor layout.gicr mem_cons_self).below
          (show gicdBase ≤ gicrBase by decide) some)
  · rintro ⟨distributor, redistributors, order⟩
    refine ⟨?_, ?_, rest.imp Window.Below.apart⟩
    · intro window inside
      rcases mem_cons.mp inside with rfl | higher
      · rcases order with empty | below
        · exact Window.apart_iff.mpr (Or.inr (Or.inl empty))
        · exact Window.Below.apart below
      · exact Window.Below.apart (distributor.trans (above window higher))
    · intro window higher
      exact Window.Below.apart (redistributors.trans (above window higher))

/-- Whatever map is built, the windows above RAM stand on their boundaries and the top chosen
before the machine is its top. Its windows are apart exactly if the GIC's two fit. -/
theorem windows_apart (gic : GicParameters) (vcpus : UInt32) (ram hotplug gpu video : Nat)
    (layout : GuestLayout) (built : new gic vcpus ram hotplug gpu video = .ok layout) :
    (∀ window ∈ layout.hotplug,
        blockSize.toNat ∣ window.base ∧ blockSize.toNat ∣ window.end) ∧
      (∀ window ∈ layout.gpu, 2 ^ 30 ∣ window.base ∧ 2 ^ 30 ∣ window.end) ∧
      (∀ window ∈ layout.video, 2 ^ 30 ∣ window.base ∧ 2 ^ 30 ∣ window.end) ∧
      topFor ram hotplug gpu video = layout.top ∧
      (layout.windows.Pairwise Window.Apart ↔ layout.Fits) := by
  have same : layout = map gic vcpus ram hotplug gpu video := by
    unfold new at built
    dsimp only at built
    split at built
    · cases built
    · split at built
      · cases built
      · exact (Except.ok.inj built).symm
  subst same
  obtain ⟨hotplugged, accelerated, decoding⟩ := stack_placed (show 0 < blockSize.toNat by decide)
    (show 0 < align by decide) (ramBase + ram) hotplug gpu video
  refine ⟨fun window there => ⟨(hotplugged window there).base, (hotplugged window there).past⟩,
    fun window there => ⟨(accelerated window there).base, (accelerated window there).past⟩,
    fun window there => ⟨(decoding window there).base, (decoding window there).past⟩, ?_,
    map_apart_iff gic vcpus ram hotplug gpu video⟩
  rw [top_eq, map_append, map_append, foldl_append, foldl_append]
  refine (stackTop_eq blockSize.toNat align (ramBase + ram) hotplug gpu video).trans ?_
  rw [← max_past decoding, ← max_past accelerated, ← max_past hotplugged]
  rfl

/-- The geometry one host reports: 64 redistributors fill the region. -/
def params : GicParameters := ⟨0x10000, 0x80000, 0x2000000⟩

/-- Four processors fit, with a range to plug in and both apertures. -/
theorem windows_apart_four :
    (map params 4 (2 ^ 31) (2 ^ 31) (2 ^ 30) 1).windows.Pairwise Window.Apart :=
  (windows_apart params 4 (2 ^ 31) (2 ^ 31) (2 ^ 30) 1 _ rfl).2.2.2.2.mpr
    ⟨by decide, by decide, Or.inr (by decide)⟩

/-- With 127 redistributors the map is built and the UART lies inside the last of them. -/
theorem redistributors_reach_uart :
    ∃ layout, new params 127 (2 ^ 31) 0 0 0 = .ok layout ∧ ¬ layout.gicr.Apart layout.uart :=
  ⟨map params 127 (2 ^ 31) 0 0 0, rfl, fun apart => apart deviceBase (by decide)⟩

end GuestLayout
end Lighter.Machine
