import Lighter.Lib.Word
import Lighter.Machine.Layout

/-!
# What is loaded at boot

The kernel goes where its header asks, the device tree past the footprint the header declares,
and the initramfs into the last quarter of RAM. That the footprint and the initramfs end inside
RAM is checked, with sums that wrap. The file is not compared with the footprint, nor the
footprint and the tree with the initramfs: what would lie outside RAM is refused, and what lies
inside it is loaded, over another part or not.
-/

namespace Lighter.Machine

open Fixed List

structure ImageHeader where
  textOffset : Nat
  imageSize : Nat

inductive KernelError where
  | badMagic (found expected : Nat)
  | truncated (len : Nat)
  | doesNotFit (base needed available : Nat)
  | memory (gpa len : Nat)

def arm64ImageMagic : Nat := 0x644d5241

def ImageHeader.parse (bytes : List UInt8) : Except KernelError ImageHeader :=
  if bytes.length < 64 then .error (.truncated bytes.length)
  else
    let field (off width : Nat) := fromLe ((bytes.drop off).take width)
    if field 56 4 ≠ arm64ImageMagic then .error (.badMagic (field 56 4) arm64ImageMagic)
    else .ok ⟨field 8 8, if field 16 8 = 0 then bytes.length else field 16 8⟩

structure BootInfo where
  entry : Nat
  dtb : Nat

structure InitramfsPlacement where
  start : Nat
  «end» : Nat

/-- Bytes written, and where. -/
abbrev Write := Nat × List UInt8

/-- `align_up`, whose product may wrap. -/
def alignUp (value align : Nat) : Nat := divCeil value align * align % 2 ^ 64

section

variable (ram : Window) (kernel : List UInt8) (initramfs : Option (List UInt8))
  (build : Option InitramfsPlacement → List UInt8) (memory : GuestMemory)

/-- `GuestMemory::write`. -/
def store (gpa : Nat) (bytes : List UInt8) : Except KernelError Write :=
  if memory.mapped gpa bytes.length then .ok (gpa, bytes) else .error (.memory gpa bytes.length)

def loadInitramfs : Except KernelError (List Write × Option InitramfsPlacement) :=
  match initramfs with
  | none => .ok ([], none)
  | some bytes =>
      let start := alignUp (address ram.base (ram.size / 4 * 3)) 4096
      let stop := address start bytes.length
      let top := address ram.base ram.size
      if stop > top then .error (.doesNotFit start bytes.length ((top + 2 ^ 64 - start) % 2 ^ 64))
      else do return ([← store memory start bytes], some ⟨start, stop⟩)

def load : Except KernelError (List Write × BootInfo × Option InitramfsPlacement) := do
  let header ← ImageHeader.parse kernel
  let kernelAddr := address ram.base header.textOffset
  let kernelEnd := address kernelAddr header.imageSize
  if kernelEnd > address ram.base ram.size then
    .error (.doesNotFit kernelAddr header.imageSize ram.size)
  else
    let first ← store memory kernelAddr kernel
    let (second, placement) ← loadInitramfs ram initramfs memory
    return (first :: second, ⟨kernelAddr, alignUp kernelEnd (2 ^ 21)⟩, placement)

/-- What the machine loads: the tree, which says where the initramfs is, comes last. -/
def boot : Except KernelError (List Write × BootInfo × Option InitramfsPlacement) := do
  let (writes, info, placement) ← load ram kernel initramfs memory
  return (writes ++ [← store memory info.dtb (build placement)], info, placement)

/-- Where the kernel, the tree and the initramfs belong. -/
def kernelAt (header : ImageHeader) : Nat := ram.base + header.textOffset

def treeAt (header : ImageHeader) : Nat :=
  divCeil (kernelAt ram header + header.imageSize) (2 ^ 21) * 2 ^ 21

def initramfsAt : Nat := divCeil (ram.base + ram.size / 4 * 3) 4096 * 4096

/-- What is to be reported of them. -/
def infoAt (header : ImageHeader) : BootInfo := ⟨kernelAt ram header, treeAt ram header⟩

def placementAt : Option InitramfsPlacement :=
  initramfs.map fun bytes => ⟨initramfsAt ram, initramfsAt ram + bytes.length⟩

/-- The kernel's footprint and file, the tree and the initramfs, where they are reported. -/
def parts (header : ImageHeader) (info : BootInfo) (placement : Option InitramfsPlacement) :
    List Window :=
  ⟨info.entry, max header.imageSize kernel.length⟩ :: ⟨info.dtb, (build placement).length⟩ ::
    (placement.map fun place => ⟨place.start, place.end - place.start⟩).toList

/-- Each part, where it belongs, ends inside RAM. -/
def Inside (header : ImageHeader) : Prop :=
  ∀ part ∈ parts kernel build header (infoAt ram header) (placementAt ram initramfs),
    part.end ≤ ram.end

/-- The parts have room where they belong: below the end of the address space, inside RAM, and
each before the other or after it. -/
structure Fits (header : ImageHeader) : Prop where
  low : ram.end < 2 ^ 64
  inside : Inside ram kernel initramfs build header
  clear : (parts kernel build header (infoAt ram header) (placementAt ram initramfs)).Pairwise
    fun first second =>
      first.size = 0 ∨ second.size = 0 ∨ first.Below second ∨ second.Below first

/-- What has been loaded is as it should be: no sum wrapped, the bytes are where they are
reported to be, and the parts are inside RAM and apart. -/
structure Sound (header : ImageHeader) (writes : List Write) (info : BootInfo)
    (placement : Option InitramfsPlacement) : Prop where
  low : ram.end < 2 ^ 64
  addresses : info = infoAt ram header ∧ placement = placementAt ram initramfs
  written : writes = (info.entry, kernel) ::
    (placement.map InitramfsPlacement.start).toList.zip initramfs.toList ++
      [(info.dtb, build placement)]
  inside : ∀ part ∈ parts kernel build header info placement,
    ram.base ≤ part.base ∧ part.end ≤ ram.end
  apart : (parts kernel build header info placement).Pairwise Window.Apart

end

/-- Rounding up goes less than a boundary further. -/
theorem divCeil_mul_lt {unit : Nat} (positive : 0 < unit) (value : Nat) :
    divCeil value unit * unit < value + unit := by
  have parts := Nat.div_add_mod' value unit
  unfold divCeil
  split
  · rw [Nat.succ_mul]
    omega
  · omega

variable {ram : Window} {kernel : List UInt8} {initramfs : Option (List UInt8)}
  {build : Option InitramfsPlacement → List UInt8} {memory : GuestMemory} {writes : List Write}
  {placement : Option InitramfsPlacement} {header : ImageHeader}

/-- A sequence succeeds if both of its steps do. -/
theorem bind_eq_ok {ε α β : Type} {first : Except ε α} {next : α → Except ε β} {result : β} :
    (first >>= next) = .ok result ↔ ∃ value, first = .ok value ∧ next value = .ok result := by
  cases first <;> simp [bind, Except.bind]

/-- What is written is as asked, where it is mapped. -/
theorem store_eq_ok {gpa : Nat} {bytes : List UInt8} {write : Write} :
    store memory gpa bytes = .ok write ↔
      memory.mapped gpa bytes.length = true ∧ write = (gpa, bytes) := by
  unfold store
  split
  · rename_i mapped
    simp [mapped, eq_comm]
  · rename_i unmapped
    simp [unmapped]

/-- The parts begin inside RAM. -/
theorem base_le (part : Window)
    (member : part ∈ parts kernel build header (infoAt ram header) (placementAt ram initramfs)) :
    ram.base ≤ part.base := by
  have tree : kernelAt ram header + header.imageSize ≤ treeAt ram header :=
    le_divCeil_mul (by decide) _
  have start : ram.base + ram.size / 4 * 3 ≤ initramfsAt ram := le_divCeil_mul (by decide) _
  have first : ram.base ≤ kernelAt ram header := Nat.le_add_right _ _
  simp only [parts, placementAt, mem_cons, Option.mem_toList, Option.map_eq_some_iff]
    at member
  rcases member with rfl | rfl | ⟨_, ⟨_, _, rfl⟩, rfl⟩
  · exact first
  · exact (first.trans (Nat.le_add_right _ _)).trans tree
  · exact (Nat.le_add_right _ _).trans start

/-- The kernel's footprint and its file, the tree and the initramfs, each by itself. -/
theorem inside_iff : Inside ram kernel initramfs build header ↔
    kernelAt ram header + header.imageSize ≤ ram.end ∧
      kernelAt ram header + kernel.length ≤ ram.end ∧
      treeAt ram header + (build (placementAt ram initramfs)).length ≤ ram.end ∧
      ∀ bytes ∈ initramfs, initramfsAt ram + bytes.length ≤ ram.end := by
  unfold Inside parts
  cases initramfs with
  | none =>
    simp [placementAt, infoAt, Window.end]
    omega
  | some bytes =>
    simp [placementAt, infoAt, Window.end]
    omega

/-- What is inside RAM is reached without wrapping. -/
theorem Inside.addresses (inside : Inside ram kernel initramfs build header)
    (low : ram.end < 2 ^ 64) :
    address ram.base header.textOffset = kernelAt ram header ∧
      address (kernelAt ram header) header.imageSize = kernelAt ram header + header.imageSize ∧
      alignUp (kernelAt ram header + header.imageSize) (2 ^ 21) = treeAt ram header ∧
      ∀ bytes ∈ initramfs,
        alignUp (address ram.base (ram.size / 4 * 3)) 4096 = initramfsAt ram ∧
          address (initramfsAt ram) bytes.length = initramfsAt ram + bytes.length := by
  obtain ⟨footprint, _, tree, last⟩ := inside_iff.mp inside
  have quarters : ram.base + ram.size / 4 * 3 ≤ ram.end := by
    unfold Window.end
    omega
  refine ⟨address_eq (show kernelAt ram header < 2 ^ 64 by omega), address_eq (by omega),
    Nat.mod_eq_of_lt (show treeAt ram header < 2 ^ 64 by omega), fun bytes there => ?_⟩
  have ends := last bytes there
  rw [address_eq (by omega)]
  exact ⟨Nat.mod_eq_of_lt (show initramfsAt ram < 2 ^ 64 by omega), address_eq (by omega)⟩

/-- When the initramfs is loaded, and where. -/
theorem loadInitramfs_eq_ok :
    loadInitramfs ram initramfs memory = .ok (writes, placement) ↔
      let start := alignUp (address ram.base (ram.size / 4 * 3)) 4096
      (∀ bytes ∈ initramfs, address start bytes.length ≤ address ram.base ram.size ∧
        memory.mapped start bytes.length = true) ∧
      (placement = initramfs.map fun bytes => ⟨start, address start bytes.length⟩) ∧
      writes = (placement.map InitramfsPlacement.start).toList.zip initramfs.toList := by
  unfold loadInitramfs
  cases initramfs with
  | none =>
    constructor
    · rintro ⟨⟩
      exact ⟨nofun, rfl, rfl⟩
    · rintro ⟨_, rfl, rfl⟩
      rfl
  | some bytes =>
    dsimp only
    split
    · rename_i beyond
      simp [Nat.not_le.mpr beyond]
    · rename_i inside
      simp only [bind_eq_ok, store_eq_ok, pure, Except.pure, Except.ok.injEq, Prod.mk.injEq,
        Option.mem_def, Option.some.injEq, forall_eq', Nat.not_lt.mp inside, true_and,
        Option.map_some]
      constructor
      · rintro ⟨_, ⟨mapped, rfl⟩, rfl, rfl⟩
        exact ⟨mapped, rfl, rfl⟩
      · rintro ⟨mapped, rfl, rfl⟩
        exact ⟨_, ⟨mapped, rfl⟩, rfl, rfl⟩

/-- When everything is loaded, and where, with the sums as they are computed. -/
theorem boot_eq_ok {info : BootInfo} (parsed : ImageHeader.parse kernel = .ok header) :
    boot ram kernel initramfs build memory = .ok (writes, info, placement) ↔
      let entry := address ram.base header.textOffset
      let stop := address entry header.imageSize
      let start := alignUp (address ram.base (ram.size / 4 * 3)) 4096
      (stop ≤ address ram.base ram.size ∧ memory.mapped entry kernel.length = true ∧
        (∀ bytes ∈ initramfs, address start bytes.length ≤ address ram.base ram.size ∧
          memory.mapped start bytes.length = true) ∧
        memory.mapped info.dtb (build placement).length = true) ∧
      info = ⟨entry, alignUp stop (2 ^ 21)⟩ ∧
      (placement = initramfs.map fun bytes => ⟨start, address start bytes.length⟩) ∧
      writes = (info.entry, kernel) ::
        (placement.map InitramfsPlacement.start).toList.zip initramfs.toList ++
          [(info.dtb, build placement)] := by
  unfold boot load
  rw [parsed]
  constructor
  · intro success
    obtain ⟨_, success, last⟩ := bind_eq_ok.mp success
    obtain ⟨_, ⟨⟩, success⟩ := bind_eq_ok.mp success
    dsimp only at success
    split at success
    · cases success
    rename_i short
    obtain ⟨_, kernelStored, success⟩ := bind_eq_ok.mp success
    obtain ⟨⟨second, _⟩, initramfsLoaded, ⟨⟩⟩ := bind_eq_ok.mp success
    obtain ⟨_, treeStored, ⟨⟩⟩ := bind_eq_ok.mp last
    obtain ⟨kernelMapped, rfl⟩ := store_eq_ok.mp kernelStored
    obtain ⟨treeMapped, rfl⟩ := store_eq_ok.mp treeStored
    obtain ⟨each, placed, rfl⟩ := loadInitramfs_eq_ok.mp initramfsLoaded
    exact ⟨⟨Nat.not_lt.mp short, kernelMapped, each, treeMapped⟩, rfl, placed, rfl⟩
  · rintro ⟨⟨short, kernelMapped, each, treeMapped⟩, rfl, placed, rfl⟩
    refine bind_eq_ok.mpr ⟨((_, kernel) :: _, _, placement), bind_eq_ok.mpr ⟨header, rfl, ?_⟩,
      bind_eq_ok.mpr ⟨_, store_eq_ok.mpr ⟨treeMapped, rfl⟩, rfl⟩⟩
    dsimp only
    rw [if_neg (Nat.not_lt.mpr short)]
    exact bind_eq_ok.mpr ⟨_, store_eq_ok.mpr ⟨kernelMapped, rfl⟩,
      bind_eq_ok.mpr ⟨_, loadInitramfs_eq_ok.mpr ⟨each, placed, rfl⟩, rfl⟩⟩

/-- A span is mapped where RAM is all the memory exactly if it is inside RAM. -/
theorem mapped_ram (ramOnly : memory.regions = [⟨ram.base, ram.size⟩]) (low : ram.end < 2 ^ 64)
    {gpa len : Nat} (above : ram.base ≤ gpa) :
    memory.mapped gpa len = true ↔ gpa + len ≤ ram.end := by
  simp only [GuestMemory.mapped, ramOnly, any_cons, any_nil, Bool.or_false, Region.contains,
    Bool.and_eq_true, decide_eq_true_eq]
  unfold Window.end at *
  omega

/-- Where the initramfs begins is no sum that wraps. -/
theorem initramfs_start (low : ram.end + 4096 ≤ 2 ^ 64) :
    alignUp (address ram.base (ram.size / 4 * 3)) 4096 = initramfsAt ram := by
  have bound := divCeil_mul_lt (show 0 < 4096 by decide) (ram.base + ram.size / 4 * 3)
  unfold Window.end at low
  rw [address_eq (by omega)]
  exact Nat.mod_eq_of_lt (by omega)

/-- Loading succeeds, where RAM is all the memory and no sum wraps, exactly if each part ends
inside RAM: whatever would lie outside is refused. -/
theorem boot_succeeds_iff (parsed : ImageHeader.parse kernel = .ok header)
    (ramOnly : memory.regions = [⟨ram.base, ram.size⟩]) (low : ram.end + 4096 ≤ 2 ^ 64)
    (footprint : kernelAt ram header + header.imageSize + 2 ^ 21 ≤ 2 ^ 64) :
    (∃ result, boot ram kernel initramfs build memory = .ok result) ↔
      Inside ram kernel initramfs build header := by
  have below : ram.end < 2 ^ 64 := by omega
  have entry : address ram.base header.textOffset = kernelAt ram header :=
    address_eq (show kernelAt ram header < 2 ^ 64 by omega)
  have stop : address (kernelAt ram header) header.imageSize =
      kernelAt ram header + header.imageSize := address_eq (by omega)
  have rounded := divCeil_mul_lt (show 0 < 2 ^ 21 by decide)
    (kernelAt ram header + header.imageSize)
  have dtb : alignUp (kernelAt ram header + header.imageSize) (2 ^ 21) = treeAt ram header :=
    Nat.mod_eq_of_lt (by omega)
  have top : address ram.base ram.size = ram.end := address_eq below
  have tree : kernelAt ram header + header.imageSize ≤ treeAt ram header :=
    le_divCeil_mul (by decide) _
  have base : ram.base ≤ kernelAt ram header := Nat.le_add_right _ _
  have third : ram.base + ram.size / 4 * 3 ≤ initramfsAt ram := le_divCeil_mul (by decide) _
  -- The sum of the initramfs may wrap, but then it is not mapped.
  have each : ∀ len, (address (initramfsAt ram) len ≤ ram.end ∧
      memory.mapped (initramfsAt ram) len = true) ↔ initramfsAt ram + len ≤ ram.end := by
    intro len
    rw [mapped_ram ramOnly below (by omega)]
    refine ⟨And.right, fun inside => ⟨?_, inside⟩⟩
    rw [address_eq (by omega)]
    exact inside
  have places : (∀ bytes ∈ initramfs, initramfsAt ram + bytes.length ≤ ram.end) →
      (initramfs.map fun bytes => ⟨initramfsAt ram, address (initramfsAt ram) bytes.length⟩) =
        placementAt ram initramfs := by
    intro inside
    apply Option.map_congr
    intro bytes there
    rw [address_eq (by have := inside bytes there; omega)]
  simp only [Prod.exists, boot_eq_ok parsed, entry, stop, dtb, initramfs_start low, top, each,
    inside_iff, mapped_ram ramOnly below base]
  constructor
  · rintro ⟨_, _, _, ⟨short, file, last, room⟩, rfl, rfl, _⟩
    rw [mapped_ram ramOnly below (by dsimp only; omega), places last] at room
    exact ⟨short, file, room, last⟩
  · rintro ⟨short, file, room, last⟩
    refine ⟨_, _, _, ⟨short, file, last, ?_⟩, rfl, rfl, rfl⟩
    rw [mapped_ram ramOnly below (by dsimp only; omega), places last]
    exact room

/-- Whenever loading succeeds, what was loaded is as it should be exactly if the parts have
room where they belong. Where RAM is all the memory and no sum wraps, it succeeds exactly if
each part ends inside RAM. -/
theorem boot_loads (ram : Window) (kernel : List UInt8) (initramfs : Option (List UInt8))
    (build : Option InitramfsPlacement → List UInt8) (memory : GuestMemory)
    (header : ImageHeader) (parsed : ImageHeader.parse kernel = .ok header) :
    (∀ writes info placement,
      boot ram kernel initramfs build memory = .ok (writes, info, placement) →
        (Sound ram kernel initramfs build header writes info placement ↔
          Fits ram kernel initramfs build header)) ∧
      (memory.regions = [⟨ram.base, ram.size⟩] → ram.end + 4096 ≤ 2 ^ 64 →
        kernelAt ram header + header.imageSize + 2 ^ 21 ≤ 2 ^ 64 →
          ((∃ result, boot ram kernel initramfs build memory = .ok result) ↔
            Inside ram kernel initramfs build header)) := by
  refine ⟨?_, boot_succeeds_iff parsed⟩
  intro writes info placement success
  obtain ⟨_, reported, placed, written⟩ := (boot_eq_ok parsed).mp success
  constructor
  · rintro ⟨low, ⟨rfl, rfl⟩, _, inside, apart⟩
    exact ⟨low, fun part member => (inside part member).2,
      apart.imp Window.apart_iff.mp⟩
  · rintro ⟨low, inside, clear⟩
    obtain ⟨entry, stop, dtb, start⟩ := inside.addresses low
    have info : info = infoAt ram header := by
      rw [reported, entry, stop, dtb]
      rfl
    have place : placement = placementAt ram initramfs := by
      rw [placed]
      cases initramfs with
      | none => rfl
      | some bytes =>
        obtain ⟨first, last⟩ := start bytes rfl
        rw [Option.map_some, first, last]
        rfl
    subst info place
    exact ⟨low, ⟨rfl, rfl⟩, written, fun part member => ⟨base_le part member, inside part member⟩,
      clear.imp Window.apart_iff.mpr⟩

namespace Staged

/-- RAM of 64 MiB, which is all the memory. -/
def base : Window := ⟨0x40000000, 2 ^ 26⟩

def backed : GuestMemory := ⟨[⟨0x40000000, 2 ^ 26⟩], fun _ => 0⟩

/-- A kernel's file that is its header. -/
def image (textOffset imageSize : Nat) : List UInt8 :=
  leBytes 8 0 ++ leBytes 8 textOffset ++ leBytes 8 imageSize ++ leBytes 32 0 ++
    leBytes 8 arm64ImageMagic

/-- The tree is written over a file that is longer than the footprint its header declares. -/
theorem tree_over_kernel : ∃ writes, boot base (image (2 ^ 21 - 1) 1) none (fun _ => [1]) backed =
      .ok (writes, ⟨0x401fffff, 0x40200000⟩, none) ∧
    ¬ (⟨0x401fffff, (image (2 ^ 21 - 1) 1).length⟩ : Window).Apart ⟨0x40200000, 1⟩ :=
  ⟨_, rfl, fun apart => apart 0x40200000 (by decide)⟩

/-- A kernel that asks to be loaded above the initramfs has room there, with its tree. -/
theorem boot_loads_high : ∃ writes info placement,
    boot base (image 0x3400000 64) (some [7]) (fun _ => [1]) backed =
      .ok (writes, info, placement) ∧
    Sound base (image 0x3400000 64) (some [7]) (fun _ => [1]) ⟨0x3400000, 64⟩ writes info
      placement := by
  have room : Fits base (image 0x3400000 64) (some [7]) (fun _ => [1]) ⟨0x3400000, 64⟩ :=
    ⟨by decide, inside_iff.mpr ⟨by decide, by decide, by decide, by simp; decide⟩, by decide⟩
  obtain ⟨sound, _⟩ := boot_loads base (image 0x3400000 64) (some [7]) (fun _ => [1]) backed
    ⟨0x3400000, 64⟩ rfl
  exact ⟨_, _, _, rfl, (sound _ _ _ rfl).mpr room⟩

end Staged

end Lighter.Machine
