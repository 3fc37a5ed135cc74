import Lighter.Lib.Transition
import Lighter.Virtio.Mem

/-!
# The accounting of pluggable memory

The counter of plugged bytes, the flags of the blocks, the offer and the backed prefix
are moved by the guest, the host's policy and the thread that prepares the backing.
Whatever they do, the counter is what the flags say, and no block is plugged that is
not backed. Requests are arbitrary bytes in arbitrary chains; one that is refused
leaves everything as it was.
-/

namespace Lighter.Virtio.Mem

open Flags List MemState

/-- A block, as a number. -/
theorem toNat_blockSize : blockSize.toNat = 134217728 := rfl

theorem toNat_min (first second : UInt64) :
    (min first second).toNat = min first.toNat second.toNat := by
  change (if first ≤ second then first else second).toNat = _
  simp only [UInt64.le_iff_toNat_le]
  split <;> omega

/-- Rounding is to whole blocks, downwards. -/
theorem round_spec (bytes : UInt64) :
    (round bytes).toNat ≤ bytes.toNat ∧ (round bytes).toNat % blockSize.toNat = 0 := by
  have below := bytes.toNat_lt
  simp only [round, UInt64.toNat_mul, UInt64.toNat_div, toNat_blockSize]
  omega

/-- An offer is whole blocks of the range. -/
theorem round_region (range : Range) (bytes : UInt64) :
    (round (min bytes range.region)).toNat ≤ range.region.toNat ∧
      (round (min bytes range.region)).toNat % blockSize.toNat = 0 := by
  obtain ⟨least, whole⟩ := round_spec (min bytes range.region)
  rw [toNat_min] at least
  exact ⟨Nat.le_trans least (Nat.min_le_right _ _), whole⟩

/-- The counter agrees with the flags, what is plugged is backed, and the offer and
the backing are whole blocks of the range. -/
structure Accounted (state : MemState) : Prop where
  length : blockSize.toNat * state.blocks.length = state.range.region.toNat
  plugged : state.plugged.toNat = blockSize.toNat * state.blocks.count true
  below : ∀ index, state.blocks[index]? = some true →
    blockSize.toNat * (index + 1) ≤ state.available.toNat
  available : state.available.toNat ≤ state.range.region.toNat ∧
    state.available.toNat % blockSize.toNat = 0
  requested : state.requested.toNat ≤ state.range.region.toNat ∧
    state.requested.toNat % blockSize.toNat = 0

/-- The span a request names: whole blocks of the range, at least one. -/
structure Asks (state : MemState) (request : Request) (first : Nat) : Prop where
  address : request.addr.toNat = state.range.addr.toNat + blockSize.toNat * first
  positive : 0 < request.count.toNat
  inside : first + request.count.toNat ≤ state.blocks.length

/-- Every block of the span has this flag. -/
def Spans (state : MemState) (first count : Nat) (flag : Bool) : Prop :=
  ∀ index, first ≤ index → index < first + count → state.blocks[index]? = some flag

/-- The span is set to this flag, and the other blocks are left alone. -/
def Sets (state after : MemState) (first count : Nat) (flag : Bool) : Prop :=
  ∀ index, after.blocks[index]? =
    if first ≤ index ∧ index < first + count then some flag else state.blocks[index]?

/-- What the answer to a request says about it. -/
structure Obeys (state : MemState) (request : Request) (handled : Handled) : Prop where
  /-- An acknowledged plug: the blocks asked for were clear, are set, and fit the offer
  and the backing. -/
  plug : request.kind = .plug → handled.response = .ack → ∃ first, Asks state request first ∧
    Spans state first request.count.toNat false ∧
    Sets state handled.state first request.count.toNat true ∧
    handled.state.plugged ≤ min handled.state.requested handled.state.available
  /-- An acknowledged unplug: the blocks asked for were set, and are clear. -/
  unplug : request.kind = .unplug → handled.response = .ack →
    ∃ first, Asks state request first ∧ Spans state first request.count.toNat true ∧
      Sets state handled.state first request.count.toNat false
  /-- A question is answered as the flags are. -/
  tell : request.kind = .state → handled.state = state ∧
    (handled.response = .ack → ∃ first, Asks state request first ∧
      (handled.found = statePlugged ↔ Spans state first request.count.toNat true) ∧
      (handled.found = stateUnplugged ↔ Spans state first request.count.toNat false) ∧
      (handled.found = stateMixed ↔ ¬Spans state first request.count.toNat true ∧
        ¬Spans state first request.count.toNat false))
  refused : handled.response ≠ .ack → handled.state = state
  kept : handled.state.range = state.range ∧ handled.state.requested = state.requested ∧
    handled.state.available = state.available

/-- An answer that refuses changes nothing. -/
theorem obeys_refusal (state : MemState) (request : Request) {response : Response}
    (refused : response ≠ .ack) (found : UInt16) :
    Obeys state request (answer state response found) where
  plug _ ack := absurd ack refused
  unplug _ ack := absurd ack refused
  tell _ := ⟨rfl, fun ack => absurd ack refused⟩
  refused _ := rfl
  kept := ⟨rfl, rfl, rfl⟩

section Acknowledged

-- The new counter is a variable here: comparing two sums of machine words by
-- computation is out of the question.
variable {state : MemState} {request : Request} {first : Nat} {plugged : UInt64}

theorem obeys_plug (kind : request.kind = .plug) (asks : Asks state request first)
    (clear : Spans state first request.count.toNat false) (now : UInt64)
    (offered : plugged ≤ state.requestedBytes) :
    Obeys state request (answer
      { state with
        blocks := fill state.blocks first request.count.toNat true
        plugged := plugged
        pluggedAt := now } .ack 0) where
  plug _ _ := ⟨first, asks, clear, getElem?_fill asks.inside true, offered⟩
  unplug other := absurd (kind.symm.trans other) (by decide)
  tell other := absurd (kind.symm.trans other) (by decide)
  refused refused := absurd rfl refused
  kept := ⟨rfl, rfl, rfl⟩

theorem obeys_unplug (kind : request.kind = .unplug) (asks : Asks state request first)
    (held : Spans state first request.count.toNat true) (plugged : UInt64)
    (released : Option (UInt64 × UInt64)) : Obeys state request
      ⟨{ state with
          blocks := fill state.blocks first request.count.toNat false
          plugged := plugged }, .ack, 0, released⟩ where
  plug other := absurd (kind.symm.trans other) (by decide)
  unplug _ _ := ⟨first, asks, held, getElem?_fill asks.inside false⟩
  tell other := absurd (kind.symm.trans other) (by decide)
  refused refused := absurd rfl refused
  kept := ⟨rfl, rfl, rfl⟩

end Acknowledged

namespace Accounted

variable {state : MemState}

section

variable (books : Accounted state)
include books

variable {first : Nat} {request : Request}

theorem toNat_bytesOf {blocks : Nat} (inside : blocks ≤ state.blocks.length) :
    (bytesOf blocks).toNat = blockSize.toNat * blocks := by
  have length := books.length
  have fits := state.range.fits
  rw [bytesOf, UInt64.toNat_mul, UInt64.toNat_ofNat', toNat_blockSize] at *
  omega

/-- The block at an address is the one that starts there. -/
theorem blockOf_spec {gpa : UInt64} (found : state.blockOf gpa = some first) :
    gpa.toNat = state.range.addr.toNat + blockSize.toNat * first ∧
      first < state.blocks.length := by
  have length := books.length
  have fits := state.range.fits
  have aligned := state.range.aligned
  unfold blockOf at found
  split at found
  · cases found
  rename_i inside
  simp only [Bool.or_eq_true, decide_eq_true_eq, bne_iff_ne, ne_eq, not_or, not_not,
    UInt64.lt_iff_toNat_lt, ge_iff_le, UInt64.le_iff_toNat_le, UInt64.toNat_add,
    ← UInt64.toNat_inj, UInt64.toNat_mod] at inside
  obtain ⟨⟨low, high⟩, boundary⟩ := inside
  have place := Option.some.inj found
  rw [UInt64.toNat_div, UInt64.toNat_sub] at place
  change gpa.toNat % blockSize.toNat = 0 at boundary
  rw [toNat_blockSize] at *
  omega

theorem asks (found : state.blockOf request.addr = some first)
    (within : ¬(request.count.toNat = 0 ∨ first + request.count.toNat > state.blocks.length)) :
    Asks state request first := by
  obtain ⟨address, _⟩ := books.blockOf_spec found
  exact ⟨address, by omega, by omega⟩

/-- New flags and a new counter, where these agree. -/
theorem renewed {blocks : List Bool} {plugged : UInt64}
    (pluggedAt : UInt64) (length : blocks.length = state.blocks.length)
    (counted : plugged.toNat = blockSize.toNat * blocks.count true)
    (below : ∀ index, blocks[index]? = some true →
      blockSize.toNat * (index + 1) ≤ state.available.toNat) :
    Accounted { state with blocks := blocks, plugged := plugged, pluggedAt := pluggedAt } where
  length := by
    rw [length]
    exact books.length
  plugged := counted
  below := below
  available := books.available
  requested := books.requested

/-- Plugging, with what the three checks let through. -/
theorem plug (now : UInt64) (asks : Asks state request first) (kind : request.kind = .plug) :
    Accounted (state.plug now first request.count.toNat).state ∧
      Obeys state request (state.plug now first request.count.toNat) := by
  have refusal : Accounted state ∧ Obeys state request (answer state .nack 0) :=
    ⟨books, obeys_refusal state request (by decide) 0⟩
  unfold MemState.plug
  dsimp only
  split
  · exact refusal
  rename_i backed
  split
  · exact refusal
  rename_i clear
  split
  · exact refusal
  rename_i offered
  have inside := asks.inside
  have size := books.toNat_bytesOf inside
  have more := books.toNat_bytesOf (Nat.le_trans (Nat.le_add_left request.count.toNat first) inside)
  have fits := state.range.fits
  have free : (span state.blocks first request.count.toNat).count true = 0 :=
    any_span_iff.mp (Bool.eq_false_iff.mpr clear)
  let filled := fill state.blocks first request.count.toNat true
  have counted : filled.count true = state.blocks.count true + request.count.toNat := by
    grind [count_fill]
  -- The new total still counts blocks of the range, so the sum does not wrap.
  have sum : (state.plugged + MemState.bytesOf request.count.toNat).toNat =
      blockSize.toNat * filled.count true := by
    have most : filled.count true ≤ state.blocks.length := by
      rw [← length_fill inside true]
      exact count_le_length
    have product := Nat.mul_le_mul_left blockSize.toNat most
    rw [books.length] at product
    have total : state.plugged.toNat + blockSize.toNat * request.count.toNat =
        blockSize.toNat * filled.count true := by
      rw [counted, Nat.mul_add, books.plugged]
    rw [UInt64.toNat_add, more, total]
    exact Nat.mod_eq_of_lt (by omega)
  rw [gt_iff_lt, UInt64.not_lt, UInt64.le_iff_toNat_le, size] at backed
  rw [gt_iff_lt, UInt64.not_lt] at offered
  constructor
  · refine books.renewed now (length_fill inside true) sum ?_
    intro index set
    rw [getElem?_fill inside] at set
    split at set
    · have product := Nat.mul_le_mul_left blockSize.toNat
        (show index + 1 ≤ first + request.count.toNat by omega)
      exact Nat.le_trans product backed
    · exact books.below index set
  · exact obeys_plug kind asks ((count_span_eq_zero_iff inside).mp free) now offered

theorem unplug (asks : Asks state request first) (kind : request.kind = .unplug) :
    Accounted (state.unplug request.addr first request.count.toNat).state ∧
      Obeys state request (state.unplug request.addr first request.count.toNat) := by
  unfold MemState.unplug
  split
  · exact ⟨books, obeys_refusal state request (by decide) 0⟩
  rename_i clear
  have inside := asks.inside
  have more := books.toNat_bytesOf (Nat.le_trans (Nat.le_add_left request.count.toNat first) inside)
  have below := state.plugged.toNat_lt
  have held : (span state.blocks first request.count.toNat).count true =
      request.count.toNat := (any_not_span_iff inside).mp (Bool.eq_false_iff.mpr clear)
  have rest : (state.plugged - MemState.bytesOf request.count.toNat).toNat =
      blockSize.toNat * (fill state.blocks first request.count.toNat false).count true := by
    have counted := count_fill state.blocks first request.count.toNat false
    simp only [held, Bool.false_eq_true, if_false, Nat.add_zero] at counted
    have total := books.plugged
    rw [← counted, Nat.mul_add] at total
    rw [UInt64.toNat_sub, more]
    omega
  constructor
  · refine books.renewed state.pluggedAt (length_fill inside false) rest ?_
    intro index set
    rw [getElem?_fill inside] at set
    split at set
    · cases set
    · exact books.below index set
  · exact obeys_unplug kind asks ((count_span_eq_iff inside).mp held) _ _

/-- The number of set flags tells the three answers apart. -/
theorem tell (asks : Asks state request first) (kind : request.kind = .state) :
    Accounted (state.tell first request.count.toNat).state ∧
      Obeys state request (state.tell first request.count.toNat) := by
  have wrong : request.kind ≠ .plug ∧ request.kind ≠ .unplug := by simp [kind]
  have positive := asks.positive
  have none : _ ↔ Spans state first request.count.toNat false :=
    count_span_eq_zero_iff asks.inside
  have all : _ ↔ Spans state first request.count.toNat true := count_span_eq_iff asks.inside
  refine ⟨books, fun other => absurd other wrong.1, fun other => absurd other wrong.2,
    fun _ => ⟨rfl, fun _ => ⟨first, asks, ?_⟩⟩, fun refused => absurd rfl refused, rfl, rfl, rfl⟩
  rw [← none, ← all]
  simp only [MemState.tell, answer]
  split
  · rename_i empty
    refine ⟨iff_of_false (by decide) (by omega), iff_of_true rfl empty, iff_of_false (by decide) ?_⟩
    exact fun both => both.2 empty
  rename_i some
  split
  · rename_i full
    refine ⟨iff_of_true rfl full, iff_of_false (by decide) some, iff_of_false (by decide) ?_⟩
    exact fun both => both.1 full
  · rename_i part
    exact ⟨iff_of_false (by decide) part, iff_of_false (by decide) some,
      iff_of_true rfl ⟨part, some⟩⟩

/-- Nothing is plugged. -/
theorem emptied (now : UInt64) :
    Accounted { state with
      blocks := replicate state.blocks.length false, plugged := 0, pluggedAt := now } := by
  refine books.renewed now (length_replicate ..) ?_ ?_
  · grind
  · grind

/-- One request, whatever it is. -/
theorem handle (now : UInt64) (request : Request) :
    Accounted (state.handle now request).state ∧
      Obeys state request (state.handle now request) := by
  have failure : Accounted state ∧ Obeys state request (answer state .error 0) :=
    ⟨books, obeys_refusal state request (by decide) 0⟩
  unfold MemState.handle
  split
  · exact failure
  rename_i first found
  dsimp only
  split
  · exact failure
  rename_i passed
  have asked : request.kind ≠ .unplugAll → Asks state request first := by
    intro ordinary
    exact books.asks found fun bad => passed ⟨ordinary, bad⟩
  cases kind : request.kind with
  | plug => exact books.plug now (asked (by simp [kind])) kind
  | unplug => exact books.unplug (asked (by simp [kind])) kind
  | state => exact books.tell (asked (by simp [kind])) kind
  | other raw => exact failure
  | unplugAll =>
    refine ⟨books.emptied state.pluggedAt, ?_⟩
    exact ⟨fun other => absurd (kind.symm.trans other) (by simp),
      fun other => absurd (kind.symm.trans other) (by simp),
      fun other => absurd (kind.symm.trans other) (by simp),
      fun refused => absurd rfl refused, rfl, rfl, rfl⟩

end

end Accounted

/-- What the parties do: the guest through its queue, the host's policy, the backing,
and the transport's reset. The queue and the memory are whatever the guest has made
of them. -/
inductive Act where
  | drain (release : GuestMemory → UInt64 × UInt64 → GuestMemory) (now : UInt64) (turns : Nat)
      (queue : Virtqueue) (memory : GuestMemory)
  | setRequested (bytes : UInt64)
  | offer (now bytes : UInt64)
  | backing (bytes : UInt64)
  | reset (now : UInt64)

def step (state : MemState) : Act → MemState
  | .drain release now turns queue memory =>
      (Mem.drain release now turns ⟨state, queue, memory⟩).state
  | .setRequested bytes => state.setRequestedBytes bytes
  | .offer now bytes => state.request now bytes
  | .backing bytes => state.backingReady bytes
  | .reset now => state.reset now

/-- The backing grows, in whole blocks. -/
def Allowed (state : MemState) : Act → Prop
  | .backing bytes => bytes ≤ state.range.region ∧ bytes % blockSize = 0 ∧
      state.available ≤ bytes
  | _ => True

/-- The range as the machine sets it up, backed at once or to be backed later. -/
def start (range : Range) (requested : UInt64) (deferred : Bool) : MemState :=
  if deferred then (MemState.new range requested).deferBacking else MemState.new range requested

/-- What a service does to the state, requests do one after another. -/
theorem drain_requests (release : GuestMemory → UInt64 × UInt64 → GuestMemory) (now : UInt64)
    (turns : Nat) (served : Served) :
    ∃ requests : List Request, (drain release now turns served).state =
      requests.foldl (fun state request => (state.handle now request).state) served.state := by
  induction turns generalizing served with
  | zero => exact ⟨[], rfl⟩
  | succ turns ih =>
    unfold drain
    split
    · rename_i queue chain _
      obtain ⟨requests, same⟩ := ih (serve release now { served with queue := queue } chain)
      rw [same]
      by_cases whole : ((chain.descriptors served.memory).foldl (gather served.memory)
          ⟨[], none⟩).request.length = reqLen
      · refine ⟨Request.ofBytes ((chain.descriptors served.memory).foldl (gather served.memory)
          ⟨[], none⟩).request :: requests, ?_⟩
        rw [foldl_cons]
        congr 1
        simp only [serve, if_pos whole]
      · refine ⟨requests, ?_⟩
        congr 1
        simp only [serve, if_neg whole]
        rfl
    · exact ⟨[], rfl⟩

namespace Accounted

variable {state : MemState}

/-- Another offer, of whole blocks of the range, and other clocks. -/
theorem reoffered (books : Accounted state) {offer : UInt64} (grownAt changedAt : UInt64)
    (least : offer.toNat ≤ state.range.region.toNat) (whole : offer.toNat % blockSize.toNat = 0) :
    Accounted { state with requested := offer, grownAt := grownAt, changedAt := changedAt } :=
  ⟨books.length, books.plugged, books.below, books.available, least, whole⟩

/-- Every action keeps the account. -/
theorem step (books : Accounted state) (act : Act) (legal : Allowed state act) :
    Accounted (step state act) := by
  cases act with
  | drain release now turns queue memory =>
    obtain ⟨requests, same⟩ := drain_requests release now turns ⟨state, queue, memory⟩
    simp only [Mem.step, same]
    -- Request after request, each keeps the account.
    clear same legal
    induction requests generalizing state with
    | nil => exact books
    | cons request _ ih => exact ih (books.handle now request).1
  | setRequested bytes =>
    obtain ⟨least, whole⟩ := round_region state.range bytes
    exact books.reoffered state.grownAt state.changedAt least whole
  | offer now bytes =>
    obtain ⟨least, whole⟩ := round_region state.range bytes
    unfold Mem.step request setRequestedBytes
    dsimp only
    split
    · exact books
    · split
      · exact books.reoffered now now least whole
      · exact books.reoffered state.grownAt now least whole
  | backing bytes =>
    obtain ⟨inside, whole, grown⟩ := legal
    rw [UInt64.le_iff_toNat_le] at inside grown
    rw [← UInt64.toNat_inj, UInt64.toNat_mod, UInt64.toNat_zero] at whole
    exact ⟨books.length, books.plugged,
      fun index set => Nat.le_trans (books.below index set) grown, ⟨inside, whole⟩,
      books.requested⟩
  | reset now => exact books.emptied now

end Accounted

theorem accounted_start (range : Range) (requested : UInt64) (deferred : Bool) :
    Accounted (start range requested deferred) := by
  set bits := replicate (range.region / blockSize).toNat false
  have none : ∀ index : Nat, bits[index]? ≠ some true := by
    intro index
    rw [getElem?_replicate]
    split <;> simp
  have length : blockSize.toNat * bits.length = range.region.toNat := by
    rw [length_replicate, UInt64.toNat_div]
    exact Nat.mul_div_cancel' (Nat.dvd_of_mod_eq_zero range.whole)
  have clear : (0 : UInt64).toNat = blockSize.toNat * bits.count true := by grind
  unfold start
  split
  · exact ⟨length, clear, fun index set => absurd set (none index), ⟨Nat.zero_le _, rfl⟩,
      round_region range requested⟩
  · exact ⟨length, clear, fun index set => absurd set (none index),
      ⟨Nat.le_refl _, range.whole⟩, round_region range requested⟩

/-- The account holds after any run. -/
theorem accounted_run (range : Range) (requested : UInt64) (deferred : Bool) (acts : List Act)
    (legal : Transition.Legal Allowed step (start range requested deferred) acts) :
    Accounted (Transition.run step (start range requested deferred) acts) :=
  Transition.run_invariant Allowed step Accounted
    (fun _ act books permitted => books.step act permitted) _ acts
    (accounted_start range requested deferred) legal

/-- After any run of guest requests, host offers, backing progress and resets the
counter is the size of the blocks whose flags are set, these lie in the backed prefix,
and the next request, whatever it is, is answered by what the flags, the offer and the
backing say. -/
theorem memory_accounted (range : Range) (requested : UInt64) (deferred : Bool)
    (acts : List Act)
    (legal : Transition.Legal Allowed step (start range requested deferred) acts) :
    let state := Transition.run step (start range requested deferred) acts
    state.plugged.toNat = blockSize.toNat * state.blocks.count true ∧
      (∀ index, state.blocks[index]? = some true →
        blockSize.toNat * (index + 1) ≤ state.available.toNat) ∧
      ∀ now request, Obeys state request (state.handle now request) := by
  intro state
  have accounted : Accounted state := accounted_run range requested deferred acts legal
  exact ⟨accounted.plugged, accounted.below, fun now request => (accounted.handle now request).2⟩

/-- Two blocks above the first gigabyte. -/
def twoBlocks : Range where
  addr := 1073741824
  region := 268435456
  aligned := by decide
  whole := by decide
  fits := by decide

/-- One block offered, none backed, then one; and a reset. -/
def firstBlock : List Act := [.setRequested 134217728, .backing 134217728, .reset 7]

theorem memory_accounted_firstBlock :
    let state := Transition.run step (start twoBlocks 0 true) firstBlock
    (state.handle 8 ⟨.plug, 1073741824, 1⟩).response = .ack ∧
      (state.handle 8 ⟨.plug, 1207959552, 1⟩).response = .nack ∧
      state.plugged.toNat = blockSize.toNat * state.blocks.count true ∧
      Obeys state ⟨.plug, 1073741824, 1⟩ (state.handle 8 ⟨.plug, 1073741824, 1⟩) := by
  have accounted := memory_accounted twoBlocks 0 true firstBlock
    ⟨trivial, ⟨by decide, by decide, by decide⟩, trivial, trivial⟩
  exact ⟨by decide, by decide, accounted.1, accounted.2.2 8 _⟩

/-! ## Unplugging everything -/

/-- Acknowledged, and no block is left plugged. -/
structure Empties (handled : Handled) : Prop where
  acknowledged : handled.response = .ack
  clear : true ∉ handled.state.blocks
  plugged : handled.state.plugged = 0

/-- What is released lies in the range. -/
def ReleasesInside (state : MemState) (handled : Handled) : Prop :=
  ∀ gpa bytes, handled.released = some (gpa, bytes) →
    state.range.addr.toNat ≤ gpa.toNat ∧
      gpa.toNat + bytes.toNat ≤ state.range.addr.toNat + state.range.region.toNat

theorem empties_unplugAll (state : MemState) : Empties state.unplugAll where
  acknowledged := rfl
  clear := by simp [unplugAll]
  plugged := rfl

/-- The backed prefix is all that is released. -/
theorem Accounted.unplugAll_inside {state : MemState} (books : Accounted state) :
    ReleasesInside state state.unplugAll := by
  intro gpa bytes released
  have backed := books.available.1
  simp only [unplugAll] at released
  split at released
  · grind
  · cases released

/-- A block boundary of the range. -/
def Boundary (range : Range) (gpa : UInt64) : Prop :=
  range.addr.toNat ≤ gpa.toNat ∧ gpa.toNat < range.addr.toNat + range.region.toNat ∧
    gpa.toNat % blockSize.toNat = 0

theorem blockOf_eq_none_iff (state : MemState) (gpa : UInt64) :
    state.blockOf gpa = none ↔ ¬Boundary state.range gpa := by
  have fits := state.range.fits
  have remainder : (gpa % blockSize).toNat = gpa.toNat % blockSize.toNat := UInt64.toNat_mod ..
  simp only [blockOf, Boundary, ite_eq_left_iff, Bool.or_eq_true, decide_eq_true_eq,
    bne_iff_ne, ne_eq, UInt64.lt_iff_toNat_lt, ge_iff_le, UInt64.le_iff_toNat_le,
    UInt64.toNat_add, ← UInt64.toNat_inj, remainder, UInt64.toNat_zero, toNat_blockSize,
    reduceCtorEq, imp_false]
  omega

/-- The address of an `UNPLUG_ALL` means nothing, and is checked all the same: the
request empties the range exactly if its address is a block boundary of the range. It
never releases anything outside. -/
theorem unplugAll_empties_iff (range : Range) (requested : UInt64) (deferred : Bool)
    (acts : List Act)
    (legal : Transition.Legal Allowed step (start range requested deferred) acts)
    (now : UInt64) (request : Request) (kind : request.kind = .unplugAll) :
    let state := Transition.run step (start range requested deferred) acts
    let handled := state.handle now request
    (Empties handled ↔ Boundary state.range request.addr) ∧ ReleasesInside state handled := by
  intro state handled
  have accounted : Accounted state := accounted_run range requested deferred acts legal
  by_cases boundary : Boundary state.range request.addr
  · obtain ⟨first, found⟩ : ∃ first, state.blockOf request.addr = some first :=
      Option.ne_none_iff_exists'.mp fun none =>
        (blockOf_eq_none_iff state request.addr).mp none boundary
    have emptied : handled = state.unplugAll := by
      simp [handled, handle, found, kind]
    rw [emptied]
    exact ⟨iff_of_true (empties_unplugAll state) boundary, accounted.unplugAll_inside⟩
  · have refused : handled = answer state .error 0 := by
      simp [handled, handle, (blockOf_eq_none_iff state request.addr).mpr boundary]
    rw [refused]
    refine ⟨iff_of_false (fun empties => ?_) boundary, nofun⟩
    cases empties.acknowledged

namespace Held

/-- A request to plug the first of the two blocks, at 0x100, and a ring that offers it. -/
def offered : GuestMemory where
  regions := [⟨0, 0x1000⟩]
  bytes := fun place => ([(0x10b, 0x40), (0x110, 1), (0x201, 1), (0x208, 24), (0x302, 1)].lookup
    place).getD 0

def queue : Virtqueue :=
  { Virtqueue.new 2 with descAddr := 0x200, availAddr := 0x300, usedAddr := 0x400, ready := true }

/-- The guest plugs the block it is offered. -/
def acts : List Act := [.drain (fun memory _ => memory) 5 2 queue offered]

/-- `UNPLUG_ALL` as Linux sends it. -/
def zeroes : Request := ⟨.unplugAll, 0, 0⟩

theorem unplugAll_refused :
    let state := Transition.run step (start twoBlocks 134217728 false) acts
    state.blocks = [true, false] ∧ (state.handle 6 zeroes).response = .error ∧
      (state.handle 6 zeroes).state.blocks = [true, false] ∧
      (state.handle 6 zeroes).state.plugged = 134217728 := by decide +kernel

/-- With the address of the range in it the same request is answered. -/
theorem unplugAll_empties_iff_addressed :
    let state := Transition.run step (start twoBlocks 134217728 false) acts
    Empties (state.handle 6 ⟨.unplugAll, 1073741824, 0⟩) :=
  (unplugAll_empties_iff twoBlocks 134217728 false acts ⟨trivial, trivial⟩ 6
    ⟨.unplugAll, 1073741824, 0⟩ rfl).1.mpr ⟨by decide +kernel, by decide +kernel, by decide +kernel⟩

end Held
end Lighter.Virtio.Mem
