import Lighter.Virtio.MemAccounting

/-!
# The last offer of memory

A caller of `MemControl::request` reads the offer, then the prefix that is backed, and gives up
if what it is to offer is the smaller of the two. It has the transport's lock only while it
stores its offer and tells the guest. The prefix may hide an offer that differs from the one
asked for, so giving up is right only if the offer stored is the same.
-/

namespace Lighter.Virtio.Mem.Offers

/-- Where a caller is. -/
inductive Caller where
  | idle
  | reading (bytes requested : UInt64)
  | offering (bytes before : UInt64)

structure World where
  state : MemState
  callers : Nat → Caller
  /-- How often the guest was told that the configuration changed. -/
  notices : Nat
  /-- What was last asked for, in whole blocks of the range. -/
  last : UInt64

inductive Act where
  | call (caller : Nat) (bytes : UInt64)
  | look (caller : Nat)
  | offer (caller : Nat) (now : UInt64)
  | ready (bytes : UInt64)

def capped (state : MemState) (bytes : UInt64) : UInt64 := round (min bytes state.range.region)

namespace World

def setCaller (world : World) (caller : Nat) (phase : Caller) : World :=
  { world with callers := Function.update world.callers caller phase }

/-- A call gives up at its look or stores at its offer, and is then the last. What
`backing_ready` asserts holds, or the program stops. -/
def step (world : World) : Act → World
  | .call caller bytes =>
      match world.callers caller with
      | .idle => world.setCaller caller (.reading bytes world.state.requested)
      | _ => world
  | .look caller =>
      match world.callers caller with
      | .reading bytes requested =>
          let before := min requested world.state.available
          if capped world.state bytes = before then
            { world.setCaller caller .idle with last := capped world.state bytes }
          else world.setCaller caller (.offering bytes before)
      | _ => world
  | .offer caller now =>
      match world.callers caller with
      | .offering bytes before =>
          let state := { world.state.setRequestedBytes bytes with changedAt := now }
          { world.setCaller caller .idle with
            state := if state.requested > before then { state with grownAt := now } else state
            notices := world.notices + 1
            last := capped world.state bytes }
      | _ => world
  | .ready bytes =>
      if bytes ≤ world.state.range.region ∧ bytes % blockSize = 0 ∧
          world.state.available ≤ bytes then
        { world with state := world.state.backingReady bytes, notices := world.notices + 1 }
      else world

/-- The range as it is set up; what it is set up with is the first offer. -/
def start (range : Range) (requested : UInt64) (deferred : Bool) : World where
  state := Mem.start range requested deferred
  callers := fun _ => .idle
  notices := 0
  last := round (min requested range.region)

/-- A call that gives up has its offer stored. -/
def Stored (world : World) : Act → Prop
  | .look caller => ∀ bytes requested, world.callers caller = .reading bytes requested →
      capped world.state bytes = min requested world.state.available →
        world.state.requested = capped world.state bytes
  | _ => True

/-- Only an offer and a longer prefix change anything the guest reads, and it is told so. -/
theorem told_or_same (world : World) (act : Act) :
    (world.step act).notices = world.notices + 1 ∨ (world.step act).state = world.state := by
  unfold step
  cases act with
  | call caller bytes =>
    dsimp only
    split <;> exact Or.inr rfl
  | look caller =>
    dsimp only
    split
    · split <;> exact Or.inr rfl
    · exact Or.inr rfl
  | offer caller now | ready bytes =>
    dsimp only
    split
    · exact Or.inl rfl
    · exact Or.inr rfl

theorem step_last (world : World) (act : Act) (stored : world.Stored act)
    (same : world.state.requested = world.last) :
    (world.step act).state.requested = (world.step act).last := by
  cases act with
  | call caller bytes | ready bytes =>
    unfold step
    dsimp only
    split <;> exact same
  | look caller =>
    unfold step
    dsimp only
    split
    · rename_i bytes requested reading
      split
      · rename_i skipped
        exact stored bytes requested reading skipped
      · exact same
    · exact same
  | offer caller now =>
    unfold step
    dsimp only
    split
    · split <;> rfl
    · exact same

/-- If every call that gives up has its offer stored, the guest is told the last offer as far as
the prefix reaches; and whatever changes what it is told tells it so. -/
theorem last_offer_wins (range : Range) (requested : UInt64) (deferred : Bool) (acts : List Act)
    (stored : Transition.Legal Stored step (start range requested deferred) acts) :
    let world := Transition.run step (start range requested deferred) acts
    world.state.requestedBytes = min world.last world.state.available ∧
      ∀ act, (world.step act).state.requestedBytes ≠ world.state.requestedBytes →
        (world.step act).notices = world.notices + 1 := by
  intro world
  have first : (start range requested deferred).state.requested =
      (start range requested deferred).last := by
    cases deferred <;> rfl
  have same : world.state.requested = world.last :=
    Transition.run_invariant Stored step (fun world => world.state.requested = world.last)
      (fun world act same allowed => step_last world act allowed same) _ acts first stored
  refine ⟨by rw [MemState.requestedBytes, same], fun act changed => ?_⟩
  rcases told_or_same world act with told | unchanged
  · exact told
  · exact absurd (congrArg MemState.requestedBytes unchanged) changed

def growing : List Act :=
  [.ready 134217728, .call 0 134217728, .look 0, .offer 0 0, .ready 268435456]

theorem last_offer_wins_one :
    (Transition.run step (start twoBlocks 0 true) growing).state.requestedBytes = 134217728 := by
  refine (last_offer_wins twoBlocks 0 true growing
    ⟨trivial, trivial, ?_, trivial, trivial, trivial⟩).1
  rintro bytes requested ⟨⟩ skipped
  exact absurd skipped (by decide)

/-- Two blocks are on offer and one is backed. One block is asked for, which is what the guest is
told already; when the second is backed, it is told two. -/
theorem hidden_offer_returns :
    let world := Transition.run step (start twoBlocks 268435456 true) growing
    world.last = 134217728 ∧ world.state.available = 268435456 ∧
      world.state.requestedBytes = 268435456 := by
  decide +kernel

end World
end Lighter.Virtio.Mem.Offers
