import Mathlib.Data.Finset.Max

/-!
# The apply queue

The queue that lets a change be acknowledged before it has happened. Each job names the
inodes it touches, and two jobs that share one are applied in the order they were
queued; jobs that share nothing run side by side, in three lanes.

The state behind the queue's lock, and what each locked section does to it. Tables are
functions; a table of queues has no entry where its queue is empty, as the code removes
such entries. The job itself is its kind, its keys and its payload: what it does to the
host is not modelled here. Retirement, the histogram of kinds, the free-space figure and
the counters of the acknowledgement path are left out.
-/

namespace Lighter.Fs.Apply

/-- The inodes a job touches: one to four, none of them zero. -/
structure Keys where
  list : List Nat
  nonempty : list ≠ []
  few : list.length ≤ 4
  distinct : list.Nodup
  named : 0 ∉ list
deriving DecidableEq

/-- The first key named: the parent directory for a create, the file for a write. -/
def Keys.first (keys : Keys) : Nat := keys.list.head keys.nonempty

inductive Kind where
  | create
  | write
  | unlink
  | rename
  | clone
  | setattr
  | link
  | mkdir
  | symlink
  | rmdir
deriving DecidableEq, Repr

inductive Lane where
  /-- One at a time. -/
  | serial
  /-- As wide as the workers. -/
  | wide
  /-- Wide up to the width of creates. -/
  | bounded
deriving DecidableEq, Repr

/-- The settings of a queue. -/
structure Config where
  /-- Whether creates and writes have a lane of their own. -/
  wide : Bool
  /-- Whether that lane runs at most one job of a directory at a time. -/
  dirAffinity : Bool
  createWidth : Nat
  bytesCap : Nat
  window : Nat
  positive : 0 < createWidth

def Kind.lane (config : Config) : Kind → Lane
  | .clone => .wide
  | .unlink => .wide
  | .rmdir => .wide
  | .create => if config.wide then .bounded else .serial
  | .write => if config.wide then .bounded else .serial
  | .mkdir => if config.wide then .bounded else .serial
  | .symlink => if config.wide then .bounded else .serial
  | .rename => .serial
  | .setattr => .serial
  | .link => .serial

structure Job where
  kind : Kind
  keys : Keys
  /-- Payload held in memory until applied. -/
  bytes : Nat
deriving DecidableEq

/-- The bounded lane: ready jobs by lane key, each key's oldest first, and the keys that
have a ready job and nothing running. -/
structure Bounded where
  byKey : Nat → List Nat
  readyKeys : List Nat
  running : Nat → Bool
  /-- Jobs of the lane running now. -/
  count : Nat

namespace Bounded

def default : Bounded := ⟨fun _ => [], [], fun _ => false, 0⟩

/-- The key a job of this lane is queued under: its directory, or itself. -/
def keyOf (config : Config) (keys : Keys) (seq : Nat) : Nat :=
  if config.dirAffinity then keys.first else seq

def offer (bounded : Bounded) (key seq : Nat) : Bounded :=
  let queue := bounded.byKey key ++ [seq]
  { bounded with
    byKey := Function.update bounded.byKey key queue
    readyKeys :=
      if queue.length = 1 && !bounded.running key then bounded.readyKeys ++ [key]
      else bounded.readyKeys }

def pick (bounded : Bounded) : Option (Bounded × Nat) :=
  match bounded.readyKeys with
  | [] => none
  | key :: keys =>
      match bounded.byKey key with
      | [] => none
      | seq :: queue =>
          some ({ bounded with
            byKey := Function.update bounded.byKey key queue
            readyKeys := keys
            running := Function.update bounded.running key true
            count := bounded.count + 1 }, seq)

def finished (bounded : Bounded) (key : Nat) : Bounded :=
  { bounded with
    running := Function.update bounded.running key false
    count := bounded.count - 1
    readyKeys :=
      if bounded.byKey key ≠ [] then bounded.readyKeys ++ [key] else bounded.readyKeys }

end Bounded

/-- A job the queue holds: waiting on predecessors, ready, or running. -/
structure Slot where
  /-- Taken by the worker that runs it. -/
  job : Option Job
  /-- Predecessors not yet applied. -/
  waiting : Nat
  /-- Jobs waiting on this one. -/
  successors : List Nat
  laneKey : Nat

structure State where
  /-- Nothing is picked while held. -/
  held : Bool
  /-- Whether a job of the serial lane is running. -/
  serialRunning : Bool
  bounded : Bounded
  slots : Nat → Option Slot
  ready : List Nat
  readyClones : List Nat
  /-- The most recent job queued on each key, while it is still held. -/
  tails : Nat → Option Nat
  /-- Numbers queued and not yet applied. -/
  incomplete : Finset Nat

namespace State

def start : State where
  held := false
  serialRunning := false
  bounded := Bounded.default
  slots := fun _ => none
  ready := []
  readyClones := []
  tails := fun _ => none
  incomplete := ∅

/-- A job that waits for nothing goes to its lane. -/
def offer (state : State) (lane : Lane) (laneKey seq : Nat) : State :=
  match lane with
  | .serial => { state with ready := state.ready ++ [seq] }
  | .wide => { state with readyClones := state.readyClones ++ [seq] }
  | .bounded => { state with bounded := state.bounded.offer laneKey seq }

section

variable (state : State) (lane : Lane) (laneKey seq : Nat)
include state lane laneKey seq

@[simp] theorem offer_slots :
    (state.offer lane laneKey seq).slots = state.slots := by cases lane <;> rfl

@[simp] theorem offer_tails :
    (state.offer lane laneKey seq).tails = state.tails := by cases lane <;> rfl

@[simp] theorem offer_incomplete :
    (state.offer lane laneKey seq).incomplete = state.incomplete := by cases lane <;> rfl

@[simp] theorem offer_held :
    (state.offer lane laneKey seq).held = state.held := by cases lane <;> rfl

end

/-- The slots with a job behind one of the others. -/
def follow (slots : Nat → Option Slot) (prev seq : Nat) : Nat → Option Slot :=
  Function.update slots prev
    ((slots prev).map fun slot => { slot with successors := slot.successors ++ [seq] })

/-- One turn of the loop over a new job's keys: the job goes behind the most recent one on
the key, once. -/
def link (tails : Nat → Option Nat) (seq : Nat) (linked : (Nat → Option Slot) × List Nat)
    (key : Nat) : (Nat → Option Slot) × List Nat :=
  match tails key with
  | none => linked
  | some prev =>
      if prev ∈ linked.2 then linked
      else (follow linked.1 prev seq, linked.2 ++ [prev])

/-- The part of `push` that queues a job under its number. -/
def enqueue (config : Config) (state : State) (seq : Nat) (job : Job) : State :=
  let linked := job.keys.list.foldl (link state.tails seq) (state.slots, [])
  let waiting := linked.2.length
  let laneKey := Bounded.keyOf config job.keys seq
  let state := { state with
    tails := job.keys.list.foldl (fun tails key => Function.update tails key (some seq)) state.tails
    incomplete := insert seq state.incomplete
    slots := Function.update linked.1 seq (some ⟨some job, waiting, [], laneKey⟩) }
  if waiting = 0 then state.offer (job.kind.lane config) laneKey seq else state

/-- What a worker that looks for work is given: the oldest job of the serial lane when
nothing in it is running, else one of the bounded lane within its width, else the oldest
clone. -/
def pick (config : Config) (state : State) : Option (State × Nat) :=
  if !state.serialRunning && !state.ready.isEmpty then
    match state.ready with
    | [] => none
    | seq :: rest => some ({ state with ready := rest }, seq)
  else if state.bounded.count < config.createWidth && !state.bounded.readyKeys.isEmpty then
    state.bounded.pick.map fun picked => ({ state with bounded := picked.1 }, picked.2)
  else
    match state.readyClones with
    | [] => none
    | seq :: rest => some ({ state with readyClones := rest }, seq)

/-- The job of a number is taken out of its slot. -/
def take (config : Config) (state : State) (seq : Nat) : Option (State × Job) :=
  match state.slots seq with
  | none => none
  | some slot =>
      match slot.job with
      | none => none
      | some job =>
          some ({ state with
            slots := Function.update state.slots seq (some { slot with job := none })
            serialRunning :=
              if job.kind.lane config = .serial then true else state.serialRunning }, job)

/-- One turn of the loop over a finished job's successors: one wait less, and at none the
job is ready. The count is of those other workers are woken for. -/
def settle (config : Config) (settled : State × Nat) (next : Nat) : State × Nat :=
  match settled.1.slots next with
  | none => settled
  | some slot =>
      let waiting := slot.waiting - 1
      let state := { settled.1 with
        slots := Function.update settled.1.slots next (some { slot with waiting := waiting }) }
      if waiting = 0 then
        let lane := (slot.job.map fun job => job.kind.lane config).getD .serial
        (state.offer lane slot.laneKey next, if lane = .serial then settled.2 else settled.2 + 1)
      else (state, settled.2)

/-- The lane of a finished job is told. -/
def leave (state : State) (lane : Lane) (laneKey : Nat) : State :=
  match lane with
  | .serial => { state with serialRunning := false }
  | .bounded => { state with bounded := state.bounded.finished laneKey }
  | .wide => state

section

variable (state : State) (lane : Lane) (laneKey : Nat)
include state lane laneKey

@[simp] theorem leave_slots :
    (state.leave lane laneKey).slots = state.slots := by cases lane <;> rfl

@[simp] theorem leave_tails :
    (state.leave lane laneKey).tails = state.tails := by cases lane <;> rfl

@[simp] theorem leave_incomplete :
    (state.leave lane laneKey).incomplete = state.incomplete := by cases lane <;> rfl

@[simp] theorem leave_held : (state.leave lane laneKey).held = state.held := by cases lane <;> rfl

end

/-- A key that still points to a finished job has no later job on it. -/
def untail (seq : Nat) (tails : Nat → Option Nat) (key : Nat) : Nat → Option Nat :=
  if tails key = some seq then Function.update tails key none else tails

/-- The part of a completion that changes the queue, and how many jobs it made ready that
another worker could take. -/
def complete (config : Config) (state : State) (seq : Nat) (job : Job) : State × Nat :=
  match state.slots seq with
  | none => (state, 0)
  | some slot =>
      let state := { state with slots := Function.update state.slots seq none }
      let state := state.leave (job.kind.lane config) slot.laneKey
      let settled := slot.successors.foldl (settle config) (state, 0)
      ({ settled.1 with
        tails := job.keys.list.foldl (untail seq) settled.1.tails
        incomplete := settled.1.incomplete.erase seq }, settled.2)

/-- The number below the oldest job outstanding, or the last one given. -/
def watermark (state : State) (pushed : Nat) : Nat :=
  match state.incomplete.min with
  | none => pushed
  | some oldest => oldest - 1

end State
end Lighter.Fs.Apply
