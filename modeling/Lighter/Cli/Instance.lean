import Mathlib.Algebra.Ring.Nat
import Mathlib.Data.List.Basic

/-!
# One machine home

The lock, the record and the sockets of a home, the processes that start a machine in it
and those that ask about it. A process is one generation of it, which is what an audit
token names; its PID can be used again once it is reaped. Each system call is one step, so
that any other process may come between two of them, and a process may exit at any.

A lock belongs to an open file description. It goes with the last descriptor of it, and a
process that has exited keeps its own until the kernel gets to them; a child that is being
spawned has a copy of every one until it executes its program. A file operation may fail
where its result is looked at. What a reader does with the control socket of a machine that
left no record is not here, nor are the versions in a record: neither touches the home.
-/

namespace Lighter.Cli

/-- A process generation, as an audit token names it. -/
abbrev Process := Nat

/-- The directory of a machine: where it is, and which one it is. -/
structure Home where
  path : String
  device : Nat
  inode : Nat
deriving DecidableEq, Repr

/-- What a machine writes about itself. -/
structure Identity where
  token : Process
  home : Home
deriving DecidableEq, Repr

/-- The files of a home besides `machine.lock`: `machine.identity`, the one it is staged in,
`lighter.pid`, `docker.sock` and `control.sock`. -/
inductive HomeFile where
  | identity
  | staging
  | pid
  | docker
  | control
deriving DecidableEq, Repr

inductive Content where
  | identity (identity : Identity)
  | number (pid : Nat)
  | socket
  /-- Anything else: what does not parse. -/
  | other
deriving DecidableEq, Repr

inductive Life where
  | unborn
  | running
  | exited
deriving DecidableEq, Repr

/-- Who has opened the lock file: `Instance::acquire`, or one that asks. -/
inductive Opener where
  | start (process : Process)
  | ask (process : Process)
deriving DecidableEq, Repr

def Opener.process : Opener → Process
  | .start process => process
  | .ask process => process

/-- An open file description of the lock file. -/
structure Description where
  opener : Opener
  /-- The descriptor it was opened with is still there. -/
  own : Bool
  /-- Copies in children that have not executed their program yet. -/
  inherited : Nat
deriving DecidableEq, Repr

/-- How far `publish` is. -/
inductive Stage where
  | staging
  | pid
  | rename
deriving DecidableEq, Repr

/-- Where a process is with its `Instance`. -/
inductive Start where
  | idle
  /-- In `acquire`, about to open the lock file. -/
  | opening
  | locking (description : Nat)
  /-- In `acquire`, with the lock, and stale files left to remove. -/
  | clearing (description : Nat) (files : List HomeFile)
  | owning (description : Nat) (published : Bool)
  | publishing (description : Nat) (published : Bool) (stage : Stage)
  /-- In `drop`, with files left to remove. -/
  | dropping (description : Nat) (files : List HomeFile)
  | unlocking (description : Nat)
  | closing (description : Nat)
deriving DecidableEq, Repr

/-- The description of the lock a process has, from `acquire` to the end of `drop`. -/
def Start.holds : Start → Option Nat
  | .clearing description _ | .owning description _ | .publishing description _ _
  | .dropping description _ | .unlocking description => some description
  | .idle | .opening | .locking _ | .closing _ => none

/-- What is asked: `Identity::read`, `Identity::exiting`, or `legacy_machine`. -/
inductive Question where
  | read
  | exiting
  | legacy
deriving DecidableEq, Repr

/-- What the lock is looked at for: whether a recorded process is alive (or is not), or
whether there is a machine without a record. -/
inductive Aim where
  | about (alive : Bool) (identity : Identity)
  | legacy
deriving DecidableEq, Repr

/-- Where a process is with what it asks. -/
inductive Asking where
  | idle
  /-- About to read the record, or the PID file. -/
  | recording (question : Question)
  /-- In the legacy check, about to see whether there is a record. -/
  | existing
  /-- In `locked`. -/
  | opening (aim : Aim)
  | locking (aim : Aim) (description : Nat)
  | closing (aim : Aim) (description : Nat) (taken : Bool)
  /-- In `alive`, about to ask for the path of the token's process. -/
  | path (alive : Bool) (identity : Identity)
  /-- In `alive`, about to ask whether the PID is a zombie's. -/
  | zombie (alive : Bool) (identity : Identity)
deriving DecidableEq, Repr

/-- What is so at a moment: which process owns the home, and whether it has exited. -/
structure Moment where
  owner : Option Process
  exited : Bool
deriving DecidableEq, Repr

structure Inquiry where
  asking : Asking
  /-- Every moment since the call was made. -/
  since : List Moment
deriving DecidableEq, Repr

/-- What a call came to, with what was so then. -/
inductive Outcome where
  /-- `acquire` has returned `None`. -/
  | refused (process : Process) (owner : Option Process)
  /-- `read` (or, if the process is not to be alive, `exiting`) has returned an identity. -/
  | told (alive : Bool) (identity : Identity) (since : List Moment)
  /-- A file of the home was removed or replaced. -/
  | touched (process : Process) (owner : Option Process)
deriving DecidableEq, Repr

/-- The home that all this is about, and the PID of each process. -/
structure Place where
  home : Home
  pid : Process → Nat

structure World where
  /-- `machine.lock` is there. -/
  lockFile : Bool
  files : HomeFile → Option Content
  life : Process → Life
  /-- The process that has a PID, until it is reaped. -/
  pids : Nat → Option Process
  starts : Process → Start
  asks : Process → Inquiry
  descriptions : Nat → Description
  /-- The number of the next description. -/
  next : Nat
  /-- The description that has the lock. -/
  lock : Option Nat
  outcomes : List Outcome

inductive Act where
  | born (process : Process)
  | exit (process : Process)
  | reap (process : Process)
  /-- The kernel closes a descriptor of a process that has exited. -/
  | teardown (description : Nat)
  /-- A child is spawned that has a copy of the descriptor, until it executes its program. -/
  | fork (description : Nat)
  | exec (description : Nat)
  | acquire (process : Process)
  | publish (process : Process)
  | drop (process : Process)
  /-- The owner binds a socket. -/
  | bind (process : Process) (file : HomeFile)
  /-- The next step of an `Instance`, which may fail. -/
  | go (process : Process) (fails : Bool)
  | ask (process : Process) (question : Question)
  /-- The next step of what is asked. A process that is there may have no path. -/
  | answer (process : Process) (pathless : Bool)
deriving DecidableEq

namespace World

/-- The process whose `acquire` took the lock that is held. One that asks is no owner. -/
def owner (world : World) : Option Process :=
  match world.lock with
  | none => none
  | some description =>
      match (world.descriptions description).opener with
      | .start process => some process
      | .ask _ => none

def moment (world : World) : Moment where
  owner := world.owner
  exited := world.owner.any fun process => world.life process = .exited

def setStart (world : World) (process : Process) (start : Start) : World :=
  { world with starts := Function.update world.starts process start }

def setAsking (world : World) (process : Process) (asking : Asking) : World :=
  { world with asks :=
      Function.update world.asks process { world.asks process with asking := asking } }

def note (world : World) (outcome : Outcome) : World :=
  { world with outcomes := world.outcomes ++ [outcome] }

/-- Writing, binding, renaming or removing a file. -/
def put (world : World) (process : Process) (file : HomeFile) (content : Option Content) : World :=
  { world with files := Function.update world.files file content }.note
    (.touched process world.owner)

/-- Opens the lock file. -/
def openLock (world : World) (opener : Opener) : World :=
  { world with
    next := world.next + 1
    descriptions := Function.update world.descriptions world.next ⟨opener, true, 0⟩ }

/-- A description may have lost its last descriptor, and the lock with it. -/
def release (world : World) (description : Nat) : World :=
  let left := world.descriptions description
  { world with lock :=
      if world.lock = some description ∧ left.own = false ∧ left.inherited = 0 then none
      else world.lock }

def setDescription (world : World) (description : Nat) (value : Description) : World :=
  { world with descriptions := Function.update world.descriptions description value }

def close (world : World) (description : Nat) : World :=
  (world.setDescription description
    { world.descriptions description with own := false }).release description

/-- `recorded`: the record in this home, if it was written for this home. -/
def recorded (place : Place) (world : World) : Option Identity :=
  match world.files .identity with
  | some (.identity identity) => if identity.home = place.home then some identity else none
  | _ => none

/-- The next step of an `Instance`. -/
def go (place : Place) (world : World) (process : Process) (fails : Bool) : World :=
  match world.starts process with
  | .idle | .owning _ _ => world
  | .opening =>
      ({ world with lockFile := true }.openLock (.start process)).setStart process
        (.locking world.next)
  | .locking description =>
      match world.lock with
      | some _ =>
          (world.note (.refused process world.owner)).setStart process (.closing description)
      | none =>
          { world with lock := some description }.setStart process
            (.clearing description [.identity, .pid])
  | .clearing description [] => world.setStart process (.owning description false)
  | .clearing description (file :: rest) =>
      if fails then world.setStart process (.closing description)
      else (world.put process file none).setStart process (.clearing description rest)
  | .publishing description published .staging =>
      if fails then
        (world.put process .staging (some .other)).setStart process (.owning description published)
      else
        (world.put process .staging (some (.identity ⟨process, place.home⟩))).setStart process
          (.publishing description published .pid)
  | .publishing description published .pid =>
      if fails then
        (world.put process .pid (some .other)).setStart process (.owning description published)
      else
        (world.put process .pid (some (.number (place.pid process)))).setStart process
          (.publishing description published .rename)
  | .publishing description published .rename =>
      if fails then world.setStart process (.owning description published)
      else
        ((world.put process .identity (world.files .staging)).put process .staging none).setStart
          process (.owning description true)
  | .dropping description [] => world.setStart process (.unlocking description)
  | .dropping description (file :: rest) =>
      -- Whether a file could be removed is not looked at here.
      (if fails then world else world.put process file none).setStart process
        (.dropping description rest)
  | .unlocking description =>
      { world with lock := if world.lock = some description then none else world.lock }.setStart
        process (.closing description)
  | .closing description => (world.close description).setStart process .idle

/-- `read` and `exiting` return the identity if its process is, or is not, alive. -/
def finish (world : World) (process : Process) (alive : Bool) (identity : Identity)
    (found : Bool) : World :=
  (if found = alive then world.note (.told alive identity (world.asks process).since)
    else world).setAsking process .idle

/-- What the kernel has under a PID is no running process. -/
def zombie (world : World) (pid : Nat) : Bool :=
  match world.pids pid with
  | some process => world.life process ≠ .running
  | none => true

/-- The next step of what is asked. -/
def answer (place : Place) (world : World) (process : Process) (pathless : Bool) : World :=
  match (world.asks process).asking with
  | .idle => world
  | .recording .legacy =>
      match world.files .pid with
      | some (.number pid) =>
          if pid = 0 ∨ pid > 2 ^ 31 - 1 then world.setAsking process .idle
          else world.setAsking process .existing
      | _ => world.setAsking process .idle
  | .recording .read =>
      match world.recorded place with
      | some identity => world.setAsking process (.opening (.about true identity))
      | none => world.setAsking process .idle
  | .recording .exiting =>
      match world.recorded place with
      | some identity => world.setAsking process (.opening (.about false identity))
      | none => world.setAsking process .idle
  | .existing =>
      if (world.files .identity).isSome then world.setAsking process .idle
      else world.setAsking process (.opening .legacy)
  | .opening aim =>
      if world.lockFile then
        (world.openLock (.ask process)).setAsking process (.locking aim world.next)
      else world.setAsking process .idle
  | .locking aim description =>
      match world.lock with
      | some _ => world.setAsking process (.closing aim description false)
      | none =>
          { world with lock := some description }.setAsking process (.closing aim description true)
  | .closing aim description taken =>
      let world := world.close description
      if taken then world.setAsking process .idle
      else
        match aim with
        | .about alive identity => world.setAsking process (.path alive identity)
        | .legacy => world.setAsking process .idle
  | .path alive identity =>
      if world.life identity.token = .running then
        if pathless then world.setAsking process (.zombie alive identity)
        else world.finish process alive identity true
      else if pathless ∧ world.pids (place.pid identity.token) = some identity.token then
        world.setAsking process (.zombie alive identity)
      else world.finish process alive identity false
  | .zombie alive identity =>
      world.finish process alive identity (!world.zombie (place.pid identity.token))

/-- What an action does. -/
def act (place : Place) (world : World) : Act → World
  | .born process =>
      if world.life process = .unborn ∧ world.pids (place.pid process) = none then
        { world with
          life := Function.update world.life process .running
          pids := Function.update world.pids (place.pid process) (some process) }
      else world
  | .exit process =>
      if world.life process = .running then
        { world with life := Function.update world.life process .exited }
      else world
  | .reap process =>
      if world.life process = .exited ∧ world.pids (place.pid process) = some process then
        { world with pids := Function.update world.pids (place.pid process) none }
      else world
  | .teardown description =>
      if world.life (world.descriptions description).opener.process = .exited then
        world.close description
      else world
  | .fork description =>
      let copied := world.descriptions description
      if copied.own ∧ world.life copied.opener.process = .running then
        world.setDescription description { copied with inherited := copied.inherited + 1 }
      else world
  | .exec description =>
      let copied := world.descriptions description
      (world.setDescription description { copied with inherited := copied.inherited - 1 }).release
        description
  | .acquire process =>
      if world.life process = .running ∧ world.starts process = .idle then
        world.setStart process .opening
      else world
  | .publish process =>
      match world.starts process with
      | .owning description published =>
          if world.life process = .running then
            world.setStart process (.publishing description published .staging)
          else world
      | _ => world
  | .drop process =>
      match world.starts process with
      | .owning description published =>
          if world.life process = .running then
            world.setStart process
              (if published then .dropping description [.identity, .pid, .docker, .control]
                else .unlocking description)
          else world
      | _ => world
  | .bind process file =>
      match world.starts process with
      | .owning _ _ =>
          if world.life process = .running ∧ (file = .docker ∨ file = .control) then
            world.put process file (some .socket)
          else world
      | _ => world
  | .go process fails =>
      if world.life process = .running then world.go place process fails else world
  | .ask process question =>
      if world.life process = .running ∧ (world.asks process).asking = .idle then
        { world with asks := Function.update world.asks process ⟨.recording question, []⟩ }
      else world
  | .answer process pathless =>
      if world.life process = .running then world.answer place process pathless else world

/-- The moment becomes one of those every call has lasted through. -/
def witness (world : World) : World :=
  { world with asks := fun process =>
      { world.asks process with since := (world.asks process).since ++ [world.moment] } }

def step (place : Place) (world : World) (act : Act) : World := (world.act place act).witness

/-- A home that no process has been in, with any files. -/
def start (lockFile : Bool) (files : HomeFile → Option Content) : World where
  lockFile := lockFile
  files := files
  life := fun _ => .unborn
  pids := fun _ => none
  starts := fun _ => .idle
  asks := fun _ => ⟨.idle, []⟩
  descriptions := fun _ => ⟨.ask 0, false, 0⟩
  next := 0
  lock := none
  outcomes := []

end World
end Lighter.Cli
