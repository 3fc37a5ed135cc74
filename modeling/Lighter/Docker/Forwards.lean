import Lighter.Lib.Transition
import Mathlib.Data.List.Dedup
import Mathlib.Data.List.Sort
import Mathlib.Algebra.Ring.Nat

/-!
# Port forwards

What the Mac forwards to the guest, brought to what Docker publishes, a port at a time. A
port published on several addresses is forwarded on all of them or on none.

The mapper opens and closes one forward a request and may refuse any of them. What it
answers to each request of a run is given; a set is walked in an order that is given too.
How an address is written is a parameter, and the lines of the log are left out.
-/

namespace Lighter.Docker

inductive Proto where
  | tcp
  | udp
deriving DecidableEq, Repr

inductive IpAddr where
  | v4 (bits : BitVec 32)
  | v6 (bits : BitVec 128)
deriving DecidableEq, Repr

/-- One binding Docker has published. -/
structure Published where
  addr : IpAddr
  port : UInt16
  proto : Proto
deriving DecidableEq, Repr

/-- A port, whatever the addresses it is published on. -/
abbrev Key := Proto × UInt16

def Published.key (published : Published) : Key := (published.proto, published.port)

/-- An address by its place in the order of addresses. -/
def IpAddr.rank : IpAddr → Nat
  | .v4 bits => bits.toNat
  | .v6 bits => 2 ^ 32 + bits.toNat

def Proto.rank : Proto → Nat
  | .tcp => 0
  | .udp => 1

/-- A binding by its place: its address first, then its port, then its protocol. -/
def Published.rank (published : Published) : Nat :=
  (published.addr.rank * 2 ^ 16 + published.port.toNat) * 2 + published.proto.rank

/-- A port by its place: its protocol first. -/
def Key.rank (key : Key) : Nat := key.1.rank * 2 ^ 16 + key.2.toNat

/-- A published port that could not be forwarded, and why. -/
structure Unforwarded where
  proto : Proto
  port : UInt16
  addrs : List IpAddr
  reason : String
deriving DecidableEq, Repr

/-- What is forwarded, and what could not be. -/
structure Forwards where
  forwarded : List Published
  failed : Key → Option Unforwarded
  distinct : forwarded.Nodup

namespace Forwards

def start : Forwards := ⟨[], fun _ => none, List.nodup_nil⟩

def insert (forwards : Forwards) (published : Published) : Forwards where
  forwarded := forwards.forwarded.insert published
  failed := forwards.failed
  distinct := forwards.distinct.insert

def remove (forwards : Forwards) (published : Published) : Forwards where
  forwarded := forwards.forwarded.filter (· ≠ published)
  failed := forwards.failed
  distinct := forwards.distinct.filter _

def setFailed (forwards : Forwards) (failed : Key → Option Unforwarded) : Forwards :=
  { forwards with failed := failed }

@[simp] theorem mem_insert {forwards : Forwards} {published other : Published} :
    other ∈ (forwards.insert published).forwarded ↔
      other = published ∨ other ∈ forwards.forwarded := List.mem_insert_iff

@[simp] theorem mem_remove {forwards : Forwards} {published other : Published} :
    other ∈ (forwards.remove published).forwarded ↔
      other ∈ forwards.forwarded ∧ other ≠ published := by
  simp [remove]

variable (forwards : Forwards) (failed : Key → Option Unforwarded)

@[simp] theorem setFailed_forwarded :
    (forwards.setFailed failed).forwarded = forwards.forwarded := rfl

@[simp] theorem setFailed_failed : (forwards.setFailed failed).failed = failed := rfl

end Forwards

inductive Request where
  | expose (published : Published)
  | unexpose (published : Published)
deriving DecidableEq, Repr

def Request.published : Request → Published
  | .expose published => published
  | .unexpose published => published

/-- The mapper: the forwards it holds open, and what it was asked and answered. -/
structure Mapper where
  isOpen : Published → Bool
  log : List (Request × Except String Unit)

/-- What a run does not decide: the mapper's answer to each of its requests in turn, and how
an address and a port are written. -/
structure Host where
  answer : Nat → Except String Unit
  socketAddr : IpAddr → UInt16 → String

namespace Mapper

def start : Mapper := ⟨fun _ => false, []⟩

/-- A refused request changes nothing, an accepted one exactly its forward. -/
def ask (host : Host) (mapper : Mapper) (request : Request) (value : Bool) :
    Except String Unit × Mapper :=
  let answer := host.answer mapper.log.length
  (answer, {
    isOpen := match answer with
      | .ok _ => Function.update mapper.isOpen request.published value
      | .error _ => mapper.isOpen
    log := mapper.log ++ [(request, answer)] })

def expose (host : Host) (mapper : Mapper) (published : Published) : Except String Unit × Mapper :=
  mapper.ask host (.expose published) true

def unexpose (host : Host) (mapper : Mapper) (published : Published) :
    Except String Unit × Mapper :=
  mapper.ask host (.unexpose published) false

end Mapper

def Published.display (host : Host) (published : Published) : String :=
  (match published.proto with
    | .tcp => "tcp"
    | .udp => "udp") ++ " " ++ host.socketAddr published.addr published.port

structure State where
  forwards : Forwards
  mapper : Mapper

def State.start : State := ⟨Forwards.start, Mapper.start⟩

/-- A call to `apply`: the bindings asked for, and the order in which sets are walked. -/
structure Call where
  desired : List Published
  walk : List Published → List Published
  distinct : desired.Nodup
  walks : ∀ list, (walk list).Perm list

/-- One turn of the loop over what is not asked for any more. -/
def withdraw (host : Host) (state : State) (gone : Published) : State :=
  match state.mapper.unexpose host gone with
  | (.ok _, mapper) => ⟨state.forwards.remove gone, mapper⟩
  | (.error _, mapper) => ⟨state.forwards, mapper⟩

/-- What is asked for, by port. -/
def portsOf (desired : List Published) : List (Key × List Published) :=
  ((desired.map Published.key).dedup.insertionSort fun first second =>
    Key.rank first ≤ Key.rank second).map fun key => (key, desired.filter (·.key = key))

/-- The loop that opens what is missing, up to the first refusal. -/
def exposeAll (host : Host) : Mapper → List Published → List Published × Option String × Mapper
  | mapper, [] => ([], none, mapper)
  | mapper, published :: rest =>
      match mapper.expose host published with
      | (.ok _, mapper) =>
          let (opened, refused, mapper) := exposeAll host mapper rest
          (published :: opened, refused, mapper)
      | (.error text, mapper) => ([], some (published.display host ++ ": " ++ text), mapper)

/-- One turn of the loop that closes a port again. What the mapper answers is not looked at. -/
def rollBack (host : Host) (state : State) (published : Published) : State :=
  ⟨state.forwards.remove published, (state.mapper.unexpose host published).2⟩

/-- One turn of the loop over the ports asked for. -/
def openPort (host : Host) (state : State) (port : Key × List Published) : State :=
  let key := port.1
  let members := port.2.insertionSort fun first second => first.rank ≤ second.rank
  let missing := members.filter (· ∉ state.forwards.forwarded)
  if missing.isEmpty then state
  else
    match exposeAll host state.mapper missing with
    | (opened, none, mapper) =>
        let forwards := opened.foldl Forwards.insert state.forwards
        ⟨forwards.setFailed (Function.update forwards.failed key none), mapper⟩
    | (opened, some reason, mapper) =>
        let opens := members.filter (· ∈ state.forwards.forwarded) ++ opened
        let state := opens.foldl (rollBack host) ⟨state.forwards, mapper⟩
        let failure : Unforwarded := ⟨key.1, key.2, members.map (·.addr), reason⟩
        ⟨state.forwards.setFailed (Function.update state.forwards.failed key (some failure)),
          state.mapper⟩

/-- Only failures of ports that are still asked for are kept. -/
def retain (state : State) (ports : List (Key × List Published)) : State :=
  ⟨state.forwards.setFailed fun key =>
    if key ∈ ports.map (·.1) then state.forwards.failed key else none, state.mapper⟩

/-- Brings the forwards to what is asked for. -/
def apply (host : Host) (state : State) (call : Call) : State :=
  let gone := call.walk (state.forwards.forwarded.filter (· ∉ call.desired))
  let state := gone.foldl (withdraw host) state
  let ports := portsOf call.desired
  ports.foldl (openPort host) (retain state ports)

end Lighter.Docker
