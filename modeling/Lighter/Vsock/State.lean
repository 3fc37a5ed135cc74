import Lighter.Lib.Memory
import Lighter.Lib.Table
import Lighter.Vsock.Credit
import Lighter.Vsock.Outbox

/-!
# The state the device and the host threads share

Everything a vsock packet or a host thread can change lives under one lock, so
each operation is one function on this state. Clock readings are arguments and
times are nanoseconds. Condition variables, sockets, wakers and the pool of
spare buffers carry no information an operation reads and are left out; a spare
buffer is always cleared before it is filled.

A connection's identifier is a counter that never repeats during the device's
life; it is unbounded here where the program uses 64 bits.
-/

namespace Lighter.Vsock

open Packet Fixed

/-- The transmit ring's shares: no connection holds more than a quarter of it,
and the last quarter is never held at all. -/
def txShareDivisor : Nat := 4
def txReserveDivisor : Nat := 4

/-- Where host-side ephemeral ports start. -/
def firstEphemeralPort : UInt32 := 1073741824

def seconds (count : Nat) : Nat := count * 1000000000

def closeTimeout : Nat := seconds 8
def connectTimeout : Nat := seconds 30
def stallAfter : Nat := seconds 2
def idleAfter : Nat := seconds 10
def watchdog : Nat := seconds 5

/-- How many touched connections are kept before they are folded into one. -/
def touchedMax : Nat := 4096

inductive State where
  | connecting
  | established
  | closed
deriving DecidableEq, Repr

/-- Bytes on their way from the guest to the host socket: owned by the host, or
still in the guest's buffers, with the chain to return once they are written. -/
inductive Chunk where
  | owned (bytes : List UInt8)
  | guest (head : UInt16) (spans : List (Nat × Nat))
deriving DecidableEq, Repr

namespace Chunk

def len : Chunk → Nat
  | owned bytes => bytes.length
  | guest _ spans => (spans.map Prod.snd).sum

/-- The chain a chunk holds, if it holds one. -/
def heads : Chunk → List UInt16
  | owned _ => []
  | guest head _ => [head]

/-- A chunk as a reader copies it out: an unreadable span stays zeroed, and
without memory a guest chunk yields nothing. -/
def bytes (memory : Option GuestMemory) : Chunk → List UInt8
  | owned bytes => bytes
  | guest _ spans =>
      match memory with
      | none => []
      | some memory =>
          spans.flatMap fun span =>
            (memory.read span.1 span.2).getD (List.replicate span.2 0)

end Chunk

/-- The chains a list of chunks holds, in order. -/
def heads (chunks : List Chunk) : List UInt16 := chunks.flatMap Chunk.heads

structure Conn where
  guestPort : UInt32
  state : State
  credit : Credit
  /-- Guest data waiting to be written to the host socket. -/
  outbound : List Chunk
  /-- The guest will send nothing further. -/
  guestDone : Bool
  /-- The guest accepts no more host bytes. -/
  guestReceiveClosed : Bool
  /-- Bytes consumed since the guest was last told. -/
  unreported : UInt32
  /-- Payload bytes taken from the guest. -/
  received : UInt32
  /-- Transmit chains held: queued here or in a writer's hands. -/
  held : Nat
  id : Nat
  window : UInt32
  since : Nat
  drained : Nat
  label : Option String
deriving DecidableEq, Repr

namespace Conn

def new (guestPort : UInt32) (state : State) (window : UInt32) (id now : Nat) : Conn where
  guestPort := guestPort
  state := state
  credit := Credit.new
  outbound := []
  guestDone := false
  guestReceiveClosed := false
  unreported := 0
  received := 0
  held := 0
  id := id
  window := window
  since := now
  drained := now
  label := none

/-- Bytes taken from the guest and not yet on the host socket. -/
def buffered (conn : Conn) : UInt32 := conn.received - conn.credit.fwdCnt

end Conn

/-- A listener's channel: whether its receiver is still there, and the
connections sent to it. -/
structure Listener where
  receiving : Bool
  accepted : List ConnKey
deriving DecidableEq, Repr

/-- What the warden has done since boot. -/
structure WardenCounts where
  closedExpired : Nat
  connectExpired : Nat
  stalled : Nat
  resets : Nat
  recent : List String
deriving DecidableEq, Repr

/-- The last eight notes are kept. -/
def WardenCounts.note (counts : WardenCounts) (what : String) : WardenCounts :=
  { counts with
    recent := (if counts.recent.length = 8 then counts.recent.drop 1 else counts.recent) ++
      [what] }

structure Inner where
  conns : Table ConnKey Conn
  outbox : Outbox
  nextPort : UInt32
  /-- Chains whose bytes are on a socket, waiting to go back. -/
  done : List UInt16
  /-- Chains taken from the transmit ring and still held. -/
  held : Nat
  /-- Which connection holds each held chain. -/
  holders : Table UInt16 (ConnKey × Nat)
  nextId : Nat
  touched : List ConnKey
  touchedAll : Bool
  txRing : Nat
  budget : Budget
  listeners : Table UInt32 Listener
  warden : WardenCounts
  lastReturn : Nat
  ringFullSince : Option Nat

namespace Inner

/-- A fresh device. -/
def new (now : Nat) : Inner where
  conns := ∅
  outbox := Outbox.empty
  nextPort := firstEphemeralPort
  done := []
  held := 0
  holders := ∅
  nextId := 0
  touched := []
  touchedAll := false
  txRing := 256
  budget := Budget.default
  listeners := ∅
  warden := ⟨0, 0, 0, 0, []⟩
  lastReturn := now
  ringFullSince := none

/-- The most chains held at once, and the most for any one connection. -/
def txLimits (inner : Inner) : Nat × Nat :=
  let ring := max inner.txRing txShareDivisor
  (ring - ring / txReserveDivisor, ring / txShareDivisor)

/-- Records that a connection changed; past the bound, that all of them did. -/
def touch (inner : Inner) (key : ConnKey) : Inner :=
  if inner.touchedAll then inner
  else if inner.touched.length ≥ touchedMax then
    { inner with touched := [], touchedAll := true }
  else { inner with touched := inner.touched.insert key }

/-- Changes a connection where it stands, if it is there. -/
def modify (inner : Inner) (key : ConnKey) (change : Conn → Conn) : Inner :=
  match inner.conns.lookup key with
  | none => inner
  | some conn => { inner with conns := inner.conns.insert key (change conn) }

def queue (inner : Inner) (packet : Packet) : Inner :=
  { inner with outbox := inner.outbox.pushBack packet }

/-- Chunks nobody will write: their chains go back to the guest. -/
def discard (inner : Inner) (chunks : List Chunk) : Inner :=
  { inner with done := inner.done ++ heads chunks }

/-- Returns a connection's window and its queued chains. Chains in a writer's
hands stay there until the writer completes them. -/
def retire (inner : Inner) (conn : Conn) : Inner :=
  { inner with budget := inner.budget.close conn.window }.discard conn.outbound

/-- Removes a connection, and says whether it was there. -/
def remove (inner : Inner) (key : ConnKey) : Inner × Bool :=
  let inner := inner.touch key
  match inner.conns.lookup key with
  | some conn => ({ inner with conns := inner.conns.erase key }.retire conn, true)
  | none => (inner, false)

/-- A finished chain, counted back against the ring and its connection. -/
def giveBack (now : Nat) (inner : Inner) (head : UInt16) : Inner :=
  let inner := { inner with held := inner.held - 1, lastReturn := now }
  match inner.holders.lookup head with
  | none => inner
  | some (key, id) =>
      let inner := { inner with holders := inner.holders.erase head }
      match inner.conns.lookup key with
      | none => inner
      | some conn =>
          if conn.id = id then
            { inner with conns := inner.conns.insert key { conn with held := conn.held - 1 } }
          else inner

/-- The chains writers have finished with, for the transport to return. -/
def finishDone (inner : Inner) (now : Nat) : Inner × List UInt16 :=
  (inner.done.foldl (giveBack now) { inner with done := [] }, inner.done)

/-- Puts a new connection in the table; one it replaces is retired. -/
def insert (inner : Inner) (key : ConnKey) (guestPort : UInt32) (state : State)
    (now : Nat) : Inner × Conn :=
  let id := inner.nextId + 1
  let conn := Conn.new guestPort state Budget.opened id now
  let old := inner.conns.lookup key
  let inner := { inner with nextId := id, conns := inner.conns.insert key conn }
  match old with
  | some old => ((inner.touch key).retire old, conn)
  | none => (inner, conn)

end Inner
end Lighter.Vsock
