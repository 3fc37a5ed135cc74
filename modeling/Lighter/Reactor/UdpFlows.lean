import Lighter.Docker.Forwards
import Lighter.Reactor.Framed
import Lighter.Reactor.FrameReader

/-!
# Published UDP ports

A client of a published port is a flow on the one stream to the guest's agent. The reactor
numbers flows, tells the agent where each leads when a client first speaks, carries its
datagrams, and tells it to close those whose client has been silent for a minute and those
of a port Docker withdrew. All of it goes out as frames in batches over a framed stream.

The sockets are what they have received when they are read, clock readings are arguments in
nanoseconds, and a table is walked in an order that is given. The replies themselves change
nothing here. `words` and `accepted` are not the reactor's: what was said on the agent's
stream, in order, and the bytes of it that went into packets.
-/

namespace Lighter.Reactor

open Vsock
open Docker (Published IpAddr)

abbrev SocketAddr := IpAddr × UInt16

inductive UdpKind where
  | data
  | opening
  | closing
deriving DecidableEq, Repr

def UdpKind.byte : UdpKind → UInt8
  | .data => 0
  | .opening => 1
  | .closing => 2

structure UdpFrame where
  flow : UInt32
  kind : UdpKind
  payload : List UInt8
deriving DecidableEq, Repr

/-- Length, flow and kind. -/
def UdpFrame.header (frame : UdpFrame) : List UInt8 :=
  let len := UInt16.ofNat frame.payload.length
  [(len >>> 8).toUInt8, len.toUInt8, (frame.flow >>> 24).toUInt8, (frame.flow >>> 16).toUInt8,
    (frame.flow >>> 8).toUInt8, frame.flow.toUInt8, frame.kind.byte]

def UdpFrame.bytes (frame : UdpFrame) : List UInt8 := frame.header ++ frame.payload

/-- The bytes of an address, the most significant first. -/
def octets {width : Nat} (count : Nat) (bits : BitVec width) : List UInt8 :=
  (List.range count).map fun index => UInt8.ofNat ((bits >>> (8 * (count - 1 - index))).toNat)

/-- Nineteen bytes that name an address: family, sixteen address bytes, port. -/
def headerBytes (addr : SocketAddr) : List UInt8 :=
  (match addr.1 with
    | .v4 bits => 4 :: octets 4 bits ++ List.replicate 12 0
    | .v6 bits => 6 :: octets 16 bits) ++ [(addr.2 >>> 8).toUInt8, addr.2.toUInt8]

/-- Set in the family byte when the client's address follows. -/
def headerClient : UInt8 := 0x80

/-- An opening frame's payload: the guest address to dial, and the client's. -/
def inboundHeader (dst : SocketAddr) : Option SocketAddr → List UInt8
  | none => headerBytes dst
  | some client =>
      (match headerBytes dst with
        | [] => []
        | family :: rest => (family ||| headerClient) :: rest) ++ headerBytes client

def isLoopback : IpAddr → Bool
  | .v4 bits => bits >>> 24 = 127
  | .v6 bits => bits = 1

def isUnspecified : IpAddr → Bool
  | .v4 bits => bits = 0
  | .v6 bits => bits = 0

/-- The client to pass on: none for the Mac's own loopback. -/
def lanClient (peer : SocketAddr) : Option SocketAddr :=
  let ip := match peer.1 with
    | .v6 bits => if bits >>> 32 = 0xffff then .v4 (bits.setWidth 32) else .v6 bits
    | .v4 bits => .v4 bits
  if !isLoopback ip && !isUnspecified ip then some (ip, peer.2) else none

/-- A UDP port Docker published: where the agent dials for it, and a flow for each client
that has spoken, with when it last did. -/
structure UdpPublish where
  dst : SocketAddr
  flows : Table SocketAddr (UInt32 × Nat)

/-- How long a client may say nothing before its flow is closed. -/
def udpFlowIdle : Nat := seconds 60

/-- What passes on the agent's stream: a frame to the agent, or the agent closing a flow. -/
inductive Word where
  | told (frame : UdpFrame)
  | heard (flow : UInt32)
deriving DecidableEq, Repr

structure UdpHost where
  inner : Inner
  /-- The agent's stream. -/
  udpInbound : Option ConnKey
  backlog : List UInt8
  place : Nat
  udpPublished : Table Published UdpPublish
  udpInboundFlows : UInt32 → Option (Published × SocketAddr)
  udpInboundNext : UInt32
  udpInboundSwept : Nat
  /-- Said on the agent's stream, and gone into packets for it. -/
  words : List Word
  accepted : List UInt8
  /-- How many flows there have been. -/
  made : Nat

/-- An order in which a table is walked. -/
structure Walk where
  order : List UInt32 → List UInt32
  walks : ∀ list, (order list).Perm list

/-- The longest datagram a frame's length can say. -/
def longestDatagram : Nat := 65535

namespace UdpHost

def start (now ring : Nat) : UdpHost where
  inner := { Inner.new now with txRing := ring }
  udpInbound := none
  backlog := []
  place := 0
  udpPublished := ∅
  udpInboundFlows := fun _ => none
  udpInboundNext := 0
  udpInboundSwept := now
  words := []
  accepted := []
  made := 0

/-- The end of the agent's stream, and of every flow with it. The published ports stay. -/
def close (host : UdpHost) : UdpHost :=
  { host with
    udpInbound := none
    backlog := []
    place := 0
    udpPublished := host.udpPublished.mapValues fun _ publish => { publish with flows := ∅ }
    udpInboundFlows := fun _ => none
    words := []
    accepted := [] }

/-- A batch over what the backlog holds is dropped whole. -/
def drops (host : UdpHost) (batch : List UdpFrame) : Bool :=
  overflows host.backlog host.place (batch.flatMap UdpFrame.bytes)

/-- Frames onto the agent's stream. -/
def queueFramed (host : UdpHost) (batch : List UdpFrame) : UdpHost :=
  match host.udpInbound with
  | none => host
  | some key =>
      let pushed := pushFramed host.inner key host.backlog host.place
        (batch.flatMap UdpFrame.bytes)
      let later := { host with
        inner := pushed.1
        backlog := pushed.2.1
        place := pushed.2.2.1
        words := if host.drops batch then host.words else host.words ++ batch.map .told
        accepted := host.accepted ++ queuedBetween key host.inner pushed.1 }
      match pushed.2.2.2 with
      | .ok _ => later
      | .error _ => later.close

/-- One datagram of a published port: its client's flow found or opened. -/
def takeDatagram (now : Nat) (port : Published) (taken : UdpHost × List UdpFrame)
    (datagram : SocketAddr × List UInt8) : UdpHost × List UdpFrame :=
  let (host, batch) := taken
  let (client, payload) := datagram
  match host.udpPublished.lookup port with
  | none => (host, batch)
  | some publish =>
      if payload.length > longestDatagram then (host, batch)
      else
        match publish.flows.lookup client with
        | some (flow, _) =>
            let publish := { publish with flows := publish.flows.insert client (flow, now) }
            ({ host with udpPublished := host.udpPublished.insert port publish },
              batch ++ [⟨flow, .data, payload⟩])
        | none =>
            let flow := host.udpInboundNext
            let header := inboundHeader publish.dst (lanClient client)
            let publish := { publish with flows := publish.flows.insert client (flow, now) }
            ({ host with
              udpInboundNext := host.udpInboundNext + 1
              made := host.made + 1
              udpPublished := host.udpPublished.insert port publish
              udpInboundFlows := Function.update host.udpInboundFlows flow (some (port, client)) },
              batch ++ [⟨flow, .opening, header⟩, ⟨flow, .data, payload⟩])

/-- The flows of a published port. -/
def flowsOf (publish : UdpPublish) : List UInt32 :=
  publish.flows.gather fun _ entry => [entry.1]

def isStale (now : Nat) (entry : UInt32 × Nat) : Bool := now - entry.2 ≥ udpFlowIdle

def staleFlows (now : Nat) (published : Table Published UdpPublish) : List UInt32 :=
  published.gather fun _ publish =>
    publish.flows.gather fun _ entry => if isStale now entry then [entry.1] else []

/-- Flows nobody has used for a minute are closed, once a minute. -/
def sweep (now : Nat) (walk : Walk) (taken : UdpHost × List UdpFrame) : UdpHost × List UdpFrame :=
  let (host, batch) := taken
  if now - host.udpInboundSwept ≥ udpFlowIdle then
    let stale := walk.order (staleFlows now host.udpPublished)
    ({ host with
      udpInboundSwept := now
      udpPublished := host.udpPublished.mapValues fun _ publish =>
        { publish with flows := publish.flows.keep fun _ entry => !isStale now entry }
      udpInboundFlows := fun flow =>
        if flow ∈ stale then none else host.udpInboundFlows flow },
      batch ++ stale.map fun flow => ⟨flow, .closing, []⟩)
  else (host, batch)

/-- How many datagrams are read at a time. -/
def datagramsAtOnce : Nat := 64

/-- The tables and the batch after a published port's datagrams are read. -/
def readDatagrams (host : UdpHost) (port : Published) (datagrams : List (SocketAddr × List UInt8))
    (now : Nat) (walk : Walk) : UdpHost × List UdpFrame :=
  if host.udpInbound.isNone || (host.udpPublished.lookup port).isNone then (host, [])
  else sweep now walk ((datagrams.take datagramsAtOnce).foldl (takeDatagram now port) (host, []))

/-- The tables and the batch after a published port is given up. -/
def retire (host : UdpHost) (publish : UdpPublish) (walk : Walk) : UdpHost × List UdpFrame :=
  let flows := walk.order (flowsOf publish)
  ({ host with udpInboundFlows := fun flow =>
      if flow ∈ flows then none else host.udpInboundFlows flow },
    flows.map fun flow => ⟨flow, .closing, []⟩)

/-- A port is published, in the place of one of the same name. -/
def publishPort (host : UdpHost) (port : Published) (dst : SocketAddr) (walk : Walk) :
    UdpHost × List UdpFrame :=
  let later := { host with udpPublished := host.udpPublished.insert port ⟨dst, ∅⟩ }
  match host.udpPublished.lookup port with
  | none => (later, [])
  | some old => later.retire old walk

def withdrawPort (host : UdpHost) (port : Published) (walk : Walk) : UdpHost × List UdpFrame :=
  let later := { host with udpPublished := host.udpPublished.erase port }
  match host.udpPublished.lookup port with
  | none => (later, [])
  | some old => later.retire old walk

/-- A new agent stream. The one before is forgotten first and closed then, so that `close`
does not see it as the agent's and leaves the flows. -/
def acceptUdpInbound (host : UdpHost) (key : ConnKey) : UdpHost :=
  { host with udpInbound := some key, backlog := [], place := 0, words := [], accepted := [] }

/-- One frame from the agent: a flow it closed is forgotten, anything else changes nothing
here. -/
def hear (host : UdpHost) (frame : UInt32 × UInt8 × List UInt8) : UdpHost :=
  if frame.2.1 = UdpKind.closing.byte then
    let host := { host with words := host.words ++ [.heard frame.1] }
    match host.udpInboundFlows frame.1 with
    | none => host
    | some (port, client) =>
        { host with
          udpInboundFlows := Function.update host.udpInboundFlows frame.1 none
          udpPublished := host.udpPublished.mapValues fun name publish =>
            if name = port then { publish with flows := publish.flows.erase client } else publish }
  else host

end UdpHost

inductive UdpAct where
  | readable (port : Published) (datagrams : List (SocketAddr × List UInt8)) (now : Nat)
      (walk : Walk)
  | publish (port : Published) (dst : SocketAddr) (walk : Walk)
  | withdraw (port : Published) (walk : Walk)
  | agent (key : ConnKey)
  | replies (frames : List (UInt32 × UInt8 × List UInt8))
  /-- The agent's stream ends. -/
  | ends
  /-- The backlog is tried again. -/
  | flush
  /-- Anything else that happens to the device. -/
  | around (act : Act)

namespace UdpHost

/-- What a step does to the tables, and what it has to tell the agent. -/
def prepare (host : UdpHost) : UdpAct → UdpHost × List UdpFrame
  | .readable port datagrams now walk => host.readDatagrams port datagrams now walk
  | .publish port dst walk => host.publishPort port dst walk
  | .withdraw port walk => host.withdrawPort port walk
  | _ => (host, [])

def step (settings : Settings) (host : UdpHost) (act : UdpAct) : UdpHost :=
  match act with
  | .readable .. | .publish .. | .withdraw .. =>
      let (host, batch) := host.prepare act
      if batch = [] then host else host.queueFramed batch
  | .agent key => host.acceptUdpInbound key
  | .replies frames => if host.udpInbound.isSome then frames.foldl hear host else host
  | .ends => if host.udpInbound.isSome then host.close else host
  | .flush => if host.place ≥ host.backlog.length then host else host.queueFramed []
  | .around act =>
      { host with
        inner := Vsock.step settings host.inner act
        accepted := host.accepted ++ host.udpInbound.elim [] fun key => accepts host.inner key act }

end UdpHost
end Lighter.Reactor
