import Lighter.Vsock.Device

/-!
# What host threads do to the shared state

Each definition is one section a host thread runs under the lock. A call that
blocks is the sequence of its passes: `sendPass` and `readExactPass` are one look
each, and whatever happens between two looks is other threads' sections.
`tryReadOutbound` is the section that takes the bytes; the acknowledgement it
ends with takes the lock again and is `acknowledge`.

The warden's `sweep` walks a hash map twice. Its order is an argument.
-/

namespace Lighter.Vsock

open Packet Fixed

/-- The connection is not there to take or give bytes. -/
inductive Gone where
  | gone
deriving DecidableEq, Repr

/-- What `tryTakeOutbound` found. -/
inductive Outbound where
  | chunks (chunks : List Chunk)
  | empty
  | finished
  | gone
deriving DecidableEq, Repr

/-- What one look of a blocking `send` came to. -/
inductive SendPass where
  /-- The call returns false. -/
  | gone
  /-- No credit or no room: the call waits and looks again. -/
  | waits
  | sent (count : Nat)
deriving DecidableEq, Repr

/-- What one look of `read_outbound_exact` came to, with the bytes taken so far. -/
inductive ExactPass where
  /-- The call returns nothing: the connection ended or is missing. -/
  | ended
  | waits (out : List UInt8)
  | done (out : List UInt8)
deriving DecidableEq, Repr

/-- Takes bytes off the front of a queue until `want` have been taken. A chunk cut
short leaves its rest as an owned chunk, and its chain is finished with: the
rest no longer lies in the guest. Returns the bytes, the queue left, and the
finished chains. -/
def readChunks (memory : Option GuestMemory) :
    Nat → List Chunk → List UInt8 × List Chunk × List UInt16
  | 0, chunks => ([], chunks, [])
  | _ + 1, [] => ([], [], [])
  | want + 1, chunk :: rest =>
      let bytes := chunk.bytes memory
      if want + 1 < bytes.length then
        (bytes.take (want + 1), .owned (bytes.drop (want + 1)) :: rest, chunk.heads)
      else
        let (out, left, finished) := readChunks memory (want + 1 - bytes.length) rest
        (bytes ++ out, left, chunk.heads ++ finished)

namespace Inner

/-- `VsockShared::open`: the next port of ours, and a REQUEST to the guest's. -/
def openConn (inner : Inner) (guestPort : UInt32) (now : Nat) : Inner × ConnKey :=
  let hostPort := inner.nextPort
  let key : ConnKey := (hostPort, guestPort)
  let inner := { inner with nextPort := max (inner.nextPort + 1) firstEphemeralPort }
  let (inner, conn) := inner.insert key guestPort .connecting now
  (inner.queue { Packet.control .request hostPort guestPort with bufAlloc := conn.window }, key)

/-- `VsockShared::listen`: a fresh channel for the port. -/
def listen (inner : Inner) (hostPort : UInt32) : Inner :=
  { inner with listeners := inner.listeners.insert hostPort ⟨true, []⟩ }

/-- The listener's end of the channel is dropped. -/
def hangUp (inner : Inner) (hostPort : UInt32) : Inner :=
  match inner.listeners.lookup hostPort with
  | none => inner
  | some listener =>
      { inner with
        listeners := inner.listeners.insert hostPort { listener with receiving := false } }

def rwPacket (key : ConnKey) (window fwdCnt : UInt32) (payload : List UInt8) : Packet :=
  { Packet.control .rw key.1 key.2 with
    payload := payload, bufAlloc := window, fwdCnt := fwdCnt }

/-- One RW packet of a connection, counted against the peer's buffer. -/
def sendPacket (inner : Inner) (key : ConnKey) (window fwdCnt : UInt32)
    (payload : List UInt8) : Inner :=
  (inner.queue (rwPacket key window fwdCnt payload)).modify key fun conn =>
    { conn with credit := conn.credit.sent (UInt32.ofNat payload.length) }

/-- As many packets as credit and the outbox allow. Returns the bytes taken. -/
def sendLoop (key : ConnKey) (window fwdCnt : UInt32) :
    (room allowed : Nat) → List UInt8 → Inner → Inner × Nat
  | 0, _, _, inner => (inner, 0)
  | room + 1, allowed, data, inner =>
      if allowed = 0 ∨ data = [] then (inner, 0)
      else
        let take := min (min allowed maxPayload) data.length
        let inner := inner.sendPacket key window fwdCnt (data.take take)
        let (inner, more) :=
          sendLoop key window fwdCnt room (allowed - take) (data.drop take) inner
        (inner, take + more)

/-- Queues as much of `data` as credit and the outbox allow, without waiting. -/
def trySend (inner : Inner) (key : ConnKey) (data : List UInt8) : Inner × Except Gone Nat :=
  match inner.conns.lookup key with
  | none => (inner, .error .gone)
  | some conn =>
      if conn.guestReceiveClosed then (inner, .error .gone)
      else
        match conn.state with
        | .connecting => (inner, .ok 0)
        | .closed => (inner, .error .gone)
        | .established =>
            let (inner, count) := sendLoop key conn.window conn.credit.fwdCnt
              (inner.outbox.room key) conn.credit.available.toNat data inner
            (inner, .ok count)

/-- An owned buffer of at most one packet: all of it, or what credit allows and
the rest handed back. -/
def sendOwnedPiece (inner : Inner) (key : ConnKey) (data : List UInt8) :
    Inner × Except Gone (Option (List UInt8)) :=
  match inner.conns.lookup key with
  | none => (inner, .error .gone)
  | some conn =>
      if conn.guestReceiveClosed then (inner, .error .gone)
      else
        match conn.state with
        | .connecting => (inner, .ok (some data))
        | .closed => (inner, .error .gone)
        | .established =>
            let allowed := conn.credit.available.toNat
            if inner.outbox.room key = 0 ∨ allowed = 0 then (inner, .ok (some data))
            else
              (inner.sendPacket key conn.window conn.credit.fwdCnt (data.take allowed),
                .ok (if data.length > allowed then some (data.drop allowed) else none))

/-- A buffer longer than a packet is cut, and what was not sent comes back with
the rest behind it. -/
def trySendOwned (inner : Inner) (key : ConnKey) (data : List UInt8) :
    Inner × Except Gone (Option (List UInt8)) :=
  if data.length > maxPayload then
    let rest := data.drop maxPayload
    match inner.sendOwnedPiece key (data.take maxPayload) with
    | (inner, .error refusal) => (inner, .error refusal)
    | (inner, .ok none) => (inner, .ok (some rest))
    | (inner, .ok (some unsent)) => (inner, .ok (some (unsent ++ rest)))
  else inner.sendOwnedPiece key data

/-- One look of the blocking `send` with what is left to send. -/
def sendPass (inner : Inner) (key : ConnKey) (data : List UInt8) : Inner × SendPass :=
  match inner.conns.lookup key with
  | none => (inner, .gone)
  | some conn =>
      if conn.state ≠ .established ∨ conn.guestReceiveClosed then (inner, .gone)
      else
        let allowed := conn.credit.available.toNat
        let room := inner.outbox.room key
        if allowed = 0 ∨ room = 0 then (inner, .waits)
        else
          let (inner, count) :=
            sendLoop key conn.window conn.credit.fwdCnt room allowed data inner
          (inner, .sent count)

/-- What the guest has sent, without waiting. The blocking `take_outbound` is this
look repeated. -/
def tryTakeOutbound (inner : Inner) (key : ConnKey) : Inner × Outbound :=
  match inner.conns.lookup key with
  | none => (inner, .gone)
  | some conn =>
      if conn.outbound ≠ [] then
        (inner.modify key fun conn => { conn with outbound := [] }, .chunks conn.outbound)
      else if conn.state = .closed ∨ conn.guestDone then (inner, .finished)
      else (inner, .empty)

/-- Leaves a connection the queue a reader did not take, and returns the chains
the reader finished with. -/
def leave (inner : Inner) (key : ConnKey) (left : List Chunk) (finished : List UInt16) :
    Inner :=
  let inner := inner.modify key fun conn => { conn with outbound := left }
  { inner with done := inner.done ++ finished }

/-- Exactly `want` of the guest's bytes, if they have arrived. -/
def tryReadOutbound (memory : Option GuestMemory) (inner : Inner) (key : ConnKey)
    (want : Nat) : Inner × Except Gone (Option (List UInt8)) :=
  match inner.conns.lookup key with
  | none => (inner, .error .gone)
  | some conn =>
      if (conn.outbound.map Chunk.len).sum < want then
        if conn.state = .closed ∨ conn.guestDone then (inner, .error .gone)
        else (inner, .ok none)
      else
        let (out, left, finished) := readChunks memory want conn.outbound
        (inner.leave key left finished, .ok (some out))

/-- One look of `read_outbound_exact`, which has `out` already. What it takes, it
takes for good, also when it then finds that the connection ended. -/
def readExactPass (memory : Option GuestMemory) (inner : Inner) (key : ConnKey)
    (want : Nat) (out : List UInt8) : Inner × ExactPass :=
  match inner.conns.lookup key with
  | none => (inner, .ended)
  | some conn =>
      let (more, left, finished) := readChunks memory (want - out.length) conn.outbound
      let out := out ++ more
      let inner := inner.leave key left finished
      if out.length = want then (inner, .done out)
      else if conn.state = .closed ∨ conn.guestDone then (inner, .ended)
      else (inner, .waits out)

/-- Chains whose bytes are on a socket. -/
def complete (inner : Inner) (heads : List UInt16) : Inner :=
  { inner with done := inner.done ++ heads }

/-- Records that bytes reached the host application. A close that waited for them
is finished here; otherwise the guest hears once a quarter of the window has come
back, and the window grows. -/
def acknowledge (settings : Settings) (inner : Inner) (key : ConnKey) (bytes : UInt32)
    (now : Nat) : Inner :=
  match inner.conns.lookup key with
  | none => inner
  | some conn =>
      let conn := { conn with
        credit := conn.credit.consumed bytes
        drained := if bytes > 0 then now else conn.drained }
      if conn.guestDone ∧ conn.guestReceiveClosed ∧ conn.received = conn.credit.fwdCnt then
        (inner.modify key fun _ => conn).finishShutdown key
      else
        let conn := { conn with unreported := saturatingAdd conn.unreported bytes }
        -- The smaller of our window and the guest's own buffer.
        let threshold := min conn.window (max conn.credit.peerBufAlloc 65536)
        if !settings.eager && conn.unreported < threshold / 4 then
          inner.modify key fun _ => conn
        else
          let (budget, grown) := inner.budget.grow conn.window
          let conn := { conn with unreported := 0, window := grown }
          let inner := inner.modify key fun _ => conn
          { inner with budget := budget }.queue
            { Packet.control .creditUpdate key.1 key.2 with
              bufAlloc := grown, fwdCnt := conn.credit.fwdCnt }

/-- Tells the guest we will send no more. The packet's count of consumed bytes is
left at zero. -/
def shutdownWrite (inner : Inner) (key : ConnKey) : Inner :=
  match inner.conns.lookup key with
  | none => inner
  | some conn =>
      if conn.guestReceiveClosed then inner
      else
        inner.queue { Packet.control .shutdown key.1 key.2 with
          flags := shutdownSend, bufAlloc := conn.window }

/-- Closes our end. What the guest sent and nobody wrote is dropped, and its
queued chains go back. -/
def shutdown (inner : Inner) (key : ConnKey) (now : Nat) : Inner :=
  match inner.conns.lookup key with
  | none => inner
  | some conn =>
      let packet := { Packet.control .shutdown key.1 key.2 with
        flags := shutdownBoth, bufAlloc := conn.window, fwdCnt := conn.credit.fwdCnt }
      let inner := inner.modify key fun conn =>
        { conn with
          state := .closed
          since := if conn.state = .closed then conn.since else now
          outbound := [] }
      ((inner.touch key).queue packet).discard conn.outbound

/-- The reset a host thread or the warden sends for a connection it gives up. -/
def resetPacket (key : ConnKey) : Packet :=
  { Packet.control .rst key.1 key.2 with bufAlloc := Credit.minWindow }

/-- Gives up on a connection the guest never answered. -/
def abandon (inner : Inner) (key : ConnKey) : Inner :=
  match inner.remove key with
  | (inner, false) => inner
  | (inner, true) => inner.queue (resetPacket key)

def label (inner : Inner) (key : ConnKey) (label : String) : Inner :=
  inner.modify key fun conn => { conn with label := some label }

/-- What changed since the last call, or nothing for every connection. -/
def takeTouched (inner : Inner) : Inner × Option (List ConnKey) :=
  if inner.touchedAll then ({ inner with touched := [], touchedAll := false }, none)
  else ({ inner with touched := [] }, some inner.touched)

/-- What the warden makes of one connection. -/
inductive Verdict where
  | closedExpired
  | connectExpired
  | cut (stalled : Bool)
  | keep
deriving DecidableEq, Repr

def judge (now : Nat) (conn : Conn) : Verdict :=
  match conn.state with
  | .closed => if now - conn.since ≥ closeTimeout then .closedExpired else .keep
  | .connecting => if now - conn.since ≥ connectTimeout then .connectExpired else .keep
  | .established =>
      if conn.window > Credit.minWindow then
        let quiet := now - conn.drained
        let buffered : Bool := conn.buffered > 0
        if (buffered ∧ quiet ≥ stallAfter) ∨ (¬buffered ∧ quiet ≥ idleAfter) then
          .cut buffered
        else .keep
      else .keep

/-- A connection whose time is up: a reset, and out of the table. -/
def expire (inner : Inner) (key : ConnKey) (closed : Bool) : Inner :=
  let inner := ((inner.queue (resetPacket key)).remove key).1
  { inner with
    warden :=
      if closed then { inner.warden with closedExpired := inner.warden.closedExpired + 1 }
      else { inner.warden with connectExpired := inner.warden.connectExpired + 1 } }

/-- The words for a connection in the warden's notes. -/
def named (label : Option String) : String := label.getD "a connection"

/-- A window cut to the least, and the guest told. -/
def cutWindow (inner : Inner) (key : ConnKey) (stalled : Bool) : Inner :=
  match inner.conns.lookup key with
  | none => inner
  | some conn =>
      let (budget, least) := inner.budget.shrink conn.window
      let inner := inner.modify key fun conn => { conn with window := least }
      let warden :=
        if stalled then
          { inner.warden with stalled := inner.warden.stalled + 1 }.note
            ("cut the window of " ++ named conn.label ++ ", which had stopped taking bytes")
        else inner.warden
      { inner with budget := budget, warden := warden }.queue
        { Packet.control .creditUpdate key.1 key.2 with
          bufAlloc := least, fwdCnt := conn.credit.fwdCnt }

/-- The connection holding the most chains, and of those with as many the one that
drained longest ago; the last such in the walk. -/
def worst (inner : Inner) (order : List ConnKey) : Option (ConnKey × Conn) :=
  order.foldl (fun best key =>
    match inner.conns.lookup key with
    | none => best
    | some conn =>
        if conn.held = 0 then best
        else
          match best with
          | none => some (key, conn)
          | some (_, top) =>
              if top.held < conn.held ∨ (top.held = conn.held ∧ conn.drained ≤ top.drained) then
                some (key, conn)
              else best) none

/-- The ring has been at its limit with nothing returned for too long: the
connection holding the most is reset. -/
def watch (inner : Inner) (now : Nat) (order : List ConnKey) : Inner :=
  if inner.held < inner.txLimits.1 then { inner with ringFullSince := none }
  else
    let since := inner.ringFullSince.getD now
    let inner := { inner with ringFullSince := some since }
    if now - max inner.lastReturn since ≥ watchdog then
      match inner.worst order with
      | none => inner
      | some (key, conn) =>
          let inner := ((inner.queue (resetPacket key)).remove key).1
          { inner with
            warden := { inner.warden with resets := inner.warden.resets + 1 }.note
              ("reset " ++ named conn.label)
            ringFullSince := none }
    else inner

/-- The verdicts of one walk over the table. -/
def verdicts (inner : Inner) (now : Nat) (order : List ConnKey) : List (ConnKey × Verdict) :=
  order.filterMap fun key => (inner.conns.lookup key).map fun conn => (key, judge now conn)

def endOne (inner : Inner) (entry : ConnKey × Verdict) : Inner :=
  match entry.2 with
  | .closedExpired => inner.expire entry.1 true
  | .connectExpired => inner.expire entry.1 false
  | _ => inner

def cutOne (inner : Inner) (entry : ConnKey × Verdict) : Inner :=
  match entry.2 with
  | .cut stalled => inner.cutWindow entry.1 stalled
  | _ => inner

/-- Ends what nobody else will end, and takes back what nobody uses. Every
connection is judged before any is touched. -/
def sweep (inner : Inner) (now : Nat) (order : List ConnKey) : Inner :=
  let found := inner.verdicts now order
  let inner := found.foldl endOne inner
  let inner := found.foldl cutOne inner
  inner.watch now order

end Inner
end Lighter.Vsock
