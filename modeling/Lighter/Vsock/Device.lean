import Lighter.Virtio.Chain
import Lighter.Vsock.State

/-!
# The device: packets from the guest and buffers to it

`handle` is one packet from the guest. A payload-carrying RW packet goes through
`handleGuestRw` instead, which leaves the payload in the guest's buffers while
the shares of the ring allow it. A pass over the transmit ring parses the chains
offered and handles each entry; `drainRx` is one over the receive ring. Which chains
are offered, and what the ring does with the heads it is handed back, is the queue's
business. Diagnostics are left out.
-/

namespace Lighter.Vsock

open Packet Fixed Virtio

/-- The two measuring switches of the environment. -/
structure Settings where
  /-- A credit update on every acknowledgement. -/
  eager : Bool
  /-- Copy every payload out of the guest's buffers. -/
  copyAll : Bool
deriving DecidableEq, Repr

namespace Inner

/-- A close is acknowledged only after every received byte has been delivered.
A connection we closed has nothing left to deliver. -/
def finishShutdown (inner : Inner) (key : ConnKey) : Inner :=
  match inner.conns.lookup key with
  | none => inner
  | some conn =>
      let oursClosed := conn.state = .closed
      let theirsClosed := conn.guestDone ∧ conn.guestReceiveClosed
      let delivered := conn.received = conn.credit.fwdCnt
      if ¬oursClosed ∧ ¬(theirsClosed ∧ delivered) then inner
      else
        let rst := { Packet.control .rst key.1 key.2 with
          bufAlloc := conn.window, fwdCnt := conn.credit.fwdCnt }
        ((inner.queue rst).remove key).1

/-- Refuses a packet for a connection that is not there. -/
def refuse (inner : Inner) (hostPort guestPort : UInt32) : Inner :=
  inner.queue { Packet.control .rst hostPort guestPort with bufAlloc := Credit.bufAlloc }

/-- Hands a new connection to the port's listener; false when nobody listens. -/
def offer (inner : Inner) (hostPort : UInt32) (key : ConnKey) : Inner × Bool :=
  match inner.listeners.lookup hostPort with
  | none => (inner, false)
  | some listener =>
      if listener.receiving then
        ({ inner with
          listeners := inner.listeners.insert hostPort
            { listener with accepted := listener.accepted ++ [key] } }, true)
      else (inner, false)

/-- The queued host input of a connection is no longer accepted by the guest. -/
def dropInput (inner : Inner) (key : ConnKey) : Inner :=
  { inner with
    outbox := inner.outbox.retain fun packet =>
      !(packet.srcPort == key.1 && packet.dstPort == key.2 && packet.op == .rw) }

/-- The half-closes a shutdown packet declares are added to those before it. -/
def declareShutdown (conn : Conn) (flags : UInt32) : Conn :=
  { conn with
    guestDone := conn.guestDone || flags &&& shutdownSend != 0
    guestReceiveClosed := conn.guestReceiveClosed || flags &&& shutdownRcv != 0 }

/-- Credit rides on every packet, including ones otherwise ignored. -/
def observe (inner : Inner) (key : ConnKey) (packet : Packet) : Inner :=
  match inner.conns.lookup key with
  | none => inner
  | some _ =>
      (inner.modify key fun conn =>
        { conn with credit := conn.credit.observe packet.bufAlloc packet.fwdCnt }).touch key

/-- Only a connection still waiting is established: one we closed in the meantime
stays closed. -/
def handleResponse (inner : Inner) (key : ConnKey) : Inner :=
  inner.modify key fun conn =>
    if conn.state = .connecting then { conn with state := .established } else conn

def handleShutdown (inner : Inner) (key : ConnKey) (flags : UInt32) : Inner :=
  match inner.conns.lookup key with
  | none => inner
  | some conn =>
      let conn := declareShutdown conn flags
      let inner := inner.modify key fun _ => conn
      let inner := if conn.guestReceiveClosed then inner.dropInput key else inner
      inner.finishShutdown key

/-- Bytes are queued, not written, and credit is not advanced. A connection we
closed takes none. -/
def handleRw (inner : Inner) (key : ConnKey) (payload : List UInt8) : Inner :=
  match inner.conns.lookup key with
  | none => inner.refuse key.1 key.2
  | some conn =>
      if conn.state = .closed then inner
      else
        inner.modify key fun conn =>
          { conn with
            received := conn.received + UInt32.ofNat payload.length
            outbound := conn.outbound ++ [.owned payload] }

def handleCreditRequest (inner : Inner) (key : ConnKey) : Inner :=
  match inner.conns.lookup key with
  | none => inner
  | some conn =>
      (inner.modify key fun conn => { conn with unreported := 0 }).queue
        { Packet.control .creditUpdate key.1 conn.guestPort with
          bufAlloc := conn.window, fwdCnt := conn.credit.fwdCnt }

/-- A connection the guest opens: accepted when something listens on the port,
refused explicitly otherwise. -/
def handleRequest (inner : Inner) (key : ConnKey) (packet : Packet) (now : Nat) : Inner :=
  let (inner, accepted) := inner.offer key.1 key
  if accepted then
    let (inner, conn) := inner.insert key key.2 .established now
    (inner.modify key fun conn =>
      { conn with credit := conn.credit.observe packet.bufAlloc packet.fwdCnt }).queue
      { Packet.control .response key.1 key.2 with bufAlloc := conn.window }
  else inner.refuse key.1 key.2

/-- One packet from the guest. -/
def handle (inner : Inner) (packet : Packet) (now : Nat) : Inner :=
  let key := guestKey packet
  let inner := inner.observe key packet
  match packet.op with
  | .response => inner.handleResponse key
  | .rst => (inner.remove key).1
  | .shutdown => inner.handleShutdown key packet.flags
  | .rw => inner.handleRw key packet.payload
  | .creditRequest => inner.handleCreditRequest key
  | .creditUpdate => inner
  | .request => inner.handleRequest key packet now
  | .invalid => inner

/-- The bytes of a payload copied out of the guest; an unreadable span is
skipped. -/
def copyOut (memory : GuestMemory) (spans : List (Nat × Nat)) : List UInt8 :=
  spans.flatMap fun span => (memory.read span.1 span.2).getD []

/-- Bytes taken from the guest. A connection that had none waiting is timed from
now. -/
def countIn (conn : Conn) (len now : Nat) : Conn :=
  let conn := { conn with received := conn.received + UInt32.ofNat len }
  if conn.buffered.toNat = len then { conn with drained := now } else conn

/-- An RW packet whose payload is in the guest's transmit buffers. It is held in
place while the connection is under its share of the ring and the ring under its
reserve, and copied out otherwise. Says whether the chain was held. -/
def handleGuestRw (settings : Settings) (memory : GuestMemory) (inner : Inner)
    (packet : Packet) (head : UInt16) (spans : List (Nat × Nat)) (now : Nat) :
    Inner × Bool :=
  let key := guestKey packet
  let limits := inner.txLimits
  match inner.conns.lookup key with
  | none => (inner.refuse key.1 key.2, false)
  | some conn =>
      let conn := { conn with credit := conn.credit.observe packet.bufAlloc packet.fwdCnt }
      if conn.state = .closed then ((inner.modify key fun _ => conn).touch key, false)
      else
        let conn := countIn conn (spans.map Prod.snd).sum now
        if !settings.copyAll && conn.held < limits.2 && inner.held < limits.1 then
          let conn := { conn with
            outbound := conn.outbound ++ [.guest head spans], held := conn.held + 1 }
          let inner := inner.modify key fun _ => conn
          ({ inner with
            held := inner.held + 1
            holders := inner.holders.insert head (key, conn.id) }.touch key, true)
        else
          let conn := { conn with
            outbound := conn.outbound ++ [.owned (copyOut memory spans)] }
          ((inner.modify key fun _ => conn).touch key, false)

end Inner

/-- One transmit entry: the packet, and for an RW one with a payload the chain
and the payload's spans. -/
abbrev TxEntry := Packet × Option (UInt16 × List (Nat × Nat))

/-- A chain as the queue hands it out: its head and its descriptors. -/
abbrev Chain := UInt16 × List Descriptor

namespace Device

/-- What a transmit chain has yielded so far: header bytes, the length the
complete header declared, and the payload's spans. -/
structure Scan where
  header : List UInt8
  declared : Nat
  spans : List (Nat × Nat)
deriving DecidableEq, Repr

/-- The payload bytes collected. -/
def Scan.total (scan : Scan) : Nat := (scan.spans.map Prod.snd).sum

/-- What is left of a descriptor after the header: payload up to the declared
length, which has to lie in mapped memory. -/
def scanPayload (memory : GuestMemory) (scan : Scan) (addr len : Nat) : Option Scan :=
  if len = 0 ∨ scan.total ≥ scan.declared then some scan
  else
    let take := min len (scan.declared - scan.total)
    if memory.mapped addr take then some { scan with spans := scan.spans ++ [(addr, take)] }
    else none

/-- One readable descriptor: the header first, into an array of its own. -/
def scanDescriptor (memory : GuestMemory) (scan : Scan) (desc : Descriptor) : Option Scan :=
  if scan.header.length < hdrLen then
    let take := min desc.len.toNat (hdrLen - scan.header.length)
    match memory.read desc.addr take with
    | none => none
    | some bytes =>
        let header := scan.header ++ bytes
        if header.length = hdrLen then
          if declared header > maxPayload then none
          else
            scanPayload memory { scan with header := header, declared := declared header }
              (desc.addr + take) (desc.len.toNat - take)
        else
          scanPayload memory { scan with header := header } (desc.addr + take)
            (desc.len.toNat - take)
  else scanPayload memory scan desc.addr desc.len.toNat

/-- The device's own buffers are skipped; the first failure ends the scan. -/
def scanChain (memory : GuestMemory) : Scan → List Descriptor → Option Scan
  | scan, [] => some scan
  | scan, desc :: rest =>
      if desc.isWriteOnly then scanChain memory scan rest
      else
        match scanDescriptor memory scan desc with
        | none => none
        | some scan => scanChain memory scan rest

/-- A transmit chain as an entry, or nothing when it is malformed. A payload on
a packet that is not RW is copied so that the packet can be handled whole. -/
def parseChain (memory : GuestMemory) (chain : Chain) : Option TxEntry :=
  match scanChain memory ⟨[], 0, []⟩ chain.2 with
  | none => none
  | some scan =>
      if scan.header.length = hdrLen ∧ scan.total = scan.declared then
        (headerOnly scan.header).map fun packet =>
          if packet.op ≠ .rw ∧ scan.declared > 0 then
            ({ packet with payload := (Chunk.guest chain.1 scan.spans).bytes (some memory) },
              none)
          else if scan.declared > 0 then (packet, some (chain.1, scan.spans))
          else (packet, none)
      else none

/-- Where a receive chain has been filled to. A write outside memory ends the
filling, and what was written before it stays. -/
structure Fill where
  memory : GuestMemory
  offset : Nat
  live : Bool

/-- One copy into guest memory. -/
def Fill.place (fill : Fill) (addr : Nat) (data : List UInt8) : Fill :=
  match fill.memory.write addr data with
  | none => { fill with live := false }
  | some memory => { fill with memory := memory, offset := fill.offset + data.length }

/-- The part of the header that fits a descriptor, then the part of the payload
that fits what is left of it. -/
def fillDescriptor (header payload : List UInt8) (fill : Fill) (desc : Descriptor) : Fill :=
  let total := hdrLen + payload.length
  let headTake :=
    if fill.offset < hdrLen then min desc.len.toNat (hdrLen - fill.offset) else 0
  let fill :=
    if fill.offset < hdrLen then
      fill.place desc.addr ((header.drop fill.offset).take headTake)
    else fill
  let room := desc.len.toNat - headTake
  if fill.live ∧ 0 < room ∧ hdrLen ≤ fill.offset ∧ fill.offset < total then
    fill.place (desc.addr + headTake)
      ((payload.drop (fill.offset - hdrLen)).take (min room (total - fill.offset)))
  else fill

/-- Fills descriptors in order until everything is written or a write fails. -/
def fillChain (header payload : List UInt8) : Fill → List Descriptor → Fill
  | fill, [] => fill
  | fill, desc :: rest =>
      if ¬fill.live ∨ fill.offset ≥ hdrLen + payload.length then fill
      else fillChain header payload (fillDescriptor header payload fill desc) rest

/-- The device-writable buffers of a chain. -/
def writable (chain : Chain) : List Descriptor := chain.2.filter Descriptor.isWriteOnly

def capacity (chain : Chain) : Nat :=
  ((writable chain).map fun desc => desc.len.toNat).sum

/-- A used entry: the chain's head and the bytes written into it. -/
structure Used where
  head : UInt16
  len : UInt32
deriving DecidableEq, Repr

/-- A packet cut to the room a chain has, and the rest that goes back at the
front of its lane. A stream has no message boundaries. -/
def cut (packet : Packet) (room : Nat) : Packet × Option Packet :=
  if packet.payload.length > room then
    ({ packet with payload := packet.payload.take room },
      some { Packet.control packet.op packet.srcPort packet.dstPort with
        payload := packet.payload.drop room
        bufAlloc := packet.bufAlloc
        fwdCnt := packet.fwdCnt })
  else (packet, none)

/-- The state of one pass over the receive ring. `delivered` is what was written
into chains, in order. -/
structure RxPass where
  outbox : Outbox
  memory : GuestMemory
  used : List Used
  delivered : List Packet

/-- One receive chain. One without room for more than a header is returned
unused and the packet kept; otherwise the next packet is cut to the chain and
written straight into its buffers. -/
def fillRx (pass : RxPass) (chain : Chain) : RxPass :=
  if capacity chain ≤ hdrLen then { pass with used := pass.used ++ [⟨chain.1, 0⟩] }
  else
    match pass.outbox.popFront with
    | none => pass
    | some (packet, outbox) =>
        let (packet, rest) := cut packet (capacity chain - hdrLen)
        let outbox :=
          match rest with
          | none => outbox
          | some rest => outbox.pushFront rest
        let fill := fillChain packet.headerBytes packet.payload ⟨pass.memory, 0, true⟩
          (writable chain)
        { outbox := outbox
          memory := fill.memory
          used := pass.used ++ [⟨chain.1, UInt32.ofNat fill.offset⟩]
          delivered := pass.delivered ++ [packet] }

/-- One pass over the receive ring: chains are taken while packets wait. -/
def drainRx : RxPass → List Chain → RxPass
  | pass, [] => pass
  | pass, chain :: rest =>
      match pass.outbox.popFront with
      | none => pass
      | some _ => drainRx (fillRx pass chain) rest

end Device

/-- `Vsock::reset`: the table, the outbox and the touched set are cleared. -/
def Inner.reset (inner : Inner) : Inner :=
  { inner with
    touched := []
    touchedAll := true
    conns := ∅
    outbox := Outbox.empty }

end Lighter.Vsock
