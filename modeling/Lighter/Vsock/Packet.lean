import Lighter.Lib.Fixed

/-!
# The virtio-vsock wire format

A packet is a fixed 44-byte little-endian header and a payload. The last two
header fields carry the flow control of the whole protocol: how much the sender
of the packet can buffer, and how much it has consumed since the connection
opened, modulo the counter's width.
-/

namespace Lighter.Vsock.Packet

open Fixed

/-- Size of the wire header. -/
def hdrLen : Nat := 44

/-- The largest payload carried in one packet. -/
def maxPayload : Nat := 256 * 1024

def hostCid : UInt64 := 2
def guestCid : UInt64 := 3

/-- Only streams are implemented. -/
def typeStream : Nat := 1

inductive Op where
  | invalid
  | request
  | response
  | rst
  | shutdown
  | rw
  | creditUpdate
  | creditRequest
deriving DecidableEq, Repr

/-- The operation's number on the wire. -/
def Op.raw : Op → Nat
  | .invalid => 0
  | .request => 1
  | .response => 2
  | .rst => 3
  | .shutdown => 4
  | .rw => 5
  | .creditUpdate => 6
  | .creditRequest => 7

/-- An unknown number is kept as an invalid operation rather than refused. -/
def Op.fromRaw : Nat → Op
  | 1 => .request
  | 2 => .response
  | 3 => .rst
  | 4 => .shutdown
  | 5 => .rw
  | 6 => .creditUpdate
  | 7 => .creditRequest
  | _ => .invalid

/-- Shutdown flags: the sender will read no more, will write no more, or both. -/
def shutdownRcv : UInt32 := 1
def shutdownSend : UInt32 := 2
def shutdownBoth : UInt32 := shutdownRcv ||| shutdownSend

end Packet

structure Packet where
  srcCid : UInt64
  dstCid : UInt64
  srcPort : UInt32
  dstPort : UInt32
  op : Packet.Op
  flags : UInt32
  bufAlloc : UInt32
  fwdCnt : UInt32
  payload : List UInt8
deriving DecidableEq, Repr

namespace Packet

open Fixed

/-- A packet without payload from the host to the guest. -/
def control (op : Op) (srcPort dstPort : UInt32) : Packet where
  srcCid := hostCid
  dstCid := guestCid
  srcPort := srcPort
  dstPort := dstPort
  op := op
  flags := 0
  bufAlloc := 0
  fwdCnt := 0
  payload := []

/-- The 44 header bytes, with the payload's length in bytes 24 to 27. -/
def headerBytes (packet : Packet) : List UInt8 :=
  leBytes 8 packet.srcCid.toNat ++ leBytes 8 packet.dstCid.toNat ++
  leBytes 4 packet.srcPort.toNat ++ leBytes 4 packet.dstPort.toNat ++
  leBytes 4 packet.payload.length ++ leBytes 2 typeStream ++ leBytes 2 packet.op.raw ++
  leBytes 4 packet.flags.toNat ++ leBytes 4 packet.bufAlloc.toNat ++
  leBytes 4 packet.fwdCnt.toNat

/-- A little-endian field of a header. -/
def field (header : List UInt8) (offset width : Nat) : Nat :=
  fromLe ((header.drop offset).take width)

/-- The length a header declares. -/
def declared (header : List UInt8) : Nat := field header 24 4

/-- A packet from a header already read and a payload already owned. The length
field has to match the payload given. -/
def fromParts (header payload : List UInt8) : Option Packet :=
  if declared header > maxPayload ∨ payload.length ≠ declared header then none
  else some {
    srcCid := UInt64.ofNat (field header 0 8)
    dstCid := UInt64.ofNat (field header 8 8)
    srcPort := UInt32.ofNat (field header 16 4)
    dstPort := UInt32.ofNat (field header 20 4)
    op := Op.fromRaw (field header 30 2)
    flags := UInt32.ofNat (field header 32 4)
    bufAlloc := UInt32.ofNat (field header 36 4)
    fwdCnt := UInt32.ofNat (field header 40 4)
    payload := payload }

/-- A packet from its header alone, the payload left where it is: the length
field is zeroed in a copy before the header is read. -/
def headerOnly (header : List UInt8) : Option Packet :=
  if declared header > maxPayload then none
  else fromParts (header.take 24 ++ leBytes 4 0 ++ header.drop 28) []

@[simp] theorem length_headerBytes (packet : Packet) : packet.headerBytes.length = hdrLen := by
  simp [headerBytes, hdrLen]

/-- The length field names the payload, as far as the field is wide. -/
theorem declared_headerBytes (packet : Packet) :
    declared packet.headerBytes = packet.payload.length % 2 ^ 32 := by
  have exact : (packet.headerBytes.drop 24).take 4 = leBytes 4 packet.payload.length := by
    simp [headerBytes, List.drop_append, List.drop_of_length_le]
  rw [declared, field, exact, fromLe_leBytes]
  rfl

end Packet
end Lighter.Vsock
