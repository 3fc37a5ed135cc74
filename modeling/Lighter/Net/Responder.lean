import Lighter.Lib.Checked
import Lighter.Reactor.FrameReader

/-!
# The network card's responder

What reaches the guest's network card is answered in the process: address resolution, one
lease, echo to the gateway, and packets whose time to live runs out there. Echo to anywhere
else and traceroute's probes leave on sockets of the Mac, and what these receive, replies and
errors, is made into frames for the guest.

Every access to a frame is written as the code has it, checked or not, so that a computation
says whether it would stop the program. The sockets are what is given to them; whether the
kernel took it changes only the counters for diagnosis, which are left out together with the
log. Clock readings are arguments.
-/

namespace Lighter.Net

open Checked
open Reactor (be16)

abbrev Bytes := List UInt8

structure Ipv4Addr where
  first : UInt8
  second : UInt8
  third : UInt8
  fourth : UInt8
deriving DecidableEq, Repr

namespace Ipv4Addr

def octets (addr : Ipv4Addr) : Bytes := [addr.first, addr.second, addr.third, addr.fourth]

def isMulticast (addr : Ipv4Addr) : Bool := 224 ≤ addr.first && addr.first ≤ 239

def isBroadcast (addr : Ipv4Addr) : Bool := addr = ⟨255, 255, 255, 255⟩

def isUnspecified (addr : Ipv4Addr) : Bool := addr = ⟨0, 0, 0, 0⟩

end Ipv4Addr

/-- Sixteen octets. -/
abbrev Ipv6Addr := { octets : Bytes // octets.length = 16 }

def gateway : Ipv4Addr := ⟨192, 168, 127, 1⟩
def guest : Ipv4Addr := ⟨192, 168, 127, 2⟩
def hostAlias : Ipv4Addr := ⟨192, 168, 127, 254⟩
def netmask : Ipv4Addr := ⟨255, 255, 255, 0⟩

def gateway6 : Ipv6Addr :=
  ⟨[0xfd, 0x6c, 0x69, 0x67, 0x68, 0x74, 0, 0, 0, 0, 0, 0, 0, 0, 0, 1], rfl⟩
def allNodes : Ipv6Addr := ⟨[0xff, 2, 0, 0, 0, 0, 0, 0, 0, 0, 0, 0, 0, 0, 0, 1], rfl⟩

def guestMac : Bytes := [0x5a, 0x94, 0xef, 0xe4, 0x0c, 0xee]
def gatewayMac : Bytes := [0x5a, 0x94, 0xef, 0xe4, 0x0c, 0xdd]

def ethertypeIpv4 : UInt16 := 0x0800
def ethertypeArp : UInt16 := 0x0806
def ethertypeIpv6 : UInt16 := 0x86dd
def protoIcmp : UInt8 := 1
def protoUdp : UInt8 := 17
def dhcpServerPort : UInt16 := 67
def dhcpClientPort : UInt16 := 68
def protoHopopts : UInt8 := 0
def protoIcmpv6 : UInt8 := 58
def icmp6EchoRequest : UInt8 := 128
def icmp6EchoReply : UInt8 := 129
def icmp6NeighbourSolicit : UInt8 := 135
def icmp6NeighbourAdvert : UInt8 := 136

/-- The most time to live a probe has. -/
def probeTtl : UInt8 := 30
def probesKept : Nat := 4096
/-- Thirty seconds. -/
def probeLife : Nat := 30000000000

def toBe (word : UInt16) : Bytes := [(word >>> 8).toUInt8, word.toUInt8]

/-! ## Reading -/

def ethertype (frame : Bytes) : Option UInt16 :=
  match between frame 12 14 with
  | some [first, second] => some (be16 first second)
  | _ => none

def ipv4HeaderLen (packet : Bytes) : Checked Nat := do
  let first ← index packet 0
  return (first &&& 0x0f).toNat * 4

/-- The IPv4 packet inside a frame, if that is what it carries. -/
def ipv4 (frame : Bytes) : Checked (Option Bytes) :=
  ask (ethertype frame) fun kind =>
    if kind ≠ ethertypeIpv4 then .ok none
    else
      ask (onward frame 14) fun packet =>
        ask packet.head? fun first => do
          let ihl := (first &&& 0x0f).toNat * 4
          if first >>> 4 ≠ 4 || ihl < 20 || packet.length < ihl then return none
          else
            let high ← index packet 2
            let low ← index packet 3
            let total := (be16 high low).toNat
            if total < ihl || total > packet.length then return none
            else
              let whole ← slice packet 0 total
              return some whole

def ipv4Addr (packet : Bytes) (place : Nat) : Checked Ipv4Addr := do
  let first ← index packet place
  let second ← index packet (place + 1)
  let third ← index packet (place + 2)
  let fourth ← index packet (place + 3)
  return ⟨first, second, third, fourth⟩

def ipv4Dst (packet : Bytes) : Checked Ipv4Addr := ipv4Addr packet 16

def ipv4Src (packet : Bytes) : Checked Ipv4Addr := ipv4Addr packet 12

def ipv4Proto (frame : Bytes) : Checked (Option UInt8) := do
  match ← ipv4 frame with
  | none => return none
  | some packet =>
      let proto ← index packet 9
      return some proto

/-- The IPv6 packet in a frame, if it is one with a whole header. -/
def ipv6 (frame : Bytes) : Checked (Option Bytes) :=
  ask (onward frame 14) fun packet =>
    if packet.length ≥ 40 then do
      let first ← index packet 0
      return if first >>> 4 = 6 then some packet else none
    else .ok none

def ipv6At (bytes : Bytes) (place : Nat) : Option Ipv6Addr :=
  match between bytes place (place + 16) with
  | none => none
  | some octets => if whole : octets.length = 16 then some ⟨octets, whole⟩ else none

def ipv6Src (packet : Bytes) : Checked Ipv6Addr := unwrap (ipv6At packet 8)

def ipv6Dst (packet : Bytes) : Checked Ipv6Addr := unwrap (ipv6At packet 24)

/-! ## Writing -/

/-- The sum of the two-byte words, an odd byte being the high half of one. -/
def wordSum : Bytes → UInt32
  | [] => 0
  | [last] => (be16 last 0).toUInt32
  | first :: second :: rest => (be16 first second).toUInt32 + wordSum rest

/-- The carries are added in; three turns leave none. -/
def fold : Nat → UInt32 → UInt32
  | 0, sum => sum
  | turns + 1, sum =>
      if sum >>> (16 : UInt32) ≠ 0 then
        fold turns ((sum &&& (0xffff : UInt32)) + (sum >>> (16 : UInt32)))
      else sum

/-- The Internet checksum. -/
def checksum (bytes : Bytes) : UInt16 := ~~~(fold 3 (wordSum bytes)).toUInt16

/-- A frame from the gateway carrying one IPv4 packet. -/
def ipv4Frame (dstMac : Bytes) (src dst : Ipv4Addr) (proto ttl : UInt8) (payload : Bytes) :
    Checked Bytes := do
  let total := 20 + payload.length
  let link := dstMac ++ gatewayMac ++ toBe ethertypeIpv4
  let headerAt := link.length
  let out := link ++ ([0x45, 0] ++ toBe (UInt16.ofNat total) ++ [0, 0, 0x40, 0, ttl, proto, 0, 0] ++
    src.octets ++ dst.octets)
  let header ← slice out headerAt (headerAt + 20)
  let out ← paste out (headerAt + 10) (toBe (checksum header))
  return out ++ payload

/-- A frame from the gateway carrying one UDP datagram. -/
def udpFrame (dstMac : Bytes) (src dst : Ipv4Addr) (srcPort dstPort : UInt16) (payload : Bytes) :
    Checked Bytes := do
  let len := UInt16.ofNat (8 + payload.length)
  let udp := toBe srcPort ++ toBe dstPort ++ toBe len ++ [0, 0] ++ payload
  let pseudo := src.octets ++ dst.octets ++ [0, protoUdp] ++ toBe len ++ udp
  let sum := if checksum pseudo = 0 then 0xffff else checksum pseudo
  let udp ← paste udp 6 (toBe sum)
  ipv4Frame dstMac src dst protoUdp 64 udp

def icmp6Checksum (src dst : Ipv6Addr) (icmp : Bytes) : UInt16 :=
  let len := UInt32.ofNat icmp.length
  checksum (src.1 ++ dst.1 ++ [(len >>> 24).toUInt8, (len >>> 16).toUInt8, (len >>> 8).toUInt8,
    len.toUInt8] ++ [0, 0, 0, protoIcmpv6] ++ icmp)

def ipv6Frame (dstMac : Bytes) (src dst : Ipv6Addr) (next hopLimit : UInt8) (payload : Bytes) :
    Bytes :=
  dstMac ++ gatewayMac ++ toBe ethertypeIpv6 ++ [0x60, 0, 0, 0] ++
    toBe (UInt16.ofNat payload.length) ++ [next, hopLimit] ++ src.1 ++ dst.1 ++ payload

/-- An ICMPv6 message from the gateway, its checksum filled in. -/
def icmp6Frame (dstMac : Bytes) (dst : Ipv6Addr) (hopLimit : UInt8) (icmp : Bytes) :
    Checked Bytes := do
  let icmp ← put icmp 2 0
  let icmp ← put icmp 3 0
  let icmp ← paste icmp 2 (toBe (icmp6Checksum gateway6 dst icmp))
  return ipv6Frame dstMac gateway6 dst protoIcmpv6 hopLimit icmp

/-! ## What a frame is -/

/-- What the card sees in a frame. -/
inductive Seen where
  | arp
  | dhcp
  /-- Echo to the gateway or the host alias. -/
  | icmpLocal
  | icmpForward
  /-- No time to live is left. -/
  | expired
  | udpProbe
  | neighbourSolicit
  | icmp6Local
  | icmp6Forward
  | ipv6Housekeeping
deriving DecidableEq, Repr

/-- Whether the card should send a packet for an address on. -/
def routable (dst : Ipv4Addr) : Bool :=
  dst ≠ gateway && dst ≠ hostAlias && dst ≠ guest && !dst.isMulticast && !dst.isBroadcast &&
    !dst.isUnspecified

def classifyArp (frame : Bytes) : Checked (Option Seen) :=
  ask (between frame 14 42) fun arp => do
    let start ← slice arp 0 8
    let target ← ipv4Addr arp 24
    return if start = [0, 1, 8, 0, 6, 4, 0, 1] ∧ (target = gateway ∨ target = hostAlias) then
        some .arp
      else none

def classifyUdp (packet : Bytes) (ihl : Nat) : Checked (Option Seen) :=
  ask (between packet ihl (ihl + 8)) fun udp => do
    let src := be16 (← index udp 0) (← index udp 1)
    let dst := be16 (← index udp 2) (← index udp 3)
    if src = dhcpClientPort && dst = dhcpServerPort then return some .dhcp
    else
      let addr ← ipv4Dst packet
      if !routable addr then return none
      else
        let ttl ← index packet 8
        return if ttl > probeTtl then none else if ttl ≤ 1 then some .expired else some .udpProbe

def classifyIcmp (packet : Bytes) (ihl : Nat) : Checked (Option Seen) :=
  ask (onward packet ihl) fun icmp =>
    ask icmp.head? fun kind =>
      if kind ≠ 8 then .ok none
      else do
        let dst ← ipv4Dst packet
        if dst = gateway ∨ dst = hostAlias then return some .icmpLocal
        else
          let ttl ← index packet 8
          return some (if ttl ≤ 1 then .expired else .icmpForward)

def classifyIcmp6 (packet : Bytes) : Checked (Option Seen) :=
  ask (onward packet 40) fun icmp =>
    ask icmp.head? fun kind =>
      if kind = icmp6NeighbourSolicit then
        ask (ipv6At icmp 8) fun target =>
          .ok (some (if target = gateway6 then .neighbourSolicit else .ipv6Housekeeping))
      else if kind = icmp6EchoRequest then do
        let dst ← ipv6Dst packet
        return some (if dst = gateway6 then .icmp6Local else .icmp6Forward)
      else if (130 ≤ kind ∧ kind ≤ 133) ∨ kind = 136 ∨ kind = 143 then .ok (some .ipv6Housekeeping)
      else .ok none

/-- What a frame is, if it is something to answer. -/
def classify (frame : Bytes) : Checked (Option Seen) :=
  ask (ethertype frame) fun kind =>
    if kind = ethertypeArp then classifyArp frame
    else if kind = ethertypeIpv4 then do
      match ← ipv4 frame with
      | none => return none
      | some packet =>
          let ihl ← ipv4HeaderLen packet
          let proto ← index packet 9
          if proto = protoUdp then classifyUdp packet ihl
          else if proto = protoIcmp then classifyIcmp packet ihl
          else return none
    else if kind = ethertypeIpv6 then do
      match ← ipv6 frame with
      | none => return none
      | some packet =>
          let next ← index packet 6
          if next = protoHopopts then return some .ipv6Housekeeping
          else if next = protoIcmpv6 then classifyIcmp6 packet
          else return none
    else .ok none

/-! ## Answers -/

/-- The gateway's address, for whoever asks. -/
def arpReply (frame : Bytes) : Checked (Option Bytes) :=
  ask (between frame 14 42) fun arp => do
    let senderMac ← slice arp 8 14
    let senderIp ← slice arp 14 18
    let targetIp ← slice arp 24 28
    return some (senderMac ++ gatewayMac ++ toBe ethertypeArp ++ [0, 1, 8, 0, 6, 4, 0, 2] ++
      gatewayMac ++ targetIp ++ senderMac ++ senderIp)

def dhcpMagic : Bytes := [99, 130, 83, 99]

/-- The walk over the options, to the kind of the message. Each option has two bytes at
least. -/
def dhcpKind (bootp : Bytes) : Nat → Nat → Option UInt8 → Checked (Option UInt8)
  | 0, _, kind => .ok kind
  | turns + 1, place, kind =>
      if place + 1 < bootp.length then do
        let code ← index bootp place
        let len ← index bootp (place + 1)
        if code = 255 then return kind
        else
          dhcpKind bootp turns (place + (2 + len.toNat))
            (if code = 53 && len = 1 then bootp[place + 2]? else kind)
      else .ok kind

/-- The lease, without expiry. -/
def dhcpLease (xid chaddr : Bytes) (broadcast : Bool) (kind : UInt8) : Bytes :=
  [2, 1, 6, 0] ++ xid ++ [0, 0] ++ [if broadcast then 0x80 else 0, 0] ++ List.replicate 4 0 ++
    guest.octets ++ gateway.octets ++ List.replicate 4 0 ++ chaddr ++ List.replicate 10 0 ++
    List.replicate 64 0 ++ List.replicate 128 0 ++ dhcpMagic ++ [53, 1, kind] ++ [54, 4] ++
    gateway.octets ++ [51, 4, 0xff, 0xff, 0xff, 0xff] ++ [1, 4] ++ netmask.octets ++ [3, 4] ++
    gateway.octets ++ [6, 4] ++ guest.octets ++ [255]

/-- An offer for a discovery, an acknowledgement for a request. -/
def replyKind (kind : UInt8) : Option UInt8 :=
  if kind = 1 then some 2 else if kind = 3 then some 5 else none

/-- The answer to a discovery or a request. -/
def dhcpReply (frame : Bytes) : Checked (Option Bytes) := do
  match ← ipv4 frame with
  | none => return none
  | some packet =>
      let ihl ← ipv4HeaderLen packet
      ask (onward packet ihl) fun udp =>
        ask (onward udp 8) fun bootp =>
          if bootp.length < 240 then .ok none
          else do
            let op ← index bootp 0
            if op ≠ 1 then return none
            else
              let magic ← slice bootp 236 240
              if magic ≠ dhcpMagic then return none
              else
                let xid ← slice bootp 4 8
                let flags ← index bootp 10
                let broadcast := flags &&& 0x80 != 0
                let chaddr ← slice bootp 28 34
                let kind ← dhcpKind bootp bootp.length 240 none
                ask (kind.bind replyKind) fun kind => do
                  let lease := dhcpLease xid chaddr broadcast kind
                  let frame ← udpFrame (if broadcast then List.replicate 6 0xff else chaddr) gateway
                    (if broadcast then ⟨255, 255, 255, 255⟩ else guest) dhcpServerPort
                    dhcpClientPort lease
                  return some frame

/-- Echo to the gateway itself: the request turned around. -/
def echoReplyLocal (frame : Bytes) : Checked (Option Bytes) := do
  match ← ipv4 frame with
  | none => return none
  | some packet =>
      let ihl ← ipv4HeaderLen packet
      let icmp ← tail packet ihl
      let reply ← put icmp 0 0
      let reply ← put reply 2 0
      let reply ← put reply 3 0
      let reply ← paste reply 2 (toBe (checksum reply))
      let src ← slice frame 6 12
      let from_ ← ipv4Dst packet
      let to_ ← ipv4Src packet
      let frame ← ipv4Frame src from_ to_ protoIcmp 64 reply
      return some frame

/-- An ICMP error to the guest. -/
def icmpErrorFrame (src : Ipv4Addr) (kind code : UInt8) (quote : Bytes) : Checked Bytes := do
  let icmp := [kind, code, 0, 0, 0, 0, 0, 0] ++ quote
  let icmp ← paste icmp 2 (toBe (checksum icmp))
  ipv4Frame guestMac src guest protoIcmp 64 icmp

/-- Time exceeded, from the gateway, quoting the header and eight bytes. -/
def timeExceeded (frame : Bytes) : Checked (Option Bytes) := do
  match ← ipv4 frame with
  | none => return none
  | some packet =>
      let ihl ← ipv4HeaderLen packet
      ask (between packet 0 (ihl + 8)) fun quote => do
        let frame ← icmpErrorFrame gateway 11 0 quote
        return some frame

def neighbourAdvertisement (frame : Bytes) : Checked (Option Bytes) := do
  match ← ipv6 frame with
  | none => return none
  | some packet =>
      let srcMac ← slice frame 6 12
      let src ← ipv6Src packet
      let unspecified := src.1 = List.replicate 16 0
      let advert := [icmp6NeighbourAdvert, 0, 0, 0, if unspecified then 0xa0 else 0xe0, 0, 0, 0] ++
        gateway6.1 ++ [2, 1] ++ gatewayMac
      let frame ← icmp6Frame (if unspecified then [0x33, 0x33, 0, 0, 0, 1] else srcMac)
        (if unspecified then allNodes else src) 255 advert
      return some frame

def echo6ReplyLocal (frame : Bytes) : Checked (Option Bytes) := do
  match ← ipv6 frame with
  | none => return none
  | some packet =>
      ask (onward packet 40) fun icmp =>
        if icmp.length < 8 then .ok none
        else do
          let reply ← put icmp 0 icmp6EchoReply
          let srcMac ← slice frame 6 12
          let src ← ipv6Src packet
          let frame ← icmp6Frame srcMac src 64 reply
          return some frame

/-! ## What leaves on the Mac's sockets -/

/-- A packet for one of the sockets. -/
inductive Outgoing where
  | echo (dst : Ipv4Addr) (ttl : UInt8) (icmp : Bytes)
  | probe (dst : Ipv4Addr) (port : UInt16) (ttl : UInt8) (payload : Bytes)
  | echo6 (dst : Ipv6Addr) (icmp : Bytes)
deriving DecidableEq

/-- The gateway is a hop. -/
def forwardEcho (frame : Bytes) : Checked (Option Outgoing) := do
  match ← ipv4 frame with
  | none => return none
  | some packet =>
      let ihl ← ipv4HeaderLen packet
      let icmp ← tail packet ihl
      if icmp.length < 8 then return none
      else
        let ttl ← index packet 8
        let dst ← ipv4Dst packet
        return some (.echo dst (if ttl = 0 then 0 else ttl - 1) icmp)

def forwardEcho6 (frame : Bytes) : Checked (Option Outgoing) := do
  match ← ipv6 frame with
  | none => return none
  | some packet =>
      ask (onward packet 40) fun icmp =>
        if icmp.length < 8 then .ok none
        else do
          let dst ← ipv6Dst packet
          return some (.echo6 dst icmp)

/-- What the guest sent, kept so that an error can quote it. -/
structure Probe where
  quote : Bytes
  srcPort : UInt16
  sent : Nat

structure Probes where
  port : UInt16
  sent : Table (Ipv4Addr × UInt16) Probe

namespace Probes

/-- Room for one more, after old ones are forgotten if need be. -/
def roomy (probes : Probes) (now : Nat) : Option Probes :=
  if probes.sent.size ≥ probesKept then
    let kept := probes.sent.keep fun _ probe => now - probe.sent < probeLife
    if kept.size ≥ probesKept then none else some { probes with sent := kept }
  else some probes

/-- Sends a probe on from the Mac, with one less to live. -/
def send (probes : Probes) (now : Nat) (frame : Bytes) :
    Checked (Option (Probes × Outgoing)) := do
  match ← ipv4 frame with
  | none => return none
  | some packet =>
      let ihl ← ipv4HeaderLen packet
      ask (between packet ihl (ihl + 8)) fun udp => do
        let dst ← ipv4Dst packet
        let srcPort := be16 (← index udp 0) (← index udp 1)
        let dstPort := be16 (← index udp 2) (← index udp 3)
        let payload ← tail packet (ihl + 8)
        ask (probes.roomy now) fun probes => do
          let quote ← slice packet 0 (ihl + 8)
          let ttl ← index packet 8
          if ttl = 0 then .error .underflow
          else
            let sent := probes.sent.insert (dst, dstPort) ⟨quote, srcPort, now⟩
            return some ({ probes with sent := sent }, .probe dst dstPort (ttl - 1) payload)

/-- What was sent to an address and port, if it was from this socket. -/
def quote (probes : Probes) (now : Nat) (dst : Ipv4Addr) (port srcPort : UInt16) : Option Bytes :=
  if srcPort ≠ probes.port then none
  else
    match probes.sent.lookup (dst, port) with
    | none => none
    | some probe => if now - probe.sent < probeLife then some probe.quote else none

end Probes

/-- Which sockets could be opened. -/
structure Responder where
  icmp : Bool
  icmp6 : Bool
  probes : Option Probes

/-- What an answer leaves: the responder, a frame for the guest and a packet for the world. -/
structure Answer where
  responder : Responder
  reply : Option Bytes
  outgoing : Option Outgoing

namespace Responder

/-- A frame from the guest is classified and answered. -/
def answer (responder : Responder) (now : Nat) (frame : Bytes) : Checked Answer := do
  let replying (reply : Option Bytes) : Answer := ⟨responder, reply, none⟩
  match ← classify frame with
  | some .arp => return replying (← arpReply frame)
  | some .dhcp => return replying (← dhcpReply frame)
  | some .icmpLocal => return replying (← echoReplyLocal frame)
  | some .icmpForward =>
      if responder.icmp then return ⟨responder, none, ← forwardEcho frame⟩
      else return replying none
  | some .expired => return replying (← timeExceeded frame)
  | some .udpProbe =>
      match responder.probes with
      | none => return replying none
      | some probes =>
          match ← probes.send now frame with
          | none => return replying none
          | some (probes, outgoing) =>
              return ⟨{ responder with probes := some probes }, none, some outgoing⟩
  | some .neighbourSolicit => return replying (← neighbourAdvertisement frame)
  | some .icmp6Local => return replying (← echo6ReplyLocal frame)
  | some .icmp6Forward =>
      if responder.icmp6 then return ⟨responder, none, ← forwardEcho6 frame⟩
      else return replying none
  | some .ipv6Housekeeping => return replying none
  | none =>
      -- The first few are logged with their protocol.
      let _ ← ipv4Proto frame
      return replying none

end Responder

/-! ## What the Mac's sockets receive -/

/-- A reply read off the ICMP socket, as the frame the guest sees. -/
def echoReplyFrame (datagram : Bytes) : Checked (Option Bytes) :=
  ask datagram.head? fun first =>
    if first >>> 4 ≠ 4 then .ok none
    else do
      let ihl ← ipv4HeaderLen datagram
      let src ← ipv4Src datagram
      ask (onward datagram ihl) fun icmp =>
        if icmp.length < 8 then .ok none
        else do
          let kind ← index icmp 0
          if kind ≠ 0 then return none
          else
            let frame ← ipv4Frame guestMac src guest protoIcmp 64 icmp
            return some frame

/-- The quoted header of an echo, made the guest's. -/
def guestQuote (inner : Bytes) (ihl : Nat) : Checked Bytes := do
  let quote ← slice inner 0 (ihl + 8)
  let quote ← paste quote 12 guest.octets
  let quote ← put quote 10 0
  let quote ← put quote 11 0
  let header ← slice quote 0 ihl
  paste quote 10 (toBe (checksum header))

/-- An error about the packet that is quoted. -/
def quotedError (probes : Option Probes) (now : Nat) (src : Ipv4Addr) (kind code : UInt8)
    (inner : Bytes) : Checked (Option Bytes) :=
  if inner.length < 20 then .ok none
  else do
    let version ← index inner 0
    if version >>> 4 ≠ 4 then return none
    else
      let ihl ← ipv4HeaderLen inner
      ask (between inner ihl (ihl + 8)) fun first8 => do
        let dst ← ipv4Dst inner
        let proto ← index inner 9
        let echo ← index first8 0
        if proto = protoIcmp && echo = 8 then
          let quote ← guestQuote inner ihl
          return some (← icmpErrorFrame src kind code quote)
        else if proto = protoUdp then
          let srcPort := be16 (← index first8 0) (← index first8 1)
          let dstPort := be16 (← index first8 2) (← index first8 3)
          ask (probes.bind fun probes => probes.quote now dst dstPort srcPort) fun quote => do
            return some (← icmpErrorFrame src kind code quote)
        else return none

/-- An error about something the card sent on, as the guest would have had it. -/
def errorFrame (probes : Option Probes) (now : Nat) (datagram : Bytes) : Checked (Option Bytes) :=
  ask datagram.head? fun first =>
    if first >>> 4 ≠ 4 then .ok none
    else do
      let outer ← ipv4HeaderLen datagram
      let src ← ipv4Src datagram
      ask (onward datagram outer) fun icmp =>
        ask icmp.head? fun kind =>
          ask icmp[1]? fun code =>
            if kind ≠ 3 && kind ≠ 11 then .ok none
            else ask (onward icmp 8) (quotedError probes now src kind code)

end Lighter.Net
