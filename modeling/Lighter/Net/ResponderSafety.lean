import Lighter.Net.Responder

/-!
# No packet stops the program

The classifier looks at part of what each handler indexes later. For every frame the handlers
stay inside it, with one exception: an echo request to the gateway whose message is shorter
than its own checksum field. For every datagram a socket of the Mac receives with a whole
outer header they do too, with one exception: an error that quotes an echo under a header
shorter than the addresses in it.
-/

namespace Lighter.Net

open Checked List
open Reactor (be16)

variable {packet frame : Bytes} {β : Type} {post : β → Prop}

/-- What a header's first byte says of its length. -/
def headerLen (packet : Bytes) : Nat := (packet.headD 0 &&& 0x0f).toNat * 4

theorem headerLen_of_head {first : UInt8} (start : packet.head? = some first) :
    headerLen packet = (first &&& 0x0f).toNat * 4 := by
  unfold headerLen
  rw [headD_eq_head?_getD, start]
  rfl

theorem ipv4HeaderLen_ok (long : 0 < packet.length) :
    ipv4HeaderLen packet = .ok (headerLen packet) := by
  cases packet with
  | nil => cases long
  | cons first rest => rfl

theorem ipv4Addr_safe {place : Nat} (inside : place + 4 ≤ packet.length) :
    Safe (ipv4Addr packet place) := by
  unfold ipv4Addr
  simp only [safe_iff, gives_index, gives_pure, exists_prop, and_true]
  omega

theorem gives_addr {place : Nat} {rest : Ipv4Addr → Checked β}
    (inside : place + 4 ≤ packet.length) (each : ∀ addr, Gives (rest addr) post) :
    Gives (ipv4Addr packet place >>= rest) post := by
  obtain ⟨addr, named⟩ := ipv4Addr_safe inside
  rw [named, bind_ok]
  exact each addr

/-- A packet the frame carries, with a whole header. -/
structure Carries (frame packet : Bytes) : Prop where
  inside : 14 + packet.length ≤ frame.length
  least : 20 ≤ headerLen packet
  whole : headerLen packet ≤ packet.length

theorem Carries.long (carries : Carries frame packet) :
    20 ≤ packet.length := carries.least.trans carries.whole

theorem Carries.headerLen_ok (carries : Carries frame packet) :
    ipv4HeaderLen packet = .ok (headerLen packet) :=
  ipv4HeaderLen_ok (Nat.lt_of_lt_of_le (by decide) carries.long)

theorem ipv4_gives (frame : Bytes) :
    Gives (ipv4 frame) fun found => ∀ packet, found = some packet → Carries frame packet := by
  unfold ipv4
  refine gives_ask nofun fun word _ => ?_
  split
  · exact gives_ok.mpr nofun
  refine gives_ask nofun fun packet rest => ?_
  obtain ⟨long, same⟩ := onward_eq_some rest
  have length : packet.length = frame.length - 14 := by
    rw [same, length_drop]
  refine gives_ask nofun fun first start => ?_
  dsimp only
  rw [← headerLen_of_head start]
  split
  · exact gives_pure.mpr nofun
  rename_i valid
  simp only [Bool.or_eq_true, decide_eq_true_eq, not_or, Nat.not_lt] at valid
  obtain ⟨⟨_, least⟩, whole⟩ := valid
  refine gives_index.mpr ⟨by omega, gives_index.mpr ⟨by omega, ?_⟩⟩
  generalize (be16 packet[2] packet[3]).toNat = total
  split
  · exact gives_pure.mpr nofun
  rename_i fits
  simp only [Bool.or_eq_true, decide_eq_true_eq, not_or, Nat.not_lt] at fits
  refine gives_slice.mpr ⟨⟨Nat.zero_le _, fits.2⟩, gives_pure.mpr fun other found => ?_⟩
  cases found
  have kept : headerLen (packet.take total) = headerLen packet := by
    unfold headerLen
    rw [headD_eq_head?_getD, headD_eq_head?_getD, head?_take, if_neg (by omega)]
  have size : (packet.take total).length = total := length_take_of_le fits.2
  rw [Nat.sub_zero, drop_zero]
  refine ⟨?_, ?_, ?_⟩
  · rw [size]
    omega
  · rw [kept]
    exact least
  · rw [kept, size]
    exact fits.1

/-- What comes after is about every packet the frame may carry. -/
theorem gives_ipv4 {rest : Option Bytes → Checked β} (without : Gives (rest none) post)
    (each : ∀ packet, ipv4 frame = .ok (some packet) → Carries frame packet →
      Gives (rest (some packet)) post) : Gives (ipv4 frame >>= rest) post := by
  obtain ⟨found, result, carries⟩ := ipv4_gives frame
  rw [result, bind_ok]
  cases found with
  | none => exact without
  | some packet => exact each packet result (carries packet rfl)

theorem ipv6_gives (frame : Bytes) : Gives (ipv6 frame) fun found =>
    ∀ packet, found = some packet → 40 ≤ packet.length ∧ 14 + packet.length ≤ frame.length := by
  unfold ipv6
  refine gives_ask nofun fun packet rest => ?_
  obtain ⟨long, same⟩ := onward_eq_some rest
  have length : packet.length = frame.length - 14 := by
    rw [same, length_drop]
  split
  · rename_i whole
    refine gives_index.mpr ⟨by omega, gives_pure.mpr fun other found => ?_⟩
    split at found
    · cases found
      exact ⟨whole, by omega⟩
    · cases found
  · exact gives_ok.mpr nofun

theorem gives_ipv6 {rest : Option Bytes → Checked β} (without : Gives (rest none) post)
    (each : ∀ packet, 40 ≤ packet.length → 14 + packet.length ≤ frame.length →
      Gives (rest (some packet)) post) : Gives (ipv6 frame >>= rest) post := by
  obtain ⟨found, result, whole⟩ := ipv6_gives frame
  rw [result, bind_ok]
  cases found with
  | none => exact without
  | some packet => exact each packet (whole packet rfl).1 (whole packet rfl).2

theorem gives_addr6 {bytes : Bytes} {place : Nat} {rest : Ipv6Addr → Checked β}
    (inside : place + 16 ≤ bytes.length) (each : ∀ addr, Gives (rest addr) post) :
    Gives (unwrap (ipv6At bytes place) >>= rest) post := by
  unfold ipv6At between
  rw [if_pos ⟨by omega, inside⟩]
  dsimp only
  rw [dif_pos (by rw [length_take, length_drop]; omega)]
  exact gives_unwrap.mpr ⟨_, rfl, each _⟩

/-! ## Frames that are made -/

variable (dstMac : Bytes)

theorem ipv4Frame_safe (src dst : Ipv4Addr) (proto ttl : UInt8)
    (payload : Bytes) : Safe (ipv4Frame dstMac src dst proto ttl payload) := by
  unfold ipv4Frame
  dsimp only
  simp only [safe_iff, gives_slice, gives_paste, gives_pure, and_true]
  simp only [toBe, Ipv4Addr.octets, length_append, length_cons, length_nil]
  omega

theorem udpFrame_safe (src dst : Ipv4Addr) (srcPort dstPort : UInt16)
    (payload : Bytes) : Safe (udpFrame dstMac src dst srcPort dstPort payload) := by
  unfold udpFrame
  dsimp only
  rw [safe_iff, gives_paste]
  refine ⟨?_, safe_iff.mp (ipv4Frame_safe _ _ _ _ _ _)⟩
  simp [toBe]

theorem icmp6Frame_safe (dst : Ipv6Addr) (hopLimit : UInt8) {icmp : Bytes}
    (long : 4 ≤ icmp.length) : Safe (icmp6Frame dstMac dst hopLimit icmp) := by
  unfold icmp6Frame
  simp only [safe_iff, gives_put, gives_paste, gives_pure, and_true, length_set]
  simp only [toBe, length_cons, length_nil]
  omega

theorem icmpErrorFrame_safe (src : Ipv4Addr) (kind code : UInt8) (quote : Bytes) :
    Safe (icmpErrorFrame src kind code quote) := by
  unfold icmpErrorFrame
  dsimp only
  rw [safe_iff, gives_paste]
  refine ⟨?_, safe_iff.mp (ipv4Frame_safe _ _ _ _ _ _)⟩
  simp [toBe]

/-- What is made is returned. -/
theorem safe_then {α : Type} {run : Checked α} (safe : Safe run) (make : α → β) :
    Gives (run >>= fun value => (pure (make value) : Checked β)) fun _ => True := by
  obtain ⟨value, result⟩ := safe
  rw [result, bind_ok]
  exact gives_pure.mpr trivial

/-! ## Handlers -/

theorem arpReply_safe (frame : Bytes) : Safe (arpReply frame) := by
  refine safe_iff.mpr (gives_ask trivial fun arp found => ?_)
  have length := (between_eq_some found).2.2.2
  simp only [gives_slice, gives_pure, and_true]
  omega

theorem dhcpKind_safe (bootp : Bytes) (turns place : Nat) (kind : Option UInt8) :
    Safe (dhcpKind bootp turns place kind) := by
  induction turns generalizing place kind with
  | zero => exact ⟨kind, rfl⟩
  | succ turns ih =>
    unfold dhcpKind
    split
    · grind [safe_iff, gives_index, gives_pure]
    · exact ⟨kind, rfl⟩

theorem dhcpReply_safe (frame : Bytes) : Safe (dhcpReply frame) := by
  refine safe_iff.mpr (gives_ipv4 (gives_pure.mpr trivial) fun packet _ carries => ?_)
  dsimp only
  rw [carries.headerLen_ok, bind_ok]
  refine gives_ask trivial fun udp _ => gives_ask trivial fun bootp _ => ?_
  split
  · exact gives_ok.mpr trivial
  rename_i long
  rw [Nat.not_lt] at long
  refine gives_index.mpr ⟨by omega, ?_⟩
  split
  · exact gives_pure.mpr trivial
  refine gives_slice.mpr ⟨⟨by decide, long⟩, ?_⟩
  split
  · exact gives_pure.mpr trivial
  refine gives_slice.mpr ⟨⟨by decide, by omega⟩, ?_⟩
  refine gives_index.mpr ⟨by omega, ?_⟩
  refine gives_slice.mpr ⟨⟨by decide, by omega⟩, ?_⟩
  obtain ⟨kind, walked⟩ := dhcpKind_safe bootp bootp.length 240 none
  rw [walked, bind_ok]
  exact gives_ask trivial fun reply _ => safe_then (udpFrame_safe _ _ _ _ _ _) some

/-- An echo to the gateway is turned around if it has room for its checksum. -/
theorem echoReplyLocal_safe : Safe (echoReplyLocal frame) ↔
    ∀ packet, ipv4 frame = .ok (some packet) → headerLen packet + 4 ≤ packet.length := by
  obtain ⟨found, result, carries⟩ := ipv4_gives frame
  unfold echoReplyLocal
  rw [result, bind_ok]
  cases found with
  | none => exact iff_of_true ⟨none, rfl⟩ nofun
  | some packet =>
    have whole := carries packet rfl
    have inside := whole.inside
    have long := whole.long
    dsimp only
    rw [whole.headerLen_ok, bind_ok]
    simp only [safe_iff, gives_tail, gives_put, gives_paste, gives_slice, length_set, length_drop]
    constructor
    · grind
    intro room
    have enough := room packet rfl
    refine ⟨by omega, by omega, by omega, by omega, ?_, ⟨by decide, by omega⟩, ?_⟩
    · simp only [toBe, length_cons, length_nil]
      omega
    · refine gives_addr (by omega) fun dst => gives_addr (by omega) fun src => ?_
      exact safe_then (ipv4Frame_safe _ _ _ _ _ _) some

variable (frame)

theorem timeExceeded_safe : Safe (timeExceeded frame) := by
  refine safe_iff.mpr (gives_ipv4 (gives_pure.mpr trivial) fun packet _ carries => ?_)
  dsimp only
  rw [carries.headerLen_ok, bind_ok]
  exact gives_ask trivial fun quote _ => safe_then (icmpErrorFrame_safe _ _ _ _) some

theorem neighbourAdvertisement_safe : Safe (neighbourAdvertisement frame) := by
  refine safe_iff.mpr (gives_ipv6 (gives_pure.mpr trivial) fun packet long inside => ?_)
  refine gives_slice.mpr ⟨⟨by decide, by omega⟩, gives_addr6 (by omega) fun src => ?_⟩
  refine safe_then (icmp6Frame_safe _ _ _ ?_) some
  simp

theorem echo6ReplyLocal_safe : Safe (echo6ReplyLocal frame) := by
  refine safe_iff.mpr (gives_ipv6 (gives_pure.mpr trivial) fun packet long inside => ?_)
  refine gives_ask trivial fun icmp _ => ?_
  split
  · exact gives_ok.mpr trivial
  rename_i enough
  rw [Nat.not_lt] at enough
  refine gives_put.mpr ⟨by omega, gives_slice.mpr ⟨⟨by decide, by omega⟩, ?_⟩⟩
  refine gives_addr6 (by omega) fun src => safe_then (icmp6Frame_safe _ _ _ ?_) some
  rw [length_set]
  omega

theorem forwardEcho_safe : Safe (forwardEcho frame) := by
  refine safe_iff.mpr (gives_ipv4 (gives_pure.mpr trivial) fun packet _ carries => ?_)
  have long := carries.long
  dsimp only
  rw [carries.headerLen_ok, bind_ok]
  refine gives_tail.mpr ⟨carries.whole, ?_⟩
  split
  · exact gives_pure.mpr trivial
  · exact gives_index.mpr ⟨by omega, gives_addr (by omega) fun dst => gives_pure.mpr trivial⟩

theorem forwardEcho6_safe : Safe (forwardEcho6 frame) := by
  refine safe_iff.mpr (gives_ipv6 (gives_pure.mpr trivial) fun packet long _ => ?_)
  refine gives_ask trivial fun icmp _ => ?_
  split
  · exact gives_ok.mpr trivial
  · exact gives_addr6 (by omega) fun dst => gives_pure.mpr trivial

variable {frame}

/-- A probe is sent on if it has any time to live. -/
theorem send_safe (probes : Probes) (now : Nat)
    (living : ∀ packet, ipv4 frame = .ok (some packet) → packet[8]? ≠ some 0) :
    Safe (probes.send now frame) := by
  refine safe_iff.mpr (gives_ipv4 (gives_pure.mpr trivial) fun packet result carries => ?_)
  have long := carries.long
  dsimp only
  rw [carries.headerLen_ok, bind_ok]
  refine gives_ask trivial fun udp found => gives_addr (by omega) fun dst => ?_
  obtain ⟨_, inside, _, length⟩ := between_eq_some found
  simp only [gives_index]
  refine ⟨by omega, by omega, by omega, by omega, gives_tail.mpr ⟨inside, ?_⟩⟩
  refine gives_ask trivial fun room _ => gives_slice.mpr ⟨⟨by omega, inside⟩, ?_⟩
  have eighth : 8 < packet.length := by omega
  refine gives_index.mpr ⟨eighth, ?_⟩
  rw [if_neg]
  · exact gives_pure.mpr trivial
  · grind

/-! ## Classification -/

theorem classifyArp_gives (frame : Bytes) : Gives (classifyArp frame) (· ≠ some .udpProbe) := by
  refine gives_ask nofun fun arp found => ?_
  have length := (between_eq_some found).2.2.2
  refine gives_slice.mpr ⟨⟨by decide, by omega⟩, gives_addr (by omega) fun target => ?_⟩
  refine gives_pure.mpr fun same => ?_
  split at same <;> cases same

/-- What UDP can be: a probe has more than one to live. -/
theorem classifyUdp_gives (long : 20 ≤ packet.length) (ihl : Nat) :
    Gives (classifyUdp packet ihl) (· = some .udpProbe → packet[8]? ≠ some 0) := by
  refine gives_ask (fun same => by cases same) fun udp found => ?_
  have length := (between_eq_some found).2.2.2
  simp only [gives_index]
  refine ⟨by omega, by omega, by omega, by omega, ?_⟩
  split
  · exact gives_pure.mpr fun same => by cases same
  refine gives_addr (by omega) fun dst => ?_
  split
  · exact gives_pure.mpr fun same => by cases same
  have eighth : 8 < packet.length := by omega
  refine gives_index.mpr ⟨eighth, gives_pure.mpr fun probe zero => ?_⟩
  rw [getElem?_eq_getElem eighth, Option.some.injEq] at zero
  rw [zero] at probe
  exact absurd probe (by decide)

theorem classifyIcmp_gives (long : 20 ≤ packet.length) (ihl : Nat) :
    Gives (classifyIcmp packet ihl) (· ≠ some .udpProbe) := by
  refine gives_ask nofun fun icmp _ => gives_ask nofun fun kind _ => ?_
  split
  · exact gives_ok.mpr nofun
  refine gives_addr (by omega) fun dst => ?_
  split
  · exact gives_pure.mpr nofun
  · refine gives_index.mpr ⟨by omega, gives_pure.mpr fun same => ?_⟩
    split at same <;> cases same

theorem classifyIcmp6_gives (long : 40 ≤ packet.length) :
    Gives (classifyIcmp6 packet) (· ≠ some .udpProbe) := by
  refine gives_ask nofun fun icmp _ => gives_ask nofun fun kind _ => ?_
  split
  · refine gives_ask nofun fun target _ => gives_ok.mpr fun same => ?_
    split at same <;> cases same
  split
  · refine gives_addr6 (by omega) fun dst => gives_pure.mpr fun same => ?_
    split at same <;> cases same
  · split
    · exact gives_ok.mpr nofun
    · exact gives_ok.mpr nofun

/-- A frame can always be told, and what is told a probe has some time to live. -/
theorem classify_gives (frame : Bytes) : Gives (classify frame) (· = some .udpProbe →
    ∀ packet, ipv4 frame = .ok (some packet) → packet[8]? ≠ some 0) := by
  refine gives_ask nofun fun word _ => ?_
  split
  · exact (classifyArp_gives frame).mono fun seen other probe => absurd probe other
  split
  · refine gives_ipv4 (gives_pure.mpr nofun) fun packet result carries => ?_
    have long := carries.long
    dsimp only
    rw [carries.headerLen_ok, bind_ok]
    refine gives_index.mpr ⟨by omega, ?_⟩
    split
    · refine (classifyUdp_gives long _).mono fun seen living probe other same => ?_
      rw [result] at same
      cases same
      exact living probe
    · split
      · exact (classifyIcmp_gives long _).mono fun seen other probe => absurd probe other
      · exact gives_pure.mpr nofun
  · split
    · refine gives_ipv6 (gives_pure.mpr nofun) fun packet long _ => ?_
      refine gives_index.mpr ⟨by omega, ?_⟩
      split
      · exact gives_pure.mpr nofun
      · split
        · exact (classifyIcmp6_gives long).mono fun seen other probe => absurd probe other
        · exact gives_pure.mpr nofun
    · exact gives_ok.mpr nofun

/-! ## The card -/

/-- An echo request to the gateway that ends before its checksum does. -/
def ShortEcho (frame : Bytes) : Prop :=
  classify frame = .ok (some .icmpLocal) ∧
    ∃ packet, ipv4 frame = .ok (some packet) ∧ packet.length < headerLen packet + 4

theorem answer_safe_iff (responder : Responder) (now : Nat) (frame : Bytes) :
    Safe (responder.answer now frame) ↔ ¬ ShortEcho frame := by
  obtain ⟨seen, told, living⟩ := classify_gives frame
  have other : seen ≠ some .icmpLocal → ¬ ShortEcho frame := by
    rintro different ⟨same, _⟩
    rw [told] at same
    exact different (Except.ok.inj same)
  unfold Responder.answer
  rw [told, bind_ok, safe_iff]
  cases seen with
  | none =>
    refine iff_of_true ?_ (other (by decide))
    refine gives_bind.mpr (gives_ipv4 ?_ fun packet _ carries => ?_)
    · exact gives_pure.mpr (gives_pure.mpr trivial)
    · have long := carries.long
      exact gives_index.mpr ⟨by omega, gives_pure.mpr (gives_pure.mpr trivial)⟩
  | some kind =>
    cases kind with
    | icmpLocal =>
      constructor
      · rintro safe ⟨_, packet, carried, short⟩
        obtain ⟨reply, result, _⟩ := gives_bind.mp safe
        have room := echoReplyLocal_safe.mp ⟨reply, result⟩ packet carried
        omega
      · intro long
        refine safe_then (echoReplyLocal_safe.mpr fun packet carried => ?_) _
        by_contra short
        exact long ⟨told, packet, carried, Nat.not_le.mp short⟩
    | arp => exact iff_of_true (safe_then (arpReply_safe frame) _) (other (by decide))
    | dhcp => exact iff_of_true (safe_then (dhcpReply_safe frame) _) (other (by decide))
    | expired => exact iff_of_true (safe_then (timeExceeded_safe frame) _) (other (by decide))
    | icmpForward =>
      refine iff_of_true ?_ (other (by decide))
      dsimp only
      split
      · exact safe_then (forwardEcho_safe frame) _
      · exact gives_pure.mpr trivial
    | udpProbe =>
      refine iff_of_true ?_ (other (by decide))
      dsimp only
      split
      · exact gives_pure.mpr trivial
      · obtain ⟨result, sent⟩ := send_safe _ now (living rfl)
        rw [sent, bind_ok]
        split <;> exact gives_pure.mpr trivial
    | neighbourSolicit =>
      exact iff_of_true (safe_then (neighbourAdvertisement_safe frame) _) (other (by decide))
    | icmp6Local => exact iff_of_true (safe_then (echo6ReplyLocal_safe frame) _) (other (by decide))
    | icmp6Forward =>
      refine iff_of_true ?_ (other (by decide))
      dsimp only
      split
      · exact safe_then (forwardEcho6_safe frame) _
      · exact gives_pure.mpr trivial
    | ipv6Housekeeping => exact iff_of_true (gives_pure.mpr trivial) (other (by decide))

theorem echoReplyFrame_safe {datagram : Bytes} (whole : 20 ≤ datagram.length) :
    Safe (echoReplyFrame datagram) := by
  refine safe_iff.mpr (gives_ask trivial fun first _ => ?_)
  split
  · exact gives_ok.mpr trivial
  rw [ipv4HeaderLen_ok (by omega), bind_ok]
  refine gives_addr (by omega) fun src => gives_ask trivial fun icmp _ => ?_
  split
  · exact gives_ok.mpr trivial
  refine gives_index.mpr ⟨by omega, ?_⟩
  split
  · exact gives_pure.mpr trivial
  · exact safe_then (ipv4Frame_safe _ _ _ _ _ _) some

/-- A quoted header is made the guest's if it reaches as far as its addresses. -/
theorem guestQuote_safe {inner : Bytes} {ihl : Nat} (inside : ihl + 8 ≤ inner.length) :
    Safe (guestQuote inner ihl) ↔ 8 ≤ ihl := by
  unfold guestQuote
  rw [safe_iff, gives_slice]
  have length : ((inner.drop 0).take (ihl + 8 - 0)).length = ihl + 8 := by
    rw [drop_zero, Nat.sub_zero, length_take_of_le inside]
  generalize (inner.drop 0).take (ihl + 8 - 0) = quote at length
  rw [gives_paste, length]
  have octets : guest.octets.length = 4 := rfl
  rw [octets]
  constructor
  · rintro ⟨_, room, _⟩
    omega
  intro room
  refine ⟨⟨Nat.zero_le _, inside⟩, by omega, ?_⟩
  have pasted : (quote.take 12 ++ guest.octets ++ quote.drop (12 + 4)).length = ihl + 8 := by
    grind
  generalize quote.take 12 ++ guest.octets ++ quote.drop (12 + 4) = made at pasted
  simp only [gives_put, gives_slice, length_set, pasted]
  refine ⟨by omega, by omega, ⟨Nat.zero_le _, by omega⟩, ?_⟩
  unfold paste
  rw [if_pos]
  · exact gives_ok.mpr trivial
  · rw [length_set, length_set, pasted]
    simp only [toBe, length_cons, length_nil]
    omega

/-- A quoted echo under a header of less than eight bytes. -/
def ShortQuote (inner : Bytes) : Prop :=
  20 ≤ inner.length ∧ inner.headD 0 >>> 4 = 4 ∧ inner[9]? = some protoIcmp ∧
    inner[headerLen inner]? = some 8 ∧ headerLen inner < 8

theorem quotedError_safe_iff (probes : Option Probes) (now : Nat) (src : Ipv4Addr)
    (kind code : UInt8) (inner : Bytes) :
    Safe (quotedError probes now src kind code inner) ↔ ¬ ShortQuote inner := by
  unfold quotedError
  split
  · rename_i short
    exact iff_of_true ⟨none, rfl⟩ fun quote => absurd quote.1 (Nat.not_le.mpr short)
  rename_i long
  rw [Nat.not_lt] at long
  have nonempty : 0 < inner.length := by omega
  have start : inner[0] = inner.headD 0 := by
    cases inner with
    | nil => cases long
    | cons first rest => rfl
  rw [index_of_lt nonempty, bind_ok, start]
  split
  · rename_i version
    exact iff_of_true ⟨none, rfl⟩ fun quote => absurd quote.2.1 version
  rename_i version
  rw [ipv4HeaderLen_ok nonempty, bind_ok]
  cases found : between inner (headerLen inner) (headerLen inner + 8) with
  | none =>
    refine iff_of_true ⟨none, rfl⟩ fun quote => ?_
    have short := quote.2.2.2.2
    unfold between at found
    rw [if_pos ⟨Nat.le_add_right _ _, by omega⟩] at found
    cases found
  | some first8 =>
    obtain ⟨_, inside, part, length⟩ := between_eq_some found
    obtain ⟨dst, named⟩ := ipv4Addr_safe (show 16 + 4 ≤ inner.length by omega)
    have ninth : 9 < inner.length := by omega
    have beyond : headerLen inner < inner.length := by omega
    have eight : 0 < first8.length := by omega
    have first : first8[0] = inner[headerLen inner] := by grind
    rw [ask_some, ipv4Dst, named, bind_ok, index_of_lt ninth, bind_ok, index_of_lt eight, bind_ok,
      first]
    have quoted : ShortQuote inner ↔ (inner[9] = protoIcmp ∧
        inner[headerLen inner] = 8) ∧ headerLen inner < 8 := by
      unfold ShortQuote
      rw [getElem?_eq_getElem ninth, getElem?_eq_getElem beyond]
      simp only [Option.some.injEq, long, not_not.mp version, true_and, and_assoc]
    rw [quoted]
    split
    · rename_i echo
      rw [Bool.and_eq_true, decide_eq_true_eq, decide_eq_true_eq] at echo
      rw [and_iff_right echo, Nat.not_lt, ← guestQuote_safe inside, safe_iff, gives_bind]
      constructor
      · rintro ⟨quote, result, _⟩
        exact ⟨quote, result⟩
      · rintro ⟨quote, result⟩
        exact ⟨quote, result, safe_then (icmpErrorFrame_safe _ _ _ _) some⟩
    · rename_i other
      rw [Bool.and_eq_true, decide_eq_true_eq, decide_eq_true_eq] at other
      refine iff_of_true ?_ fun quote => other quote.1
      by_cases udp : inner[9] = protoUdp
      · rw [if_pos udp, bind_ok, safe_iff]
        simp only [gives_index]
        refine ⟨by omega, by omega, by omega, ?_⟩
        exact gives_ask trivial fun quote _ => safe_then (icmpErrorFrame_safe _ _ _ _) some
      · rw [if_neg udp]
        exact ⟨none, rfl⟩

/-- An error whose quoted packet is such an echo. -/
def QuotesShort (datagram : Bytes) : Prop :=
  datagram.headD 0 >>> 4 = 4 ∧ headerLen datagram ≤ datagram.length ∧
    ((datagram.drop (headerLen datagram)).headD 0 = 3 ∨
      (datagram.drop (headerLen datagram)).headD 0 = 11) ∧
    ShortQuote ((datagram.drop (headerLen datagram)).drop 8)

theorem errorFrame_safe_iff (probes : Option Probes) (now : Nat) {datagram : Bytes}
    (whole : 20 ≤ datagram.length) :
    Safe (errorFrame probes now datagram) ↔ ¬ QuotesShort datagram := by
  obtain ⟨src, named⟩ := ipv4Addr_safe (show 12 + 4 ≤ datagram.length by omega)
  have header := ipv4HeaderLen_ok (show 0 < datagram.length by omega)
  obtain ⟨first, start⟩ : ∃ first, datagram.head? = some first := by
    cases datagram with
    | nil => cases whole
    | cons first rest => exact ⟨first, rfl⟩
  have starts : datagram.headD 0 = first := by
    rw [headD_eq_head?_getD, start]
    rfl
  unfold errorFrame QuotesShort
  rw [start, ask_some, starts]
  split
  · grind [Safe]
  rename_i version
  rw [header, bind_ok, ipv4Src, named, bind_ok]
  cases found : onward datagram (headerLen datagram) with
  | none =>
    refine iff_of_true ⟨none, rfl⟩ fun quote => ?_
    unfold onward at found
    rw [if_pos quote.2.1] at found
    cases found
  | some icmp =>
    obtain ⟨inside, rfl⟩ := onward_eq_some found
    rw [ask_some]
    generalize datagram.drop (headerLen datagram) = icmp
    -- A message that is too short to quote anything.
    have short : icmp.length < 28 → ¬ ShortQuote (icmp.drop 8) := by
      rintro few ⟨long, _⟩
      rw [length_drop] at long
      omega
    cases icmp with
    | nil => exact iff_of_true ⟨none, rfl⟩ fun quote => short (by decide) quote.2.2.2
    | cons kind rest =>
      cases rest with
      | nil => exact iff_of_true ⟨none, rfl⟩ fun quote => short (by simp) quote.2.2.2
      | cons code rest =>
        change Safe (if kind ≠ 3 && kind ≠ 11 then _ else _) ↔ _
        by_cases told : kind = 3 ∨ kind = 11
        · rw [if_neg (by
            rw [Bool.and_eq_true, decide_eq_true_eq, decide_eq_true_eq]
            exact fun neither => told.elim neither.1 neither.2)]
          rw [show (first >>> 4 = 4 ∧ headerLen datagram ≤ datagram.length ∧
            ((kind :: code :: rest).headD 0 = 3 ∨ (kind :: code :: rest).headD 0 = 11) ∧
              ShortQuote ((kind :: code :: rest).drop 8)) ↔
              ShortQuote ((kind :: code :: rest).drop 8) from
            ⟨fun quote => quote.2.2.2, fun quote => ⟨not_not.mp version, inside, told, quote⟩⟩]
          cases quoted : onward (kind :: code :: rest) 8 with
          | none =>
            refine iff_of_true ⟨none, rfl⟩ (short ?_)
            unfold onward at quoted
            split at quoted
            · cases quoted
            · omega
          | some inner =>
            obtain ⟨_, rfl⟩ := onward_eq_some quoted
            rw [ask_some]
            exact quotedError_safe_iff _ _ _ _ _ _
        · grind [Safe]

/-- For every frame the guest transmits, in every state of the responder, an answer is made
without stopping the program unless it is a short echo to the gateway; and for every datagram
with a whole outer header so is what the guest is told of it, unless it is an error that
quotes an echo under a short header. -/
theorem card_safe_iff (responder : Responder) (now : Nat) (frame : Bytes)
    (probes : Option Probes) (datagram : Bytes) (whole : 20 ≤ datagram.length) :
    (Safe (responder.answer now frame) ↔ ¬ ShortEcho frame) ∧ Safe (echoReplyFrame datagram) ∧
      (Safe (errorFrame probes now datagram) ↔ ¬ QuotesShort datagram) :=
  ⟨answer_safe_iff responder now frame, echoReplyFrame_safe whole,
    errorFrame_safe_iff probes now whole⟩

namespace Short

/-- An echo request to the gateway, with so many bytes after its kind. -/
def echo (more : Nat) : Bytes :=
  gatewayMac ++ guestMac ++ [8, 0] ++
    [0x45, 0, 0, 21 + UInt8.ofNat more, 0, 0, 0, 0, 64, 1, 0, 0, 192, 168, 127, 2, 192, 168, 127,
      1] ++
    8 :: List.replicate more 0

/-- Time exceeded, quoting an echo whose header is said to have four bytes. -/
def error : Bytes :=
  [0x45, 0, 0, 48, 0, 0, 0, 0, 64, 1, 0, 0, 10, 0, 0, 1, 192, 168, 127, 2] ++
    [11, 0, 0, 0, 0, 0, 0, 0] ++
    [0x41, 0, 0, 20, 8, 0, 0, 0, 64, 1, 0, 0, 192, 168, 127, 2, 10, 0, 0, 1]

/-- Both stop the program. -/
theorem short_packets_stop :
    Responder.answer ⟨true, true, none⟩ 0 (echo 0) = .error .index ∧
      errorFrame none 0 error = .error .slice := ⟨rfl, rfl⟩

/-- A whole echo is answered, and so is the error taken for a reply. -/
theorem card_safe_iff_whole :
    Safe (Responder.answer ⟨true, true, none⟩ 0 (echo 7)) ∧ Safe (echoReplyFrame error) := by
  have card := card_safe_iff ⟨true, true, none⟩ 0 (echo 7) none error (by decide)
  refine ⟨card.1.mpr ?_, card.2.1⟩
  rintro ⟨_, packet, carried, short⟩
  have same : ipv4 (echo 7) = .ok (some ((echo 7).drop 14)) := rfl
  rw [same] at carried
  cases carried
  exact absurd short (by decide)

end Short

end Lighter.Net
