import Lighter.Net.ResponderSafety

/-!
# The options of a DHCP message

The walk takes a code and a length for every option. That is the layout of all but the pad,
which is one byte. Up to the first pad the walk finds the message type that the options name;
there it takes the next byte for a length and skips as many, so that the message is answered
rightly exactly if what it comes to then makes no difference.
-/

namespace Lighter.Net

open Checked List

/-- What stands in the options field before its end. -/
inductive DhcpOption where
  | pad
  | carrying (code : UInt8) (data : Bytes)

namespace DhcpOption

/-- How an option stands in the field. -/
def bytes : DhcpOption → Bytes
  | .pad => [0]
  | .carrying code data => code :: UInt8.ofNat data.length :: data

/-- The codes of the pad and of the end are no option's, and a length has one byte. -/
def Proper : DhcpOption → Prop
  | .pad => True
  | .carrying code data => code ≠ 0 ∧ code ≠ 255 ∧ data.length < 256

/-- The message type, where it is named. -/
def kind : DhcpOption → Option UInt8
  | .carrying code [kind] => if code = 53 then some kind else none
  | _ => none

end DhcpOption

/-- The message type that the options name last, or else the one before them. -/
def namedKind (options : List DhcpOption) (before : Option UInt8) : Option UInt8 :=
  options.foldl (fun found option => option.kind <|> found) before

/-- After the options the field is over, or there is an end option and anything. -/
def Ends (tail : Bytes) : Prop := tail = [] ∨ ∃ rest, tail = 255 :: rest

/-- What a reading by codes and lengths finds, that begins with a type found before. -/
def strided (found : Option UInt8) : Bytes → Option UInt8
  | code :: len :: rest =>
      if code = 255 then found
      else strided (if code = 53 && len = 1 then rest.head? else found) (rest.drop len.toNat)
  | _ => found
termination_by field => field.length

/-- The first pad makes no difference: nothing follows it, or what a reading finds that skips
as many bytes as the next one says has the reply that the options after the pad have. -/
def Synced (tail : Bytes) : List DhcpOption → Option UInt8 → Prop
  | [], _ => True
  | .carrying code data :: options, found =>
      Synced tail options ((DhcpOption.carrying code data).kind <|> found)
  | .pad :: options, found =>
      ∀ len rest, options.flatMap (·.bytes) ++ tail = len :: rest →
        (strided found (rest.drop len.toNat)).bind replyKind =
          (namedKind options found).bind replyKind

/-- Where there is no pad, there is nothing to make a difference. -/
theorem synced_of_no_pad {options : List DhcpOption} (tail : Bytes) (found : Option UInt8)
    (solid : .pad ∉ options) : Synced tail options found := by
  induction options generalizing found with
  | nil => trivial
  | cons option options ih =>
    obtain ⟨first, others⟩ := not_or.mp (mem_cons.not.mp solid)
    cases option with
    | pad => exact absurd rfl first
    | carrying code data => exact ih _ others

variable {bootp : Bytes} {turns place : Nat} {found : Option UInt8}

/-- Fewer than two bytes have no code and length. -/
theorem strided_short {field : Bytes} (short : field.length < 2) : strided found field = found := by
  cases field with
  | nil =>
    rw [strided]
    rintro _ _ _ ⟨⟩
  | cons last rest =>
    cases rest with
    | nil =>
      rw [strided]
      rintro _ _ _ ⟨⟩
    | cons len rest => simp at short

/-- The walk is that reading, and every turn of it moves on, so that there are enough. -/
theorem dhcpKind_strided (enough : bootp.length ≤ place + turns) :
    dhcpKind bootp turns place found = .ok (strided found (bootp.drop place)) := by
  induction turns generalizing place found with
  | zero =>
    rw [drop_eq_nil_of_le (show bootp.length ≤ place from enough), strided_short (by decide)]
    rfl
  | succ turns ih =>
    unfold dhcpKind
    split
    · rename_i inside
      have first : place < bootp.length := Nat.lt_of_succ_lt inside
      rw [index_of_lt inside, index_of_lt first, drop_eq_getElem_cons first,
        drop_eq_getElem_cons inside, strided, head?_drop, drop_drop, bind_ok, bind_ok]
      split
      · rfl
      · rw [ih (by omega), Nat.add_assoc place, Nat.add_assoc place]
    · rename_i beyond
      have short : (bootp.drop place).length < 2 := by
        rw [length_drop]
        omega
      rw [strided_short short]

/-- What the walk takes from an option is the message type it names. -/
theorem strided_carrying {code : UInt8} {data : Bytes} (rest : Bytes)
    (proper : (DhcpOption.carrying code data).Proper) :
    strided found ((DhcpOption.carrying code data).bytes ++ rest) =
      strided ((DhcpOption.carrying code data).kind <|> found) rest := by
  obtain ⟨_, inside, short⟩ := proper
  have width : (UInt8.ofNat data.length).toNat = data.length := by
    rw [UInt8.toNat_ofNat', Nat.mod_eq_of_lt short]
  have length : UInt8.ofNat data.length = 1 ↔ data.length = 1 := by
    rw [← UInt8.toNat_inj, width]
    rfl
  rw [DhcpOption.bytes, cons_append, cons_append, strided, if_neg inside, width, drop_left']
  · congr 1
    simp only [length]
    match data with
    | [] => simp [DhcpOption.kind]
    | [kind] => by_cases typed : code = 53 <;> simp [DhcpOption.kind, typed]
    | first :: second :: more => simp [DhcpOption.kind]
  · rfl

/-- The walk comes to what the options name, as far as replies go, exactly if the first pad
makes no difference. -/
theorem synced_iff {tail : Bytes} (ends : Ends tail) (options : List DhcpOption)
    (proper : ∀ option ∈ options, option.Proper) (found : Option UInt8) :
    Synced tail options found ↔
      (strided found (options.flatMap (·.bytes) ++ tail)).bind replyKind =
        (namedKind options found).bind replyKind := by
  induction options generalizing found with
  | nil =>
    refine iff_of_true trivial ?_
    rw [flatMap_nil, nil_append]
    rcases ends with rfl | ⟨rest, rfl⟩
    · rw [strided_short (by decide)]
      rfl
    · cases rest with
      | nil =>
        rw [strided_short (by decide)]
        rfl
      | cons next rest =>
        rw [strided, if_pos rfl]
        rfl
  | cons option options ih =>
    have others := fun option later => proper option (mem_cons_of_mem _ later)
    rw [flatMap_cons, append_assoc]
    cases option with
    | carrying code data =>
      rw [strided_carrying _ (proper _ mem_cons_self)]
      exact ih others _
    | pad =>
      rw [Synced, DhcpOption.bytes, singleton_append]
      change _ ↔ _ = (namedKind options found).bind replyKind
      cases field : options.flatMap (·.bytes) ++ tail with
      | nil =>
        have last : options = [] := by
          cases options with
          | nil => rfl
          | cons option others => cases option <;> simp [DhcpOption.bytes] at field
        subst last
        refine iff_of_true nofun ?_
        rw [strided_short (by decide)]
        rfl
      | cons len rest =>
        rw [strided, if_neg (by decide), if_neg (by simp)]
        constructor
        · exact fun synced => synced len rest rfl
        · rintro same _ _ ⟨⟩
          exact same

/-- The message that a frame bears. -/
def Bears (frame message : Bytes) : Prop :=
  ∃ packet udp, ipv4 frame = .ok (some packet) ∧ onward packet (headerLen packet) = some udp ∧
    onward udp 8 = some message

/-- What stands before the options of a client's message. -/
def Asks (head : Bytes) : Prop :=
  head.length = 240 ∧ head[0]? = some 1 ∧ (head.drop 236).take 4 = dhcpMagic

/-- The frame with a lease of a kind for the client that sent a message. -/
def leaseFrame (message : Bytes) (kind : UInt8) : Checked Bytes :=
  let broadcast := message[10]?.getD 0 &&& 0x80 != 0
  let chaddr := (message.drop 28).take 6
  udpFrame (if broadcast then replicate 6 0xff else chaddr) gateway
    (if broadcast then ⟨255, 255, 255, 255⟩ else guest) dhcpServerPort dhcpClientPort
    (dhcpLease ((message.drop 4).take 4) chaddr broadcast kind)

/-- The reply is the lease that answers the message type, and there is none if nothing does. -/
def Answers (message : Bytes) (kind : Option UInt8) (reply : Option Bytes) : Prop :=
  match kind.bind replyKind with
  | none => reply = none
  | some named => ∃ sent, reply = some sent ∧ leaseFrame message named = .ok sent

/-- A frame ends with the datagram it carries. -/
theorem udpFrame_suffix (mac : Bytes) (src dst : Ipv4Addr) (srcPort dstPort : UInt16)
    (payload : Bytes) : Gives (udpFrame mac src dst srcPort dstPort payload) (payload <:+ ·) := by
  unfold udpFrame
  refine gives_paste.mpr ⟨by simp [toBe], ?_⟩
  unfold ipv4Frame
  simp only [gives_paste, gives_slice, gives_pure]
  refine ⟨?_, ?_, IsSuffix.trans (suffix_append _ payload) (suffix_append _ _)⟩
  all_goals
    simp only [toBe, Ipv4Addr.octets, length_append, length_cons, length_nil]
    omega

/-- Datagrams of one length in the same frame are the same. -/
theorem udpFrame_inj {mac : Bytes} {src dst : Ipv4Addr} {srcPort dstPort : UInt16}
    {first second sent : Bytes} (one : udpFrame mac src dst srcPort dstPort first = .ok sent)
    (other : udpFrame mac src dst srcPort dstPort second = .ok sent)
    (length : first.length = second.length) : first = second := by
  obtain ⟨_, made, ending⟩ := udpFrame_suffix mac src dst srcPort dstPort first
  obtain ⟨_, again, late⟩ := udpFrame_suffix mac src dst srcPort dstPort second
  cases one.symm.trans made
  cases other.symm.trans again
  exact (suffix_of_suffix_length_le ending late length.le).eq_of_length length

/-- A lease says its kind, which does not change its length. -/
theorem dhcpLease_kind (xid chaddr : Bytes) (broadcast : Bool) (first second : UInt8) :
    (dhcpLease xid chaddr broadcast first).length =
        (dhcpLease xid chaddr broadcast second).length ∧
      (dhcpLease xid chaddr broadcast first = dhcpLease xid chaddr broadcast second →
        first = second) := by
  unfold dhcpLease
  constructor
  · simp only [length_append]
    rfl
  · simp only [append_left_inj, append_right_inj, cons.injEq, and_true, true_and]
    exact id

/-- So do the frames with leases for one client. -/
theorem leaseFrame_inj {message sent : Bytes} {first second : UInt8}
    (one : leaseFrame message first = .ok sent) (other : leaseFrame message second = .ok sent) :
    first = second := by
  unfold leaseFrame at one other
  obtain ⟨length, kind⟩ := dhcpLease_kind ((message.drop 4).take 4) ((message.drop 28).take 6)
    (message[10]?.getD 0 &&& 0x80 != 0) first second
  exact kind (udpFrame_inj one other length)

/-- A reply answers two message types exactly if they have the same answer. -/
theorem answers_iff {message : Bytes} {first second : Option UInt8} {reply : Option Bytes}
    (answers : Answers message first reply) :
    Answers message second reply ↔ first.bind replyKind = second.bind replyKind := by
  unfold Answers at *
  cases one : first.bind replyKind <;> cases other : second.bind replyKind <;>
    rw [one] at answers <;> dsimp only at answers ⊢
  · exact iff_of_true answers rfl
  · rw [answers]
    exact iff_of_false (by rintro ⟨_, ⟨⟩, _⟩) nofun
  · obtain ⟨sent, rfl, _⟩ := answers
    exact iff_of_false nofun nofun
  · obtain ⟨sent, rfl, made⟩ := answers
    constructor
    · rintro ⟨_, ⟨⟩, again⟩
      rw [leaseFrame_inj made again]
    · rintro ⟨⟩
      exact ⟨sent, rfl, made⟩

/-- There is a reply if the message type that the walk comes to has one. -/
theorem dhcpReply_answers {frame message : Bytes} (long : 240 ≤ message.length)
    (op : message[0]? = some 1) (magic : (message.drop 236).take 4 = dhcpMagic)
    (bears : Bears frame message) :
    Gives (dhcpReply frame) (Answers message (strided none (message.drop 240))) := by
  obtain ⟨packet, udp, carried, header, payload⟩ := bears
  obtain ⟨_, result, whole⟩ := ipv4_gives frame
  cases carried.symm.trans result
  unfold dhcpReply
  rw [carried, bind_ok]
  dsimp only
  rw [(whole packet rfl).headerLen_ok, bind_ok, header, ask_some, payload, ask_some,
    if_neg (Nat.not_lt.mpr long), index, op]
  dsimp only
  rw [bind_ok, if_neg (not_not.mpr rfl)]
  refine gives_slice.mpr ⟨⟨by decide, long⟩, ?_⟩
  rw [magic, if_neg (not_not.mpr rfl)]
  refine gives_slice.mpr ⟨⟨by decide, by omega⟩, gives_index.mpr ⟨by omega, ?_⟩⟩
  refine gives_slice.mpr ⟨⟨by decide, by omega⟩, ?_⟩
  rw [dhcpKind_strided (by omega), bind_ok]
  unfold Answers leaseFrame
  rw [getElem?_eq_getElem (by omega : 10 < message.length), Option.getD_some]
  cases (strided none (message.drop 240)).bind replyKind with
  | none => exact gives_ok.mpr rfl
  | some named =>
    obtain ⟨sent, made⟩ := udpFrame_safe _ _ _ _ _ _
    rw [ask_some, made, bind_ok]
    exact gives_pure.mpr ⟨sent, rfl, made⟩

/-- A frame with a client's message that has these options. -/
def asking (field : Bytes) : Bytes :=
  replicate 12 0 ++ [8, 0] ++ [0x45, 0, 1, 16] ++ replicate 16 0 ++ replicate 8 0 ++
    (1 :: replicate 235 0 ++ dhcpMagic ++ field)

end Lighter.Net
