import Lighter.Lib.History
import Lighter.Reactor.UdpFlows

/-!
# The agent's flows and the reactor's

What was said on the agent's stream decides which flows the agent has open. The law: they are
exactly the reactor's, a datagram is carried only on a flow that is open, and a flow is
opened only while its number is not in use.

The reactor notes a flow in its tables when it builds a batch, and the batch may then be
dropped; and it keeps its tables when a new agent stream takes the place of another. The law
holds throughout a run exactly if no batch that opens or closes a flow is dropped and no
agent stream is replaced while flows are open.
-/

namespace Lighter.Reactor

open Vsock History Frames Transition List Function Table UdpHost
open UdpHost (hear sweep takeDatagram)
open Docker (Published)

/-- Whether a flow is open after a word, by whether it was before. -/
def Word.mark (flow : UInt32) (before : Bool) : Word → Bool
  | .told frame =>
      if frame.flow = flow then
        match frame.kind with
        | .opening => true
        | .closing => false
        | .data => before
      else before
  | .heard closed => if closed = flow then false else before

/-- Whether a flow is open after everything said. -/
def openAfter (words : List Word) (flow : UInt32) : Bool := words.foldl (Word.mark flow) false

theorem openAfter_concat (words : List Word) (word : Word) (flow : UInt32) :
    openAfter (words ++ [word]) flow = word.mark flow (openAfter words flow) := by
  simp [openAfter]

/-- A datagram is carried on an open flow, and a flow opened whose number is free. -/
def saidInTurn : Word → List Word → Prop
  | .told frame, past =>
      (frame.kind = .data → openAfter past frame.flow = true) ∧
        (frame.kind = .opening → openAfter past frame.flow = false)
  | .heard _, _ => True

/-- The agent's open flows are the reactor's, and everything was said in turn. -/
structure Law {α : Type} (words : List Word) (flows : UInt32 → Option α) : Prop where
  agree : ∀ flow, openAfter words flow = (flows flow).isSome
  ordered : Lawful saidInTurn words

namespace Law

variable {α : Type} {words : List Word} {flows : UInt32 → Option α}

theorem nil : Law (α := α) [] fun _ => none := ⟨fun _ => rfl, lawful_nil saidInTurn⟩

variable (law : Law words flows)
include law

variable {others : UInt32 → Option α}

theorem congr
    (same : ∀ flow, (others flow).isSome = (flows flow).isSome) : Law words others :=
  ⟨fun flow => (law.agree flow).trans (same flow).symm, law.ordered⟩

/-- What was said decides which flows the reactor may have. -/
theorem congr_iff :
    Law words others ↔ ∀ flow, (others flow).isSome = (flows flow).isSome :=
  ⟨fun other flow => (other.agree flow).symm.trans (law.agree flow), law.congr⟩

variable {flow : UInt32}

theorem data (known : (flows flow).isSome = true)
    (payload : List UInt8) : Law (words ++ [.told ⟨flow, .data, payload⟩]) flows := by
  refine ⟨fun other => ?_, lawful_concat.mpr ⟨law.ordered, ?_, fun opening => ?_⟩⟩
  · rw [openAfter_concat, ← law.agree other]
    exact ite_self _
  · exact fun _ => (law.agree flow).trans known
  · cases opening

theorem opening (free : flows flow = none) (payload : List UInt8) (value : α) :
    Law (words ++ [.told ⟨flow, .opening, payload⟩]) (update flows flow (some value)) := by
  refine ⟨fun other => ?_, lawful_concat.mpr ⟨law.ordered, fun data => ?_, fun _ => ?_⟩⟩
  · rw [openAfter_concat]
    by_cases same : flow = other
    · subst same
      rw [update_self]
      exact if_pos rfl
    · rw [update_of_ne (Ne.symm same), ← law.agree other]
      exact if_neg same
  · cases data
  · rw [law.agree flow, free]
    rfl

/-- A flow closed by either side. -/
theorem closed {word : Word}
    (said : word = .heard flow ∨ ∃ payload, word = .told ⟨flow, .closing, payload⟩) :
    Law (words ++ [word]) (update flows flow none) := by
  have marks : ∀ other before, word.mark other before = if flow = other then false else before := by
    rcases said with rfl | ⟨payload, rfl⟩ <;> exact fun _ _ => rfl
  refine ⟨fun other => ?_, lawful_concat.mpr ⟨law.ordered, ?_⟩⟩
  · rw [openAfter_concat, marks]
    by_cases same : flow = other
    · subst same
      rw [update_self, if_pos rfl]
      rfl
    · rw [update_of_ne (Ne.symm same), if_neg same]
      exact law.agree other
  · rcases said with rfl | ⟨payload, rfl⟩
    · trivial
    constructor
    · intro data
      cases data
    · intro opening
      cases opening

/-- Several flows closed. -/
theorem closedAll (closing : List UInt32) :
    Law (words ++ (closing.map fun flow => UdpFrame.mk flow .closing []).map Word.told)
      fun flow => if flow ∈ closing then none else flows flow := by
  induction closing generalizing words flows with
  | nil =>
    rw [map_nil, map_nil, append_nil]
    exact law.congr fun flow => by rw [if_neg not_mem_nil]
  | cons first rest ih =>
    have one : Law (words ++ [.told ⟨first, .closing, []⟩]) (update flows first none) :=
      law.closed (Or.inr ⟨[], rfl⟩)
    have all := ih one
    rw [append_assoc] at all
    refine all.congr fun flow => ?_
    by_cases later : flow ∈ rest
    · rw [if_pos later, if_pos (mem_cons_of_mem _ later)]
    · grind

end Law

/-- The frames told among what was said. -/
def toldFrames (words : List Word) : List UdpFrame :=
  words.flatMap fun
    | .told frame => [frame]
    | .heard _ => []

theorem toldFrames_told (batch : List UdpFrame) : toldFrames (batch.map .told) = batch := by
  induction batch with
  | nil => rfl
  | cons frame batch ih => exact congrArg (frame :: ·) ih

theorem toldFrames_append (words more : List Word) :
    toldFrames (words ++ more) = toldFrames words ++ toldFrames more := flatMap_append

/-- A frame as it stands on the wire. -/
def UdpFrame.wire (frame : UdpFrame) : Frame := ⟨frame.header, frame.payload⟩

theorem be16_split (word : UInt16) : be16 (word >>> 8).toUInt8 word.toUInt8 = word := by
  unfold be16
  rw [← UInt16.toBitVec_inj]
  ext index below
  simp [-UInt16.toUInt16_toUInt8]
  grind

theorem UdpFrame.wire_fits {frame : UdpFrame} (short : frame.payload.length ≤ longestDatagram) :
    frame.wire.Fits udpFraming := by
  refine ⟨rfl, ?_⟩
  have size : udpFraming.size frame.wire.header = (UInt16.ofNat frame.payload.length).toNat :=
    congrArg UInt16.toNat (be16_split _)
  have small : frame.payload.length < 2 ^ 16 := Nat.lt_succ_of_le short
  rw [size, UInt16.toNat_ofNat', Nat.mod_eq_of_lt small]
  rfl

/-- The flow of a client of a published port. -/
def flowAt (published : Table Published UdpPublish) (port : Published) (client : SocketAddr) :
    Option UInt32 :=
  (published.lookup port).bind fun publish => (publish.flows.lookup client).map Prod.fst

theorem flowAt_eq_some {published : Table Published UdpPublish} {port : Published}
    {client : SocketAddr} {flow : UInt32} : flowAt published port client = some flow ↔
      ∃ publish last, published.lookup port = some publish ∧
        publish.flows.lookup client = some (flow, last) := by
  simp [flowAt, Option.bind_eq_some_iff]

theorem flowAt_insert (published : Table Published UdpPublish) (port name : Published)
    (publish : UdpPublish) (client : SocketAddr) :
    flowAt (published.insert port publish) name client =
      if name = port then (publish.flows.lookup client).map Prod.fst
      else flowAt published name client := by
  unfold flowAt
  rw [lookup_insert_ite]
  split <;> rfl

/-- A client's entry is put in. -/
theorem flowAt_put {published : Table Published UdpPublish} {port : Published}
    {publish : UdpPublish} (found : published.lookup port = some publish) (client : SocketAddr)
    (flow : UInt32) (now : Nat) (name : Published) (peer : SocketAddr) :
    flowAt (published.insert port
      { publish with flows := publish.flows.insert client (flow, now) }) name peer =
        if name = port ∧ peer = client then some flow else flowAt published name peer := by
  rw [flowAt_insert, lookup_insert_ite]
  by_cases here : name = port
  · subst here
    by_cases mine : peer = client
    · grind
    · rw [if_pos rfl, if_neg mine, if_neg fun both => mine both.2, flowAt, found]
      rfl
  · rw [if_neg here, if_neg fun both => here both.1]

theorem flowAt_erase (published : Table Published UdpPublish) (port name : Published)
    (client : SocketAddr) : flowAt (published.erase port) name client =
      if name = port then none else flowAt published name client := by
  unfold flowAt
  rw [lookup_erase_ite]
  split <;> rfl

/-- The frames that were told, as they stand on the wire. -/
theorem parsed_of_told {stream : List UInt8} {frames : List UdpFrame}
    (bytes : stream = frames.flatMap UdpFrame.bytes)
    (short : ∀ frame ∈ frames, frame.payload.length ≤ longestDatagram) :
    Parsed udpFraming stream (frames.map UdpFrame.wire) [] := by
  refine ⟨?_, fun frame inside => ?_, fun complete => ?_⟩
  · rw [bytes, append_nil, flatMap_map]
    rfl
  · grind [UdpFrame.wire_fits]
  · exact absurd complete.1 (by decide)

namespace UdpHost

variable {host later before : UdpHost} {batch : List UdpFrame} {taken : UdpHost × List UdpFrame}
  {flow : UInt32} {publish : UdpPublish}

/-- The two tables say the same, and flows are numbered in order. -/
structure Linked (host : UdpHost) : Prop where
  same : ∀ flow port client, host.udpInboundFlows flow = some (port, client) ↔
    flowAt host.udpPublished port client = some flow
  numbered : ∀ flow place, host.udpInboundFlows flow = some place → flow.toNat < host.made
  next : host.udpInboundNext = UInt32.ofNat host.made

theorem start_linked (now ring : Nat) : (start now ring).Linked := by
  refine ⟨fun flow port client => ?_, fun flow place known => ?_, rfl⟩
  · constructor <;> (intro known; cases known)
  · cases known

/-- Flows are forgotten, each in both tables. -/
theorem Linked.forget (linked : host.Linked) (closing : List UInt32)
    (flows : later.udpInboundFlows = fun flow =>
      if flow ∈ closing then none else host.udpInboundFlows flow)
    (published : ∀ flow port client, flowAt later.udpPublished port client = some flow ↔
      flowAt host.udpPublished port client = some flow ∧ flow ∉ closing)
    (made : later.made = host.made) (next : later.udpInboundNext = host.udpInboundNext) :
    later.Linked := by
  refine ⟨fun flow port client => ?_, fun flow place known => ?_, ?_⟩
  · rw [flows, published, ← linked.same]
    by_cases gone : flow ∈ closing <;> simp [gone]
  · have numbered := linked.numbered
    grind
  · rw [next, made]
    exact linked.next

abbrev Lawful (host : UdpHost) : Prop := Law host.words host.udpInboundFlows

/-- Everything but the flows: the device, the agent's stream and what was said on it. -/
def carried (host : UdpHost) :=
  (host.inner, host.udpInbound, host.backlog, host.place, host.words, host.accepted)

/-- What building a batch does: the tables change, and the batch says how. -/
structure Prepared (before after : UdpHost) (batch : List UdpFrame) : Prop where
  linked : after.Linked
  law : Law before.words before.udpInboundFlows →
    Law (before.words ++ batch.map .told) after.udpInboundFlows
  short : ∀ frame ∈ batch, frame.payload.length ≤ longestDatagram
  rest : after.carried = before.carried

theorem Prepared.still (linked : host.Linked) : Prepared host host [] := by
  refine ⟨linked, fun law => ?_, by simp, rfl⟩
  rw [map_nil, append_nil]
  exact law

/-- Flows are forgotten and the batch says so. -/
theorem Prepared.forget (prepared : Prepared before host batch) (closing : List UInt32)
    (linked : later.Linked)
    (flows : later.udpInboundFlows = fun flow =>
      if flow ∈ closing then none else host.udpInboundFlows flow)
    (rest : later.carried = host.carried) :
    Prepared before later (batch ++ closing.map fun flow => ⟨flow, .closing, []⟩) := by
  refine ⟨linked, fun law => ?_, fun frame inside => ?_, rest.trans prepared.rest⟩
  · have all := (prepared.law law).closedAll closing
    rw [flows, map_append, ← append_assoc]
    exact all
  · have short := prepared.short
    grind

theorem octets_length {width : Nat} (count : Nat) (bits : BitVec width) :
    (octets count bits).length = count := by simp [octets]

theorem headerBytes_length (addr : SocketAddr) : (headerBytes addr).length = 19 := by
  unfold headerBytes
  cases addr.1 <;> simp [octets_length]

theorem inboundHeader_length (dst : SocketAddr) (client : Option SocketAddr) :
    (inboundHeader dst client).length ≤ 38 := by
  have len := headerBytes_length dst
  cases client with
  | none =>
    change (headerBytes dst).length ≤ 38
    omega
  | some client =>
    have other := headerBytes_length client
    unfold inboundHeader
    cases header : headerBytes dst with
    | nil =>
      rw [header] at len
      cases len
    | cons family rest => grind

theorem takeDatagram_made (now : Nat) (port : Published) (taken : UdpHost × List UdpFrame)
    (datagram : SocketAddr × List UInt8) :
    taken.1.made ≤ (takeDatagram now port taken datagram).1.made := by
  unfold takeDatagram
  dsimp only
  split
  · exact Nat.le_refl _
  · grind

/-- One datagram more in the batch. -/
theorem Prepared.takeDatagram (prepared : Prepared before taken.1 taken.2) (now : Nat)
    (port : Published) (datagram : SocketAddr × List UInt8)
    (few : (takeDatagram now port taken datagram).1.made ≤ 2 ^ 32) :
    Prepared before (takeDatagram now port taken datagram).1
      (takeDatagram now port taken datagram).2 := by
  obtain ⟨host, batch⟩ := taken
  obtain ⟨client, payload⟩ := datagram
  unfold takeDatagram at few ⊢
  dsimp only at few ⊢ prepared
  have linked := prepared.linked
  cases found : host.udpPublished.lookup port with
  | none => exact prepared
  | some publish =>
    rw [found] at few
    dsimp only at few ⊢
    by_cases long : payload.length > longestDatagram
    · rw [if_pos long]
      exact prepared
    rw [if_neg long] at few ⊢
    have fits := Nat.not_lt.mp long
    cases known : publish.flows.lookup client with
    | some entry =>
      obtain ⟨flow, last⟩ := entry
      have there := flowAt_eq_some.mpr ⟨publish, last, found, known⟩
      have isOpen := (linked.same flow port client).mpr there
      refine ⟨⟨fun other name peer => ?_, linked.numbered, linked.next⟩, ?_, ?_, prepared.rest⟩
      · -- The client's entry is replaced by one of the same flow.
        dsimp only
        rw [linked.same, flowAt_put found]
        split
        · rename_i both
          rw [both.1, both.2, there]
        · rfl
      · intro law
        rw [map_append, ← append_assoc]
        exact (prepared.law law).data (by rw [isOpen]; rfl) payload
      · have short := prepared.short
        grind
    | none =>
      rw [known] at few
      dsimp only at few ⊢
      have number : host.udpInboundNext.toNat = host.made := by
        rw [linked.next, UInt32.toNat_ofNat']
        exact Nat.mod_eq_of_lt (by omega)
      have free : host.udpInboundFlows host.udpInboundNext = none := by
        by_contra used
        obtain ⟨place, used⟩ := Option.ne_none_iff_exists'.mp used
        have := linked.numbered _ place used
        omega
      have nowhere : ∀ name peer,
          flowAt host.udpPublished name peer ≠ some host.udpInboundNext := by
        intro name peer there
        have used := (linked.same _ _ _).mpr there
        rw [free] at used
        cases used
      refine ⟨⟨fun flow name peer => ?_, fun flow place there => ?_, ?_⟩, ?_, ?_, prepared.rest⟩
      · dsimp only
        rw [flowAt_put found]
        by_cases mine : flow = host.udpInboundNext
        · grind
        rw [update_of_ne mine, linked.same]
        by_cases both : name = port ∧ peer = client
        · rw [if_pos both, both.1, both.2]
          constructor
          · intro there
            rw [flowAt, found, Option.bind_some, known] at there
            cases there
          · grind
        · rw [if_neg both]
      · have numbered := linked.numbered
        grind
      · dsimp only
        rw [linked.next]
        simp
      · intro law
        have opened := (prepared.law law).opening free
          (inboundHeader publish.dst (lanClient client)) (port, client)
        have known : (update host.udpInboundFlows host.udpInboundNext
            (some (port, client)) host.udpInboundNext).isSome = true := by
          rw [update_self]
          rfl
        have carried := opened.data known payload
        rw [append_assoc, append_assoc] at carried
        rw [map_append]
        exact carried
      · intro frame inside
        rcases mem_append.mp inside with prior | last
        · exact prepared.short frame prior
        rcases mem_cons.mp last with rfl | last
        · exact (inboundHeader_length _ _).trans (by decide)
        · rw [mem_singleton.mp last]
          exact fits

theorem foldl_takeDatagram_made (now : Nat) (port : Published)
    (datagrams : List (SocketAddr × List UInt8)) (taken : UdpHost × List UdpFrame) :
    taken.1.made ≤ (datagrams.foldl (takeDatagram now port) taken).1.made := by
  induction datagrams generalizing taken with
  | nil => exact Nat.le_refl _
  | cons datagram rest ih =>
    exact (takeDatagram_made now port taken datagram).trans (ih _)

theorem Prepared.takeDatagrams (now : Nat) (port : Published)
    (datagrams : List (SocketAddr × List UInt8)) (prepared : Prepared before taken.1 taken.2)
    (few : (datagrams.foldl (UdpHost.takeDatagram now port) taken).1.made ≤ 2 ^ 32) :
    Prepared before (datagrams.foldl (UdpHost.takeDatagram now port) taken).1
      (datagrams.foldl (UdpHost.takeDatagram now port) taken).2 := by
  induction datagrams generalizing taken with
  | nil => exact prepared
  | cons datagram rest ih =>
    refine ih (prepared.takeDatagram now port datagram ?_) few
    exact (foldl_takeDatagram_made now port rest _).trans few

/-- The flows that are swept are the stale ones of any port. -/
theorem mem_staleFlows {now : Nat} {published : Table Published UdpPublish} :
    flow ∈ staleFlows now published ↔ ∃ port publish client last,
      published.lookup port = some publish ∧ publish.flows.lookup client = some (flow, last) ∧
        isStale now (flow, last) = true := by
  unfold staleFlows
  simp only [mem_gather]
  constructor
  · grind
  · grind

theorem mem_flowsOf :
    flow ∈ flowsOf publish ↔ ∃ client last, publish.flows.lookup client = some (flow, last) := by
  unfold flowsOf
  rw [mem_gather]
  constructor
  · grind
  · grind

theorem Walk.mem {walk : Walk} {list : List UInt32} :
    flow ∈ walk.order list ↔ flow ∈ list := (walk.walks list).mem_iff

/-- A flow that is known under two names is known under one. -/
theorem Linked.unique (linked : host.Linked) {port name : Published} {client peer : SocketAddr}
    (first : flowAt host.udpPublished port client = some flow)
    (second : flowAt host.udpPublished name peer = some flow) : port = name ∧ client = peer := by
  have one := (linked.same _ _ _).mpr first
  have other := (linked.same _ _ _).mpr second
  rw [one] at other
  cases other
  exact ⟨rfl, rfl⟩

theorem Prepared.sweep (prepared : Prepared before taken.1 taken.2) (now : Nat) (walk : Walk) :
    Prepared before (sweep now walk taken).1 (sweep now walk taken).2 := by
  obtain ⟨host, batch⟩ := taken
  unfold sweep
  dsimp only
  split
  · refine prepared.forget (walk.order (staleFlows now host.udpPublished)) ?_ rfl rfl
    refine prepared.linked.forget _ rfl (fun flow port client => ?_) rfl rfl
    rw [Walk.mem, mem_staleFlows]
    dsimp only
    constructor
    · intro there
      obtain ⟨kept, last, found, known⟩ := flowAt_eq_some.mp there
      rw [lookup_mapValues, Option.map_eq_some_iff] at found
      obtain ⟨publish, found, rfl⟩ := found
      rw [lookup_keep, Option.filter_eq_some_iff] at known
      obtain ⟨known, fresh⟩ := known
      have here := flowAt_eq_some.mpr ⟨publish, last, found, known⟩
      refine ⟨here, ?_⟩
      rintro ⟨name, other, peer, moment, found', known', stale⟩
      obtain ⟨rfl, rfl⟩ := prepared.linked.unique here
        (flowAt_eq_some.mpr ⟨other, moment, found', known'⟩)
      rw [found] at found'
      cases found'
      rw [known] at known'
      cases known'
      rw [stale] at fresh
      cases fresh
    · rintro ⟨there, fresh⟩
      obtain ⟨publish, last, found, known⟩ := flowAt_eq_some.mp there
      refine flowAt_eq_some.mpr ⟨{ publish with
        flows := publish.flows.keep fun _ entry => !isStale now entry }, last, ?_, ?_⟩
      · rw [lookup_mapValues, found]
        rfl
      · grind [lookup_keep]
  · exact prepared

/-- A table that has no flows at a port, and elsewhere those of the reactor. -/
def Cleared (host : UdpHost) (port : Published) (table : Table Published UdpPublish) : Prop :=
  ∀ name client, flowAt table name client =
    if name = port then none else flowAt host.udpPublished name client

/-- Another table takes the place of the one published, and what was at a port is given up. -/
def replace (host : UdpHost) (table : Table Published UdpPublish) (port : Published) (walk : Walk) :
    UdpHost × List UdpFrame :=
  let later := { host with udpPublished := table }
  match host.udpPublished.lookup port with
  | none => (later, [])
  | some old => later.retire old walk

section

variable {port : Published} {table : Table Published UdpPublish} (linked : host.Linked)
  (cleared : host.Cleared port table)
include linked cleared

/-- The flows of a port that is given up are forgotten, whatever has its place now. -/
theorem Linked.retire (found : host.udpPublished.lookup port = some publish) (walk : Walk) :
    (retire { host with udpPublished := table } publish walk).1.Linked := by
  refine linked.forget (walk.order (flowsOf publish)) rfl (fun flow name client => ?_) rfl rfl
  rw [Walk.mem, mem_flowsOf]
  change flowAt table name client = some flow ↔ _
  rw [cleared]
  by_cases here : name = port
  · subst here
    rw [if_pos rfl]
    constructor
    · intro none
      cases none
    rintro ⟨there, other⟩
    obtain ⟨again, last, found', known⟩ := flowAt_eq_some.mp there
    rw [found] at found'
    cases found'
    exact absurd ⟨client, last, known⟩ other
  · rw [if_neg here]
    refine ⟨fun there => ⟨there, ?_⟩, And.left⟩
    rintro ⟨peer, last, known⟩
    have other := flowAt_eq_some.mpr ⟨publish, last, found, known⟩
    exact here (linked.unique there other).1

theorem Prepared.replace (walk : Walk) :
    Prepared host (host.replace table port walk).1 (host.replace table port walk).2 := by
  unfold UdpHost.replace
  dsimp only
  split
  · -- What is at a port without a publish concerns no flow.
    rename_i absent
    refine ⟨⟨fun flow name client => ?_, linked.numbered, linked.next⟩, (Prepared.still linked).law,
      by simp, rfl⟩
    dsimp only
    rw [cleared, linked.same]
    by_cases here : name = port
    · subst here
      rw [if_pos rfl, flowAt, absent]
      rfl
    · rw [if_neg here]
  · rename_i old found
    exact (Prepared.still linked).forget _ (linked.retire cleared found walk) rfl rfl

end

/-- Every step that has something to tell changes the tables as it says. -/
theorem prepare_prepared (linked : host.Linked) (act : UdpAct)
    (few : (host.prepare act).1.made ≤ 2 ^ 32) :
    Prepared host (host.prepare act).1 (host.prepare act).2 := by
  cases act with
  | readable port datagrams now walk =>
    change Prepared host (host.readDatagrams port datagrams now walk).1
      (host.readDatagrams port datagrams now walk).2
    unfold readDatagrams
    split
    · exact Prepared.still linked
    rename_i serving
    refine Prepared.sweep (Prepared.takeDatagrams now port _ (Prepared.still linked) ?_) now walk
    refine Nat.le_trans (Nat.le_of_eq ?_) few
    change _ = (host.readDatagrams port datagrams now walk).1.made
    unfold readDatagrams
    rw [if_neg serving]
    unfold UdpHost.sweep
    dsimp only
    split <;> rfl
  | publish port dst walk => exact Prepared.replace linked (fun _ _ => flowAt_insert _ _ _ _ _) walk
  | withdraw port walk => exact Prepared.replace linked (fun _ _ => flowAt_erase _ _ _ _) walk
  | agent _ | replies _ | ends | flush | around _ => exact Prepared.still linked

/-- While there is no agent there is nothing to tell. -/
theorem prepare_idle (linked : host.Linked) (idle : host.udpInbound = none)
    (closed : ∀ flow, host.udpInboundFlows flow = none) (act : UdpAct) :
    (host.prepare act).2 = [] := by
  have flowless : ∀ port publish, host.udpPublished.lookup port = some publish →
      flowsOf publish = [] := by
    intro port publish found
    refine eq_nil_iff_forall_not_mem.mpr fun flow inside => ?_
    obtain ⟨client, last, known⟩ := mem_flowsOf.mp inside
    have used := (linked.same flow port client).mpr
      (flowAt_eq_some.mpr ⟨publish, last, found, known⟩)
    rw [closed flow] at used
    cases used
  have silent : ∀ table port walk, (host.replace table port walk).2 = [] := by
    intro table port walk
    unfold replace
    dsimp only
    split
    · rfl
    rename_i old found
    unfold retire
    rw [flowless port old found, (walk.walks []).eq_nil]
    rfl
  cases act with
  | readable port datagrams now walk =>
    change (host.readDatagrams port datagrams now walk).2 = []
    unfold readDatagrams
    rw [idle]
    rfl
  | publish port dst walk => exact silent _ port walk
  | withdraw port walk => exact silent _ port walk
  | agent _ | replies _ | ends | flush | around _ => rfl

/-- What is said on the agent's stream is what went into packets for it and what waits. -/
structure Carrying (host : UdpHost) : Prop where
  keyed : Keyed host.inner
  sorted : host.inner.outbox.Sorted
  bytes : host.accepted ++ host.backlog.drop host.place =
    (toldFrames host.words).flatMap UdpFrame.bytes
  short : ∀ frame ∈ toldFrames host.words, frame.payload.length ≤ longestDatagram
  silent : host.udpInbound = none → host.words = []

theorem start_carrying (now ring : Nat) : (start now ring).Carrying where
  keyed := by
    intro other conn found
    simp [start, Inner.new] at found
  sorted := Outbox.empty_sorted
  bytes := rfl
  short := by simp [start, toldFrames]
  silent := fun _ => rfl

/-- A stream that says nothing yet, or no longer. -/
theorem Carrying.fresh (keyed : Keyed later.inner) (sorted : later.inner.outbox.Sorted)
    (words : later.words = []) (backlog : later.backlog = []) (accepted : later.accepted = []) :
    later.Carrying where
  keyed := keyed
  sorted := sorted
  bytes := by rw [accepted, backlog, words, drop_nil]; rfl
  short := by simp [words, toldFrames]
  silent := fun _ => words

/-- A batch is dropped although there is an agent to tell. -/
def lost (host : UdpHost) (batch : List UdpFrame) : Prop :=
  ∃ key, host.udpInbound = some key ∧ host.drops batch = true ∧
    (pushFramed host.inner key host.backlog host.place
      (batch.flatMap UdpFrame.bytes)).2.2.2.isOk = true

/-- What queueing a batch leaves: the stream was closed, or the tables are as they were and
the batch was said, or lost. -/
structure Queued (host : UdpHost) (batch : List UdpFrame) (after : UdpHost) : Prop where
  carrying : after.Carrying
  made : after.made = host.made
  next : after.udpInboundNext = host.udpInboundNext
  idle : after.udpInbound = none → after.udpInboundFlows = fun _ => none
  outcome : (after.words = [] ∧ after.udpInboundFlows = (fun _ => none) ∧
      (∀ port client, flowAt after.udpPublished port client = none) ∧ ¬ host.lost batch) ∨
    (after.udpInboundFlows = host.udpInboundFlows ∧ after.udpPublished = host.udpPublished ∧
      ((after.words = host.words ++ batch.map .told ∧ ¬ host.lost batch) ∨
        (after.words = host.words ∧ host.lost batch)))

theorem flowAt_close (host : UdpHost) (port : Published) (client : SocketAddr) :
    flowAt host.close.udpPublished port client = none := by
  unfold flowAt close
  rw [lookup_mapValues]
  cases host.udpPublished.lookup port <;> rfl

theorem queueFramed_queued (settings : Settings) (carrying : host.Carrying)
    (short : ∀ frame ∈ batch, frame.payload.length ≤ longestDatagram)
    (serving : host.udpInbound ≠ none) : Queued host batch (host.queueFramed batch) := by
  obtain ⟨key, agent⟩ := Option.ne_none_iff_exists'.mp serving
  set frames := batch.flatMap UdpFrame.bytes with batched
  have touched := pushFramed_inner settings host.inner key host.backlog host.place frames
  have parts := pushFramed_parts host.inner key host.backlog host.place frames carrying.sorted
  have device : Keyed (pushFramed host.inner key host.backlog host.place frames).1 ∧
      (pushFramed host.inner key host.backlog host.place frames).1.outbox.Sorted := by
    have keyed := carrying.keyed
    have sorted := carrying.sorted
    grind [step_keyed, step_sorted]
  have losing : host.lost batch ↔ host.drops batch = true ∧
      (pushFramed host.inner key host.backlog host.place frames).2.2.2.isOk = true := by
    constructor
    · rintro ⟨other, same, lost⟩
      rw [agent] at same
      cases same
      exact lost
    · exact fun lost => ⟨key, agent, lost⟩
  unfold queueFramed
  rw [agent, ← batched]
  dsimp only
  generalize pushFramed host.inner key host.backlog host.place frames = pushed
    at parts device losing
  obtain ⟨inner, backlog, place, result⟩ := pushed
  cases result with
  | error refusal =>
    refine ⟨Carrying.fresh device.1 device.2 rfl rfl rfl, rfl, rfl, fun _ => rfl,
      Or.inl ⟨rfl, rfl, fun _ _ => flowAt_close _ _ _, fun lost => ?_⟩⟩
    cases (losing.mp lost).2
  | ok value =>
    dsimp only at device ⊢
    change queuedBetween key host.inner inner ++ backlog.drop place = _ at parts
    by_cases full : overflows host.backlog host.place frames
    · have drops : host.drops batch = true := decide_eq_true full
      rw [if_pos full] at parts
      refine ⟨⟨device.1, device.2, ?_, ?_, fun none => (by cases none)⟩, rfl, rfl,
        fun none => (by cases none),
        Or.inr ⟨rfl, rfl, Or.inr ⟨if_pos drops, losing.mpr ⟨drops, rfl⟩⟩⟩⟩
      · rw [if_pos drops, append_assoc, parts]
        exact carrying.bytes
      · rw [if_pos drops]
        exact carrying.short
    · have keeps : ¬ host.drops batch = true := by
        unfold drops
        rw [decide_eq_true_eq]
        exact full
      rw [if_neg full] at parts
      refine ⟨⟨device.1, device.2, ?_, ?_, fun none => (by cases none)⟩, rfl, rfl,
        fun none => (by cases none),
        Or.inr ⟨rfl, rfl, Or.inl ⟨if_neg keeps, fun lost => keeps (losing.mp lost).1⟩⟩⟩
      · have bytes := carrying.bytes
        grind [toldFrames_append, toldFrames_told]
      · have short := carrying.short
        grind [toldFrames_append, toldFrames_told]

/-- A flow the agent closes is forgotten in both tables. -/
theorem Linked.hear (linked : host.Linked) (frame : UInt32 × UInt8 × List UInt8) :
    (host.hear frame).Linked := by
  unfold UdpHost.hear
  split
  · dsimp only
    cases known : host.udpInboundFlows frame.1 with
    | none => exact { linked with }
    | some place =>
      obtain ⟨port, client⟩ := place
      refine linked.forget [frame.1] ?_ (fun flow name peer => ?_) rfl rfl
      · grind
      have here := (linked.same _ _ _).mp known
      rw [mem_singleton]
      dsimp only
      have after : flowAt (host.udpPublished.mapValues fun name publish =>
          if name = port then { publish with flows := publish.flows.erase client } else publish)
            name peer = if name = port ∧ peer = client then none
              else flowAt host.udpPublished name peer := by
        unfold flowAt
        rw [lookup_mapValues]
        cases host.udpPublished.lookup name with
        | none => exact (ite_self _).symm
        | some publish =>
          by_cases named : name = port
          · simp only [named, Option.map_some, if_true, Option.bind_some, true_and,
              lookup_erase_ite]
            split <;> rfl
          · grind
      rw [after]
      by_cases both : name = port ∧ peer = client
      · grind
      rw [if_neg both]
      refine ⟨fun there => ⟨there, ?_⟩, And.left⟩
      rintro rfl
      exact both (linked.unique there here)
  · exact linked

theorem hear_law (law : host.Lawful) (frame : UInt32 × UInt8 × List UInt8) :
    (host.hear frame).Lawful := by
  unfold hear
  split
  · have closed : Law (host.words ++ [.heard frame.1])
        (update host.udpInboundFlows frame.1 none) := law.closed (Or.inl rfl)
    dsimp only
    cases known : host.udpInboundFlows frame.1 with
    | none =>
      rw [← known, update_eq_self] at closed
      exact closed
    | some place => exact closed
  · exact law

/-- What the agent says changes neither the stream to it nor how many flows there were. -/
theorem Carrying.hear (carrying : host.Carrying) (serving : host.udpInbound.isSome = true)
    (frame : UInt32 × UInt8 × List UInt8) :
    (host.hear frame).Carrying ∧ (host.hear frame).udpInbound.isSome = true ∧
      (host.hear frame).made = host.made := by
  have heard : toldFrames (host.words ++ [.heard frame.1]) = toldFrames host.words := by
    rw [toldFrames_append]
    exact append_nil _
  unfold UdpHost.hear
  split
  · dsimp only
    split
    all_goals
      refine ⟨⟨carrying.keyed, carrying.sorted, ?_, ?_, fun none => ?_⟩, serving, rfl⟩
      · rw [heard]
        exact carrying.bytes
      · rw [heard]
        exact carrying.short
      · grind
  · exact ⟨carrying, serving, rfl⟩

/-- Everything but the law. -/
structure Steady (host : UdpHost) : Prop where
  carrying : host.Carrying
  linked : host.Linked
  idle : host.udpInbound = none → ∀ flow, host.udpInboundFlows flow = none

theorem start_steady (now ring : Nat) : (start now ring).Steady :=
  ⟨start_carrying now ring, start_linked now ring, fun _ _ => rfl⟩

theorem Steady.hearAll (steady : host.Steady) (serving : host.udpInbound.isSome = true)
    (frames : List (UInt32 × UInt8 × List UInt8)) :
    (frames.foldl hear host).Steady ∧
      (frames.foldl hear host).made = host.made ∧
      (host.Lawful → (frames.foldl hear host).Lawful) := by
  induction frames generalizing host with
  | nil => exact ⟨steady, rfl, id⟩
  | cons frame frames ih =>
    obtain ⟨carrying, still, made⟩ := steady.carrying.hear serving frame
    have next : (host.hear frame).Steady := by
      refine ⟨carrying, steady.linked.hear frame, fun none => ?_⟩
      rw [none] at still
      cases still
    obtain ⟨all, same, law⟩ := ih next still
    exact ⟨all, same.trans made, fun before => law (hear_law before frame)⟩

/-- A step that the law survives: it loses no batch that opens or closes a flow, and it
replaces no agent's stream while there are flows. -/
def Heeded (host : UdpHost) (act : UdpAct) : Prop :=
  (∀ key, act = .agent key → ∀ flow, host.udpInboundFlows flow = none) ∧
    ((host.prepare act).1.lost (host.prepare act).2 → (host.prepare act).2 ≠ [] →
      ∀ flow, ((host.prepare act).1.udpInboundFlows flow).isSome =
        (host.udpInboundFlows flow).isSome)

/-- Nobody but the reactor's framed stream sends on the agent's connection. -/
def Apart (host : UdpHost) : UdpAct → Prop
  | .around act => ∀ key, host.udpInbound = some key → (FeederAct.around act).apart key
  | _ => True

/-- The tables changed and the agent told. -/
def tell (host : UdpHost) (act : UdpAct) : UdpHost :=
  if (host.prepare act).2 = [] then (host.prepare act).1
  else (host.prepare act).1.queueFramed (host.prepare act).2

theorem queueFramed_made (host : UdpHost) (batch : List UdpFrame) :
    (host.queueFramed batch).made = host.made := by
  unfold queueFramed
  split
  · rfl
  · dsimp only
    split <;> rfl

theorem tell_made (host : UdpHost) (act : UdpAct) :
    (host.tell act).made = (host.prepare act).1.made := by
  unfold tell
  split
  · rfl
  · exact queueFramed_made _ _

theorem prepare_made (host : UdpHost) (act : UdpAct) : host.made ≤ (host.prepare act).1.made := by
  have replaced : ∀ table port walk, host.made ≤ (host.replace table port walk).1.made := by
    intro table port walk
    unfold replace
    dsimp only
    split <;> exact Nat.le_refl _
  cases act with
  | readable port datagrams now walk =>
    change host.made ≤ (host.readDatagrams port datagrams now walk).1.made
    unfold readDatagrams
    split
    · exact Nat.le_refl _
    refine (foldl_takeDatagram_made now port (datagrams.take datagramsAtOnce) (host, [])).trans
      (Nat.le_of_eq ?_)
    unfold sweep
    dsimp only
    split <;> rfl
  | publish port dst walk => exact replaced _ port walk
  | withdraw port walk => exact replaced _ port walk
  | agent _ | replies _ | ends | flush | around _ => exact Nat.le_refl _

theorem foldl_hear_made (frames : List (UInt32 × UInt8 × List UInt8)) (host : UdpHost) :
    (frames.foldl hear host).made = host.made := by
  induction frames generalizing host with
  | nil => rfl
  | cons frame frames ih => grind [hear]

theorem step_made (settings : Settings) (host : UdpHost) (act : UdpAct) :
    host.made ≤ (host.step settings act).made := by
  have told : host.made ≤ (host.tell act).made :=
    (prepare_made host act).trans (Nat.le_of_eq (tell_made host act).symm)
  cases act with
  | readable | publish | withdraw => exact told
  | agent key => exact Nat.le_refl _
  | replies frames =>
    unfold step
    dsimp only
    split
    · exact Nat.le_of_eq (foldl_hear_made frames host).symm
    · exact Nat.le_refl _
  | ends =>
    unfold step
    dsimp only
    split <;> exact Nat.le_refl _
  | flush =>
    unfold step
    dsimp only
    split
    · exact Nat.le_refl _
    · exact Nat.le_of_eq (queueFramed_made host []).symm
  | around act => exact Nat.le_refl _

/-- The tables after a batch was queued. -/
theorem Queued.linked {after : UdpHost} (queued : Queued host batch after) (linked : host.Linked) :
    after.Linked := by
  rcases queued.outcome with ⟨_, flows, published, _⟩ | ⟨flows, published, _⟩
  · refine ⟨fun flow port client => ?_, fun flow place known => ?_, ?_⟩
    · grind
    · rw [flows] at known
      cases known
    · rw [queued.next, queued.made]
      exact linked.next
  · refine ⟨fun flow port client => ?_, fun flow place known => ?_, ?_⟩
    · rw [flows, published]
      exact linked.same flow port client
    · rw [queued.made]
      rw [flows] at known
      exact linked.numbered flow place known
    · rw [queued.next, queued.made]
      exact linked.next

/-- Everything but the law is kept, and the law exactly on a condition. -/
abbrev Upheld (host after : UdpHost) (when : Prop) : Prop :=
  after.Steady ∧ (host.Lawful → (after.Lawful ↔ when))

/-- Telling the agent keeps the law exactly if no change of the flows is lost. -/
theorem Steady.tell (settings : Settings) (steady : host.Steady) (act : UdpAct)
    (other : ∀ key, act ≠ .agent key) (few : (host.tell act).made ≤ 2 ^ 32) :
    Upheld host (host.tell act) (host.Heeded act) := by
  rw [Upheld, Heeded, and_iff_right fun key same => absurd same (other key)]
  rw [tell_made] at few
  have prepared := prepare_prepared steady.linked act few
  have law := prepared.law
  have linked := prepared.linked
  have short := prepared.short
  have rest := prepared.rest
  simp only [carried, Prod.mk.injEq] at rest
  obtain ⟨inner, inbound, backlog, place, words, accepted⟩ := rest
  have carrying : (host.prepare act).1.Carrying := by
    refine ⟨?_, ?_, ?_, ?_, ?_⟩
    · rw [inner]
      exact steady.carrying.keyed
    · rw [inner]
      exact steady.carrying.sorted
    · rw [accepted, backlog, place, words]
      exact steady.carrying.bytes
    · rw [words]
      exact steady.carrying.short
    · rw [inbound, words]
      exact steady.carrying.silent
  -- Without an agent there are no flows, and there is nothing to tell.
  have flowless : host.udpInbound = none →
      (host.prepare act).2 = [] ∧ ∀ flow, (host.prepare act).1.udpInboundFlows flow = none := by
    intro none
    have closed := steady.idle none
    have empty := prepare_idle steady.linked none closed act
    have before : host.Lawful := by
      rw [Lawful, steady.carrying.silent none, funext closed]
      exact Law.nil
    have kept := law before
    rw [steady.carrying.silent none, empty] at kept
    exact ⟨empty, fun flow => Option.not_isSome_iff_eq_none.mp
      (Bool.not_eq_true _ ▸ (kept.agree flow).symm)⟩
  unfold UdpHost.tell
  by_cases empty : (host.prepare act).2 = []
  · rw [if_pos empty]
    refine ⟨⟨carrying, linked, fun none => (flowless (inbound ▸ none)).2⟩,
      fun before => ⟨fun _ _ some => absurd empty some, fun _ => ?_⟩⟩
    have kept := law before
    rw [empty, map_nil, append_nil] at kept
    rw [Lawful, words]
    exact kept
  rw [if_neg empty]
  have serving : (host.prepare act).1.udpInbound ≠ none := by
    rw [inbound]
    exact fun none => empty (flowless none).1
  have queued := queueFramed_queued settings carrying short serving
  refine ⟨⟨queued.carrying, queued.linked linked, fun none => congrFun (queued.idle none)⟩,
    fun before => ?_⟩
  rcases queued.outcome with ⟨silent, flows, _, kept⟩ | ⟨flows, _, ⟨said, kept⟩ | ⟨same, lost⟩⟩
  · grind [Law.nil]
  · grind
  · rw [Lawful, same, flows, words, before.congr_iff]
    exact ⟨fun keeps _ _ => keeps, fun keeps => keeps lost empty⟩

/-- Every step keeps everything but the law, and the law exactly if the step is heeded. -/
theorem Steady.step (settings : Settings) (steady : host.Steady) {act : UdpAct}
    (apart : host.Apart act) (few : (host.step settings act).made ≤ 2 ^ 32) :
    Upheld host (host.step settings act) (host.Heeded act) := by
  have told := steady.tell settings act
  -- A step that has nothing to tell and replaces no agent is heeded.
  have heeded : (∀ key, act ≠ .agent key) → (host.prepare act).2 = [] → host.Heeded act := by
    intro other empty
    exact ⟨fun key same => absurd same (other key), fun _ some => absurd empty some⟩
  cases act with
  | readable | publish | withdraw => exact told (fun _ => UdpAct.noConfusion) few
  | agent key =>
    refine ⟨⟨Carrying.fresh steady.carrying.keyed steady.carrying.sorted rfl rfl rfl,
      { steady.linked with }, fun none => by cases none⟩,
      fun _ => ?_⟩
    constructor
    · intro law
      refine ⟨fun _ _ flow => ?_, fun _ some => absurd rfl some⟩
      exact Option.not_isSome_iff_eq_none.mp (Bool.not_eq_true _ ▸ (law.agree flow).symm)
    · intro heed
      refine Law.nil.congr fun flow => ?_
      rw [show (host.step settings (.agent key)).udpInboundFlows flow = none from
        heed.1 key rfl flow]
  | replies frames =>
    have ok := heeded (fun _ => UdpAct.noConfusion) rfl
    unfold UdpHost.step
    dsimp only
    split
    · have hearAll := steady.hearAll
      grind
    · exact ⟨steady, fun before => iff_of_true before ok⟩
  | ends =>
    have ok := heeded (fun _ => UdpAct.noConfusion) rfl
    unfold UdpHost.step
    dsimp only
    split
    · refine ⟨⟨Carrying.fresh steady.carrying.keyed steady.carrying.sorted rfl rfl rfl,
        ⟨fun flow port client => ?_, fun flow place known => ?_, steady.linked.next⟩,
        fun _ _ => rfl⟩, fun _ => iff_of_true Law.nil ok⟩
      · rw [flowAt_close]
        constructor <;> (intro none; cases none)
      · cases known
    · exact ⟨steady, fun before => iff_of_true before ok⟩
  | flush =>
    have ok := heeded (fun _ => UdpAct.noConfusion) rfl
    unfold UdpHost.step
    dsimp only
    split
    · exact ⟨steady, fun before => iff_of_true before ok⟩
    rename_i waiting
    have serving : host.udpInbound ≠ none := by
      intro none
      have bytes := steady.carrying.bytes
      rw [steady.carrying.silent none] at bytes
      exact waiting (drop_eq_nil_iff.mp (append_eq_nil_iff.mp bytes).2)
    have queued : Queued host [] (host.queueFramed []) :=
      queueFramed_queued settings steady.carrying (by simp) serving
    refine ⟨⟨queued.carrying, queued.linked steady.linked,
      fun none => congrFun (queued.idle none)⟩, fun before => iff_of_true ?_ ok⟩
    rcases queued.outcome with ⟨silent, flows, _, _⟩ | ⟨flows, _, ⟨said, _⟩ | ⟨same, _⟩⟩
    · rw [Lawful, silent, flows]
      exact Law.nil
    · grind
    · rw [Lawful, same, flows]
      exact before
  | around act =>
    have ok := heeded (fun _ => UdpAct.noConfusion) rfl
    have nothing : host.udpInbound.elim [] (fun key => accepts host.inner key act) = [] := by
      cases agent : host.udpInbound with
      | none => rfl
      | some key => exact accepts_apart (apart key agent) host.inner
    refine ⟨⟨⟨step_keyed settings host.inner steady.carrying.keyed act,
      step_sorted settings host.inner steady.carrying.keyed steady.carrying.sorted act, ?_,
      steady.carrying.short, steady.carrying.silent⟩, { steady.linked with }, steady.idle⟩,
      fun before => iff_of_true before ok⟩
    unfold UdpHost.step
    dsimp only
    rw [nothing, append_nil]
    exact steady.carrying.bytes

end UdpHost

/-- At every moment the stream accepted for the agent, followed by what waits, is taken apart
into the frames that were told, and the two tables of flows agree. As long as the reactor has
not used up the flow numbers, the agent's open flows are the reactor's and every frame is
said in turn, at every moment of a run, exactly if every step is heeded: it loses no batch
that opens or closes a flow, and replaces no agent's stream while there are flows. -/
theorem flows_consistent_iff (settings : Settings) (now ring : Nat) (acts : List UdpAct)
    (apart : Legal UdpHost.Apart (UdpHost.step settings) (UdpHost.start now ring) acts)
    (few : (run (UdpHost.step settings) (UdpHost.start now ring) acts).made ≤ 2 ^ 32) :
    (∀ earlier, earlier <+: acts →
      let host := run (UdpHost.step settings) (UdpHost.start now ring) earlier
      Parsed udpFraming (host.accepted ++ host.backlog.drop host.place)
          ((toldFrames host.words).map UdpFrame.wire) [] ∧
        ∀ flow port client, host.udpInboundFlows flow = some (port, client) ↔
          flowAt host.udpPublished port client = some flow) ∧
    ((∀ earlier, earlier <+: acts →
        let host := run (UdpHost.step settings) (UdpHost.start now ring) earlier
        Law host.words host.udpInboundFlows) ↔
      Legal UdpHost.Heeded (UdpHost.step settings) (UdpHost.start now ring) acts) := by
  have ready := apart.and _ _ (legal_of_end (UdpHost.step settings)
    (fun host act within => (step_made settings host act).trans within) few)
  have steady : ∀ earlier, earlier <+: acts →
      (run (UdpHost.step settings) (UdpHost.start now ring) earlier).Steady := by
    rintro earlier ⟨rest, rfl⟩
    refine run_invariant _ _ Steady (fun host act steady ready => ?_) _ earlier
      (start_steady now ring) ((legal_append _ _ _ earlier rest).mp ready).1
    exact (steady.step settings ready.1 ready.2).1
  have lawful := holds_throughout_iff_of_legal Heeded (UdpHost.step settings) _
    (fun host => host.Steady ∧ host.Lawful)
    (fun host act ready held => by
      obtain ⟨after, law⟩ := held.1.step settings ready.1 ready.2
      rw [← law held.2]
      exact and_iff_right after)
    _ acts ready ⟨start_steady now ring, Law.nil⟩
  constructor
  · intro earlier before
    have carrying := (steady earlier before).carrying
    exact ⟨parsed_of_told carrying.bytes carrying.short, (steady earlier before).linked.same⟩
  · grind

namespace Stale

def anyWalk : Walk := ⟨id, fun list => List.Perm.refl list⟩

def published : Published := ⟨.v4 0, 53, .udp⟩

def dst : SocketAddr := (.v4 0xac110002, 53)

def client : SocketAddr := (.v4 0xc0a80107, 40000)

/-- An agent's stream is opened, a client speaks, the agent comes again on a new stream, and
the client speaks again. -/
def acts : List UdpAct :=
  [.around (.listen 5000),
    .around (.handle { Packet.control .request 7 5000 with bufAlloc := 4096 } 0),
    .agent (5000, 7), .publish published dst anyWalk,
    .readable published [(client, [1])] 0 anyWalk,
    .around (.handle { Packet.control .request 8 5000 with bufAlloc := 4096 } 0),
    .agent (5000, 8), .readable published [(client, [2])] 0 anyWalk]

def last : UdpHost := run (UdpHost.step ⟨false, false⟩) (UdpHost.start 0 256) acts

theorem last_words : last.words = [.told ⟨0, .data, [2]⟩] := by decide

theorem last_unlawful : ¬ Law last.words last.udpInboundFlows := by
  intro law
  have turn := law.ordered [] (.told ⟨0, .data, [2]⟩) [] last_words
  exact absurd (turn.1 rfl) (by decide)

/-- All the new agent is ever told is a datagram of a flow it was not told to open. -/
theorem datagram_without_opening :
    last.words = [.told ⟨0, .data, [2]⟩] ∧ last.accepted = [0, 1, 0, 0, 0, 0, 0, 2] ∧
      ¬ Law last.words last.udpInboundFlows :=
  ⟨last_words, by decide, last_unlawful⟩

/-- So some step of the run was not heeded. -/
theorem flows_consistent_iff_stale :
    ¬ Legal UdpHost.Heeded (UdpHost.step ⟨false, false⟩) (UdpHost.start 0 256) acts := by
  intro heeded
  have apart : Legal Apart (UdpHost.step ⟨false, false⟩) (UdpHost.start 0 256) acts := by
    simp [Legal, acts, Apart, FeederAct.apart]
  exact last_unlawful ((flows_consistent_iff ⟨false, false⟩ 0 256 acts apart (by decide)).2.mpr
    heeded acts (prefix_refl acts))

end Stale
end Lighter.Reactor
