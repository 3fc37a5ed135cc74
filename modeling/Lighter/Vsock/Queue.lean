import Lighter.Vsock.Sections

/-!
# What a section does to the bytes queued from the guest

A connection's queue grows at the back when the guest sends and shrinks at the
front when the host reads. `step_follows` says for every section what becomes of
one connection's queue: the sections that feed it or read from it change it as
`queueAfter` computes, a close drops it, and all others leave it alone.
-/

namespace Lighter.Vsock

open Packet Transition Vsock.Inner

/-- A connection after some work is new, with an empty queue, or was there before:
its queue has changed as `change` says, unless we have closed it, which leaves
nothing in a queue that was not there. -/
def Follows (key : ConnKey) (change : List Chunk → List Chunk) (before after : Inner) : Prop :=
  ∀ later, after.conns.lookup key = some later →
    (before.nextId < later.id ∧ later.outbound = []) ∨
    ∃ earlier, before.conns.lookup key = some earlier ∧ later.id = earlier.id ∧
      (earlier.state = .closed → later.state = .closed) ∧
      (later.outbound = change earlier.outbound ∨
        (later.state = .closed ∧ later.outbound ⊆ earlier.outbound))

variable {inner before after : Inner} {key : ConnKey} {extra : Move → Prop}

theorem Follows.refl (key : ConnKey) (inner : Inner) : Follows key id inner inner :=
  fun later found => Or.inr ⟨later, found, rfl, id, Or.inl rfl⟩

/-- A move that does not feed the queue, beyond emptying that of a closed
connection. -/
theorem Inner.apply_follows {move : Move} (sound : Sound inner move)
    (legal : Routine inner move ∨ move.feeds key = false) :
    Follows key id inner (inner.apply move) := by
  intro later found
  rcases lookup_apply sound key later found with ⟨prior, present, descends⟩ | opened
  · refine Or.inr ⟨prior, present, descends.id, descends.closed, ?_⟩
    cases fed : move.feeds key with
    | false => exact Or.inl (descends.outbound fed)
    | true =>
      -- Only the emptying of a closed connection's queue is routine and feeds.
      have routine := legal.resolve_right (by simp [fed])
      cases move with
      | leave other left finished taken =>
        have same : key = other := by simpa [Move.feeds] using fed
        subst same
        obtain ⟨rfl, _, conn, stands, closed⟩ := routine
        cases Option.some.inj (stands.symm.trans present)
        rw [apply, onConn_present present] at found
        have left : later.outbound = [] := by grind [lookup_set_self]
        exact Or.inr ⟨descends.closed closed, by simp [left]⟩
      | arrive | hold => exact routine.elim
      | _ => cases fed
  · obtain ⟨guestPort, state, now, _, rfl⟩ := opened
    exact Or.inl ⟨Nat.lt_succ_self _, rfl⟩

/-- A stretch of work that does not feed the queue. -/
theorem Does.follows (does : Does extra before after)
    (unfed : ∀ move, extra move → move.feeds key = false) : Follows key id before after := by
  refine (does.invariant
    (fun state => before.nextId ≤ state.nextId ∧ Follows key id before state) ?_
    ⟨Nat.le_refl _, Follows.refl key before⟩).2
  intro state move ⟨grown, follows⟩ ⟨sound, legal⟩
  refine ⟨grown.trans (nextId_apply sound), ?_⟩
  intro later found
  rcases apply_follows sound (legal.imp_right (unfed move)) later found with
    ⟨fresh, empty⟩ | ⟨middle, present, sameId, stays, queue⟩
  · exact Or.inl ⟨grown.trans_lt fresh, empty⟩
  rcases follows middle present with ⟨fresh, empty⟩ | ⟨prior, start, id, closed, before⟩
  · refine Or.inl ⟨sameId ▸ fresh, ?_⟩
    rcases queue with same | ⟨_, part⟩
    · exact same.trans empty
    · rw [empty] at part
      exact List.subset_nil.mp part
  · grind

/-- The sections that add to a connection's queue or take from it. -/
def Act.feeds (key : ConnKey) : Act → Bool
  | .handle packet _ => packet.op = .rw && guestKey packet = key
  | .guestRw _ packet _ _ _ => guestKey packet = key
  | .take reader | .read _ reader _ | .readExact _ reader _ _ => reader = key
  | _ => false

attribute [local simp] Move.feeds Act.feeds

theorem Act.extra_unfed {act : Act} (unfed : act.feeds key = false) (move : Move)
    (named : act.extra move) : move.feeds key = false := by
  cases move with
  | arrive other bytes =>
    cases act with
    | handle packet now =>
      obtain ⟨kind, rfl, _⟩ := named
      simpa [kind, eq_comm] using unfed
    | guestRw memory packet head spans now =>
      obtain ⟨rfl, _⟩ := named
      simpa [eq_comm] using unfed
    | _ => exact named.elim
  | hold other head spans =>
    cases act with
    | guestRw memory packet offered places now =>
      obtain ⟨rfl, _⟩ := named
      simpa [eq_comm] using unfed
    | _ => exact named.elim
  | leave other left finished taken =>
    cases act with
    | take reader | read memory reader want | readExact memory reader want out =>
      obtain ⟨rfl, _⟩ := named
      simpa [eq_comm] using unfed
    | _ => exact named.elim
  | _ => rfl

/-- What a section makes of the queue of a key's connection. -/
def queueAfter (settings : Settings) (inner : Inner) (key : ConnKey) :
    Act → List Chunk → List Chunk
  | .handle packet _, queue =>
      if packet.op = .rw ∧ guestKey packet = key then queue ++ [.owned packet.payload]
      else queue
  | .guestRw memory packet head spans now, queue =>
      if guestKey packet = key then
        queue ++ [if (inner.handleGuestRw settings memory packet head spans now).2 then
          .guest head spans else .owned (Inner.copyOut memory spans)]
      else queue
  | .take reader, queue => if reader = key then [] else queue
  | .read memory reader want, queue =>
      if reader = key ∧ want ≤ (queue.map Chunk.len).sum then
        (readChunks memory want queue).2.1
      else queue
  | .readExact memory reader want out, queue =>
      if reader = key then (readChunks memory (want - out.length) queue).2.1 else queue
  | _, queue => queue

theorem queueAfter_unfed (settings : Settings) {act : Act} (unfed : act.feeds key = false) :
    queueAfter settings inner key act = id := by
  funext queue
  cases act with
  | handle packet now =>
    have other : ¬(packet.op = .rw ∧ guestKey packet = key) := by
      simpa using unfed
    exact if_neg other
  | guestRw memory packet head spans now =>
    have other : guestKey packet ≠ key := by simpa using unfed
    exact if_neg other
  | take reader | readExact memory reader want out =>
    have other : reader ≠ key := by simpa using unfed
    exact if_neg other
  | read memory reader want =>
    have other : reader ≠ key := by simpa using unfed
    exact if_neg fun both => other both.1
  | _ => rfl

namespace Follows

variable {change : List Chunk → List Chunk}

theorem congr {other : List Chunk → List Chunk} (follows : Follows key change before after)
    (same : ∀ queue, other queue = change queue) : Follows key other before after := by
  rw [funext same]
  exact follows

/-- The connection stays where it is, its queue changed. -/
theorem of_set {conn : Conn} (present : inner.conns.lookup key = some conn) (changed : Conn)
    (table : after.conns = (inner.set key changed).conns) (id : changed.id = conn.id)
    (state : changed.state = conn.state)
    (queue : changed.outbound = change conn.outbound ∨
      (conn.state = .closed ∧ changed.outbound = conn.outbound)) :
    Follows key change inner after := by
  intro later found
  rw [table, lookup_set_self] at found
  cases found
  refine Or.inr ⟨conn, present, id, fun closed => state.trans closed, ?_⟩
  rcases queue with moved | ⟨closed, kept⟩
  · exact Or.inl moved
  · grind

/-- A section that does nothing to the table. -/
theorem of_same (table : after.conns = inner.conns)
    (queue : ∀ conn, inner.conns.lookup key = some conn →
      conn.outbound = change conn.outbound ∨ conn.state = .closed) :
    Follows key change inner after := by
  intro later found
  rw [table] at found
  refine Or.inr ⟨later, found, rfl, fun closed => closed, ?_⟩
  rcases queue later found with same | closed
  · exact Or.inl same
  · exact Or.inr ⟨closed, List.Subset.refl _⟩

theorem handleRw (packet : Packet) (now : Nat) (kind : packet.op = .rw) :
    Follows (guestKey packet) (fun queue => queue ++ [.owned packet.payload]) inner
      (inner.handle packet now) := by
  have handled : inner.handle packet now =
      (inner.observe (guestKey packet) packet).handleRw (guestKey packet) packet.payload := by
    simp [Inner.handle, kind]
  rw [handled]
  generalize guestKey packet = key
  cases found : inner.conns.lookup key with
  | none =>
    refine of_same ?_ ?_
    · simp [Inner.observe, Inner.handleRw, found, Inner.refuse, Inner.queue]
    · grind
  | some conn =>
    have heard : (inner.observe key packet).conns =
        (inner.set key (Inner.heard conn packet)).conns := by
      rw [observe_present found, conns_touch]
    have stands := (observe_heard found packet).1
    simp only [Inner.handleRw, stands]
    split
    · next closed =>
      exact of_set found _ heard rfl rfl (Or.inr ⟨closed, rfl⟩)
    rw [modify_present stands]
    refine of_set found { Inner.heard conn packet with
      received := conn.received + UInt32.ofNat packet.payload.length
      outbound := conn.outbound ++ [.owned packet.payload] } ?_ rfl rfl (Or.inl rfl)
    simp only [Inner.set, heard]
    exact AList.insert_insert _

theorem handleGuestRw (settings : Settings) (memory : GuestMemory) (packet : Packet)
    (head : UInt16) (spans : List (Nat × Nat)) (now : Nat) :
    Follows (guestKey packet) (fun queue => queue ++
        [if (inner.handleGuestRw settings memory packet head spans now).2 then
          .guest head spans else .owned (Inner.copyOut memory spans)]) inner
      (inner.handleGuestRw settings memory packet head spans now).1 := by
  rcases handleGuestRw_cases settings memory inner packet head spans now with
    ⟨absent, outcome⟩ | ⟨conn, present, outcome⟩
  · rw [outcome]
    refine of_same rfl ?_
    intro conn found
    cases absent.symm.trans found
  let counted := Inner.counted conn packet spans now
  have kept := counted_kept conn packet spans now
  have stands := lookup_set_self inner (guestKey packet) counted
  have state : counted.state = conn.state := countIn_state _ _ _
  rcases outcome with ⟨closed, outcome⟩ | ⟨_, _, _, outcome⟩ | ⟨_, outcome⟩
  · rw [outcome]
    exact of_set present (Inner.heard conn packet) (conns_touch _ _) rfl rfl (Or.inr ⟨closed, rfl⟩)
  · rw [outcome]
    refine of_set present { counted with
      outbound := conn.outbound ++ [.guest head spans], held := counted.held + 1 } ?_ kept.id state
      (Or.inl rfl)
    simp only [conns_touch]
    rw [Inner.apply, onConn_present stands, kept.outbound]
    simp [Inner.set]
  · rw [outcome]
    refine of_set present { counted with
      outbound := conn.outbound ++ [.owned (Inner.copyOut memory spans)] } ?_ kept.id state
      (Or.inl rfl)
    simp only [conns_touch]
    rw [Inner.apply, onConn_present stands, kept.outbound]
    simp [Inner.set]

theorem take (key : ConnKey) : Follows key (fun _ => []) inner (inner.tryTakeOutbound key).1 := by
  unfold Inner.tryTakeOutbound
  cases present : inner.conns.lookup key with
  | none =>
    refine of_same rfl ?_
    intro conn found
    cases present.symm.trans found
  | some conn =>
    simp only
    split
    · rw [modify_present present]
      exact of_set present { conn with outbound := [] } rfl rfl rfl (Or.inl rfl)
    next empty =>
    have none : conn.outbound = [] := not_not.mp empty
    split <;>
    · refine of_same rfl ?_
      intro other found
      cases Option.some.inj (present.symm.trans found)
      exact Or.inl none

/-- A read leaves the connection what it did not take. -/
theorem leave {conn : Conn} (found : inner.conns.lookup key = some conn)
    (finished : List UInt16) :
    Follows key change inner (inner.leave key (change conn.outbound) finished) := by
  unfold Inner.leave
  rw [modify_present found]
  exact of_set found { conn with outbound := change conn.outbound } rfl rfl rfl (Or.inl rfl)

variable (memory : Option GuestMemory)

theorem read (key : ConnKey) (want : Nat) :
    Follows key (fun queue => if want ≤ (queue.map Chunk.len).sum then
        (readChunks memory want queue).2.1 else queue) inner
      (inner.tryReadOutbound memory key want).1 := by
  unfold Inner.tryReadOutbound
  cases present : inner.conns.lookup key with
  | none =>
    refine of_same rfl ?_
    intro conn found
    cases present.symm.trans found
  | some conn =>
    simp only
    split
    · next short =>
      have rest : Follows key (fun queue => if want ≤ (queue.map Chunk.len).sum then
          (readChunks memory want queue).2.1 else queue) inner inner := by
        refine of_same rfl ?_
        intro other found
        cases Option.some.inj (present.symm.trans found)
        exact Or.inl (if_neg (Nat.not_le_of_lt short)).symm
      split <;> exact rest
    · next enough =>
      have left : Follows key (fun queue => if want ≤ (queue.map Chunk.len).sum then
          (readChunks memory want queue).2.1 else queue) inner (inner.leave key _ _) :=
        leave present (readChunks memory want conn.outbound).2.2
      simp only [if_pos (Nat.le_of_not_lt enough)] at left
      exact left

theorem readExact (key : ConnKey) (want : Nat) (out : List UInt8) :
    Follows key (fun queue => (readChunks memory (want - out.length) queue).2.1) inner
      (inner.readExactPass memory key want out).1 := by
  unfold Inner.readExactPass
  cases present : inner.conns.lookup key with
  | none =>
    refine of_same rfl ?_
    intro conn found
    cases present.symm.trans found
  | some conn =>
    have left : Follows key (fun queue => (readChunks memory (want - out.length) queue).2.1)
        inner (inner.leave key (readChunks memory (want - out.length) conn.outbound).2.1
          (readChunks memory (want - out.length) conn.outbound).2.2) := leave present _
    simp only
    split_ifs <;> exact left

end Follows

/-- Every section changes the queue of a key's connection as computed, or leaves a
closed connection no more than it had. -/
theorem step_follows (settings : Settings) (inner : Inner) (keyed : Keyed inner)
    (key : ConnKey) (act : Act) :
    Follows key (queueAfter settings inner key act) inner (step settings inner act) := by
  cases fed : act.feeds key with
  | false =>
    rw [queueAfter_unfed settings fed]
    exact (step_does settings inner keyed act).follows (Act.extra_unfed fed)
  | true =>
    cases act with
    | handle packet now =>
      obtain ⟨kind, mine⟩ : packet.op = .rw ∧ guestKey packet = key := by
        simpa using fed
      subst mine
      exact (Follows.handleRw packet now kind).congr fun queue => if_pos ⟨kind, rfl⟩
    | guestRw memory packet head spans now =>
      have mine : guestKey packet = key := by simpa using fed
      subst mine
      exact (Follows.handleGuestRw settings memory packet head spans now).congr
        fun queue => if_pos rfl
    | take reader =>
      have mine : reader = key := by simpa using fed
      subst mine
      exact (Follows.take reader).congr fun queue => if_pos rfl
    | read memory reader want =>
      have mine : reader = key := by simpa using fed
      subst mine
      refine (Follows.read memory reader want).congr ?_
      intro queue
      simp [queueAfter]
    | readExact memory reader want out =>
      have mine : reader = key := by simpa using fed
      subst mine
      exact (Follows.readExact memory reader want out).congr fun queue => if_pos rfl
    | _ => cases fed

end Lighter.Vsock
