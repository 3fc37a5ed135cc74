import Lighter.Lib.Fair
import Lighter.Reactor.Framed

/-!
# How much a framed stream keeps

The limit of a backlog is checked against what is unsent, but the buffer keeps what was sent
before it until the moment nothing is unsent. So the buffer is bounded for as long as the
bytes that go out between two such moments are; a guest that always grants a little and
never quite enough makes it grow without end.
-/

namespace Lighter.Reactor

open Vsock Endless List Vsock.Inner Feeder Outbox

/-- Where one call leaves the backlog. -/
inductive Placed (backlog : List UInt8) (place : Nat) (frames sent backlog' : List UInt8)
    (place' : Nat) : Prop where
  /-- Nothing waited: the rest of the batch waits now. -/
  | fresh (nothing : backlog.length ≤ place) (first : place' = 0)
      (part : backlog'.length ≤ frames.length)
  | drained (empty : backlog' = []) (first : place' = 0)
  | advanced (waiting : place < backlog.length) (next : place' = place + sent.length)
      (within : place' < backlog'.length)
      (few : backlog'.length - place' ≤ max framedBacklog (backlog.length - place))
      (grown : backlog' = backlog ++ frames ∨ backlog' = backlog)

theorem pushFramed_placed (inner : Inner) (key : ConnKey) (backlog : List UInt8) (place : Nat)
    (frames : List UInt8) (sorted : inner.outbox.Sorted) : Placed backlog place frames
      (queuedBetween key inner (pushFramed inner key backlog place frames).1)
      (pushFramed inner key backlog place frames).2.1
      (pushFramed inner key backlog place frames).2.2.1 := by
  unfold pushFramed
  split
  · rename_i past
    split
    · exact .drained rfl rfl
    obtain ⟨bytes, sends, back⟩ := trySendOwned_hands key frames sorted
    split
    all_goals
      rename_i result
      rw [result] at back
    · exact .drained rfl rfl
    · rename_i rest
      refine .fresh past rfl ?_
      have parts : bytes ++ rest = frames := back
      rw [← parts, length_append]
      exact Nat.le_add_left _ _
    · exact .drained rfl rfl
  · rename_i within
    rw [Nat.not_le] at within
    have whole : ∃ whole, (if backlog.length - place + frames.length ≤ framedBacklog
          then backlog ++ frames else backlog) = whole ∧
        (whole = backlog ++ frames ∨ whole = backlog) ∧ place < whole.length ∧
        whole.length - place ≤ max framedBacklog (backlog.length - place) := by grind
    obtain ⟨whole, same, grown, longer, few⟩ := whole
    dsimp only
    rw [same]
    split
    · next refusal result =>
      refine .advanced within ?_ longer few grown
      rw [trySend_queues key _ sorted result]
      rfl
    next after count result =>
    split
    · exact .drained rfl rfl
    next more =>
    rw [Nat.not_le] at more
    refine .advanced within ?_ more ?_ grown
    · rw [trySend_queues key _ sorted result, length_take, length_drop]
      dsimp only [Except.toOption, Option.getD]
      omega
    · dsimp only
      omega

namespace Feeder

variable (settings : Settings) {key : ConnKey} (now ring : Nat) {acts : Nat → FeederAct}

/-- The stream at each moment of an endless run. -/
def states (settings : Settings) (key : ConnKey) (now ring : Nat) (acts : Nat → FeederAct) :
    Nat → Feeder := path (Feeder.step settings key) (Feeder.start now ring) acts

/-- A step as the stream sees it: a call of `push_framed`, or nothing of the stream changes. -/
def Moves (before : Feeder) (act : FeederAct) (after : Feeder) : Prop :=
  (∃ frames, act = .push frames ∧ ∃ sent, after.accepted = before.accepted ++ sent ∧
    Placed before.backlog before.place frames sent after.backlog after.place) ∨
  (after.accepted = before.accepted ∧ after.backlog = before.backlog ∧ after.place = before.place)

theorem unsent_eq_nil {feeder : Feeder} :
    feeder.unsent = [] ↔ feeder.backlog.length ≤ feeder.place :=
  drop_eq_nil_iff

variable (apart : ∀ moment, (acts moment).apart key)
include apart

theorem states_whole (moment : Nat) :
    (states settings key now ring acts moment).Whole :=
  path_invariant (fun _ act => FeederAct.apart key act) Whole
    (fun _ _ whole apart => whole.step settings apart) (start_whole now ring) apart moment

/-- A step from one moment to the next. -/
theorem states_succ (moment : Nat) : Moves (states settings key now ring acts moment)
    (acts moment) (states settings key now ring acts (moment + 1)) := by
  have whole := states_whole settings now ring apart moment
  have next : states settings key now ring acts (moment + 1) =
      (states settings key now ring acts moment).step settings key (acts moment) := rfl
  rw [Moves, next]
  generalize states settings key now ring acts moment = feeder at whole
  have own := apart moment
  cases act : acts moment with
  | push frames =>
    have sorted := whole.sorted
    grind [Feeder.step, pushFramed_placed]
  | around act' => grind [Feeder.step, accepts_apart]

/-- What is kept besides the bytes already sent: at most the limit and a batch. -/
structure Roomy (most : Nat) (feeder : Feeder) : Prop where
  shape : (feeder.backlog = [] ∧ feeder.place = 0) ∨ feeder.place < feeder.backlog.length
  waits : feeder.unsent.length ≤ framedBacklog + most
  none : most = 0 → feeder.backlog = []

omit apart

variable {feeders : Nat → Feeder}
  (moves : ∀ moment, Moves (feeders moment) (acts moment) (feeders (moment + 1)))
include moves

/-- While something is unsent, the place moves by what is accepted. -/
theorem place_moves {prior : Nat} (wait : Nat) (waiting : ∀ moment, prior ≤ moment →
      moment ≤ prior + wait → (feeders moment).unsent ≠ []) :
    (feeders (prior + wait)).accepted.length + (feeders prior).place =
      (feeders prior).accepted.length + (feeders (prior + wait)).place := by
  induction wait with
  | zero => rfl
  | succ wait ih =>
    have before := ih fun moment after within =>
      waiting moment after (Nat.le_succ_of_le within)
    have some := waiting (prior + wait) (Nat.le_add_right _ _) (Nat.le_succ _)
    have still := waiting (prior + (wait + 1)) (Nat.le_add_right _ _) (Nat.le_refl _)
    rw [← Nat.add_assoc] at still ⊢
    rcases moves (prior + wait) with
      ⟨frames, act, sent, accepted, placed⟩ | ⟨accepted, backlog, place⟩
    · cases placed with
      | fresh nothing first part => exact absurd (unsent_eq_nil.mpr nothing) some
      | drained empty first => grind [unsent]
      | advanced waiting next within few grown =>
        rw [accepted, length_append, next]
        omega
    · rw [accepted, place]
      exact before

variable (begins : (feeders 0).backlog = [] ∧ (feeders 0).place = 0)
include begins

theorem states_roomy {most : Nat}
    (small : ∀ moment frames, acts moment = .push frames → frames.length ≤ most) (moment : Nat) :
    Roomy most (feeders moment) := by
  induction moment with
  | zero => exact ⟨Or.inl begins, by simp [unsent, begins], fun _ => begins.1⟩
  | succ moment ih =>
    rcases moves moment with
      ⟨frames, act, sent, _, placed⟩ | ⟨_, backlog, place⟩
    · have fits := small moment frames act
      cases placed with
      | fresh nothing first part =>
        refine ⟨?_, ?_, ?_⟩
        · rw [first]
          rcases eq_nil_or_concat (feeders (moment + 1)).backlog with
            empty | ⟨rest, last, full⟩
          · exact Or.inl ⟨empty, rfl⟩
          · refine Or.inr ?_
            rw [full]
            simp
        · unfold unsent
          rw [length_drop]
          omega
        · intro zero
          refine eq_nil_of_length_eq_zero ?_
          omega
      | drained empty first =>
        refine ⟨Or.inl ⟨empty, first⟩, ?_, fun _ => empty⟩
        unfold unsent
        rw [empty]
        simp
      | advanced waiting next within few grown =>
        have before := ih.waits
        unfold unsent at before
        rw [length_drop] at before
        refine ⟨Or.inr within, ?_, ?_⟩
        · unfold unsent
          rw [length_drop]
          omega
        · have none := ih.none
          grind
    · refine ⟨?_, ?_, ?_⟩
      · rw [backlog, place]
        exact ih.shape
      · unfold unsent
        rw [backlog, place]
        exact ih.waits
      · rw [backlog]
        exact ih.none

/-- Whatever waits has done so since a moment at which nothing of it had been sent. -/
theorem waits_since {moment : Nat} (some : (feeders moment).unsent ≠ []) :
    ∃ prior, prior ≤ moment ∧ (feeders prior).place = 0 ∧
      ∀ between, prior ≤ between → between ≤ moment → (feeders between).unsent ≠ [] := by
  induction moment with
  | zero => exact absurd (by simp [unsent, begins]) some
  | succ moment ih =>
    by_cases before : (feeders moment).unsent = []
    · refine ⟨moment + 1, Nat.le_refl _, ?_, ?_⟩
      · rcases moves moment with
          ⟨frames, act, sent, accepted, placed⟩ | ⟨accepted, backlog, place⟩
        · cases placed with
          | fresh nothing first part => exact first
          | drained empty first => exact first
          | advanced waiting next within few grown =>
            exact absurd (unsent_eq_nil.mp before) (Nat.not_le.mpr waiting)
        · grind [unsent]
      · grind
    · grind

end Feeder

/-- What keeps growing passes every bound. -/
theorem grows_past {size : Nat → Nat}
    (grows : ∀ moment, ∃ later, moment ≤ later ∧ size moment < size later) (since more : Nat) :
    ∃ later, since ≤ later ∧ size since + more ≤ size later := by
  induction more with
  | zero => exact ⟨since, Nat.le_refl _, Nat.le_refl _⟩
  | succ more ih =>
    obtain ⟨middle, after, reached⟩ := ih
    obtain ⟨later, next, larger⟩ := grows middle
    exact ⟨later, after.trans next, Nat.succ_le_of_lt (reached.trans_lt larger)⟩

/-- A stream's buffer is bounded, by its limit and a constant number of batches, exactly if
so is what is accepted while something waits all the time. -/
theorem bounded_iff (settings : Settings) (key : ConnKey) (now ring : Nat)
    (acts : Nat → FeederAct) (apart : ∀ moment, (acts moment).apart key) (most : Nat)
    (small : ∀ moment frames, acts moment = .push frames → frames.length ≤ most) :
    (∃ constant, ∀ moment, (Feeder.states settings key now ring acts moment).backlog.length ≤
      framedBacklog + constant * most) ↔
    ∃ constant, ∀ earlier later, earlier ≤ later →
      (∀ moment, earlier ≤ moment → moment ≤ later →
        (Feeder.states settings key now ring acts moment).unsent ≠ []) →
      (Feeder.states settings key now ring acts later).accepted.length ≤
        (Feeder.states settings key now ring acts earlier).accepted.length + constant * most := by
  have moves := states_succ settings now ring apart
  have roomy := states_roomy moves ⟨rfl, rfl⟩ small
  constructor
  · rintro ⟨constant, bounded⟩
    refine ⟨framedBacklog + constant, ?_⟩
    intro earlier later first waiting
    obtain ⟨wait, rfl⟩ := Nat.exists_eq_add_of_le first
    have even := place_moves moves wait waiting
    have last := waiting (earlier + wait) first (Nat.le_refl _)
    have within : (states settings key now ring acts (earlier + wait)).place <
        (states settings key now ring acts (earlier + wait)).backlog.length :=
      Nat.not_le.mp fun past => last (unsent_eq_nil.mpr past)
    have most_pos : 0 < most := by
      rcases Nat.eq_zero_or_pos most with zero | positive
      · rw [(roomy (earlier + wait)).none zero] at within
        exact absurd within (Nat.not_lt_zero _)
      · exact positive
    have long := bounded (earlier + wait)
    have scaled : framedBacklog + constant * most ≤ (framedBacklog + constant) * most := by
      rw [Nat.add_mul]
      exact Nat.add_le_add_right (Nat.le_mul_of_pos_right _ most_pos) _
    omega
  · rintro ⟨constant, bounded⟩
    refine ⟨constant + 1, fun moment => ?_⟩
    have waits := (roomy moment).waits
    rw [Nat.add_mul, Nat.one_mul]
    by_cases some : (states settings key now ring acts moment).unsent = []
    · have short := unsent_eq_nil.mp some
      rcases (roomy moment).shape with ⟨empty, _⟩ | within
      · rw [empty]
        exact Nat.zero_le _
      · exact absurd short (Nat.not_le.mpr within)
    · obtain ⟨earlier, first, zero, waiting⟩ := waits_since moves ⟨rfl, rfl⟩ some
      obtain ⟨wait, rfl⟩ := Nat.exists_eq_add_of_le first
      have even := place_moves moves wait waiting
      have sent := bounded earlier (earlier + wait) first waiting
      unfold unsent at waits
      rw [length_drop] at waits
      omega

/-- A stream's buffer is bounded, by its limit and a constant number of batches, exactly if
so is what is accepted while something waits all the time. Where credit keeps coming and the
backlog never drains it is not. -/
theorem backlog_bounded_iff (settings : Settings) (key : ConnKey) (now ring : Nat)
    (acts : Nat → FeederAct) (apart : ∀ moment, (acts moment).apart key) (most : Nat)
    (small : ∀ moment frames, acts moment = .push frames → frames.length ≤ most) :
    let states := Feeder.states settings key now ring acts
    ((∃ constant, ∀ moment, (states moment).backlog.length ≤ framedBacklog + constant * most) ↔
      ∃ constant, ∀ earlier later, earlier ≤ later →
        (∀ moment, earlier ≤ moment → moment ≤ later → (states moment).unsent ≠ []) →
        (states later).accepted.length ≤ (states earlier).accepted.length + constant * most) ∧
    ∀ since, (∀ moment, since ≤ moment → (states moment).unsent ≠ []) →
      (∀ moment, ∃ later, moment ≤ later ∧
        (states moment).accepted.length < (states later).accepted.length) →
      ¬ ∃ constant, ∀ moment, (states moment).backlog.length ≤ framedBacklog + constant * most := by
  intro states
  have exactly := bounded_iff settings key now ring acts apart most small
  refine ⟨exactly, fun since waiting grows bounded => ?_⟩
  obtain ⟨constant, within⟩ := exactly.mp bounded
  obtain ⟨later, after, past⟩ := grows_past grows since (constant * most + 1)
  have still := within since later after fun moment first _ => waiting moment first
  change (states later).accepted.length ≤ (states since).accepted.length + _ at still
  omega

namespace Leak

variable {gone read : Nat} {feeder : Feeder}

def key : ConnKey := (5000, 7)

/-- A receive chain with room for a header and a few bytes. -/
def drain : FeederAct := .around (.rx ⟨[⟨0, 4096⟩], fun _ => 0⟩ (9, [⟨0, 64, Virtio.descWrite, 0⟩]))

/-- The guest has read so many bytes, and has room for one more. -/
def grant (count : Nat) : FeederAct :=
  .around (.handle { Packet.control .creditUpdate 7 5000 with
    bufAlloc := 1, fwdCnt := UInt32.ofNat count } 0)

/-- A connection with room for one byte is offered two. -/
def opening : List FeederAct :=
  [.around (.listen 5000),
    .around (.handle { Packet.control .request 7 5000 with bufAlloc := 1 } 0), drain,
    .push [0, 0], drain, grant 1]

/-- A byte more is offered, one goes, and the guest makes room for one. -/
def turn (round : Nat) : List FeederAct := [.push [0], drain, grant (round + 2)]

def acts (moment : Nat) : FeederAct :=
  if moment < 6 then opening.getD moment drain
  else (turn ((moment - 6) / 3)).getD ((moment - 6) % 3) drain

def settings : Settings := ⟨false, false⟩

/-- So many bytes have gone, the guest has read so many of them, and one waits behind those
that are kept. -/
structure Leaking (gone read : Nat) (feeder : Feeder) : Prop where
  live : feeder.live = true
  conn : ∃ conn, feeder.inner.conns.lookup key = some conn ∧ conn.state = .established ∧
    conn.guestReceiveClosed = false ∧ conn.credit.peerBufAlloc = 1 ∧
    conn.credit.txCnt = UInt32.ofNat gone ∧ conn.credit.peerFwdCnt = UInt32.ofNat read
  backlog : feeder.backlog.length = gone
  place : feeder.place + 1 = gone
  accepted : feeder.accepted.length = gone

theorem sendLoop_one (window fwdCnt : UInt32) (room : Nat) (data : List UInt8) (inner : Inner)
    (some : data ≠ []) : Inner.sendLoop key window fwdCnt (room + 1) 1 data inner =
      (inner.sendPacket key window fwdCnt (data.take 1), 1) := by
  have long : 1 ≤ data.length := length_pos_iff.mpr some
  have one : min (min 1 Packet.maxPayload) data.length = 1 := by
    rw [show min 1 Packet.maxPayload = 1 from rfl, Nat.min_eq_left long]
  rw [Inner.sendLoop, if_neg (by simp [some])]
  simp only [one, Nat.sub_self]
  cases room with
  | zero => rfl
  | succ room => rfl

/-- A byte is offered and one goes. -/
theorem Leaking.push (now : Leaking gone gone feeder) (quiet : feeder.inner.outbox = empty) :
    Leaking (gone + 1) gone (feeder.step settings key (.push [0])) ∧
      ∃ packet : Packet, packet.payload.length = 1 ∧
        (feeder.step settings key (.push [0])).inner.outbox = ⟨[], [packet]⟩ := by
  obtain ⟨conn, found, state, receiving, room, sent, read⟩ := now.conn
  have place := now.place
  have backlog := now.backlog
  have available : conn.credit.available.toNat = 1 := by
    unfold Credit.available
    rw [room, sent, read, UInt32.sub_self]
    rfl
  have waits : ((feeder.backlog ++ [0]).drop feeder.place).length = 2 := by grind
  have result : feeder.inner.trySend key ((feeder.backlog ++ [0]).drop feeder.place) =
      (feeder.inner.sendPacket key conn.window conn.credit.fwdCnt
        (((feeder.backlog ++ [0]).drop feeder.place).take 1), .ok 1) := by
    unfold Inner.trySend
    rw [found]
    simp only [receiving, state, available]
    rw [quiet, show empty.room key = 1023 + 1 from rfl, sendLoop_one]
    · simp
    · intro none
      rw [none] at waits
      cases waits
  have queued : _ = take 1 _ := trySend_queues key _ (quiet ▸ empty_sorted) result
  have one : (((feeder.backlog ++ [0]).drop feeder.place).take 1).length = 1 := by
    rw [length_take, waits]
    rfl
  have within : ¬ feeder.place ≥ feeder.backlog.length := by omega
  have fits : feeder.backlog.length - feeder.place + [(0 : UInt8)].length ≤ framedBacklog := by
    rw [show feeder.backlog.length - feeder.place = 1 by omega]
    decide
  have more : ¬ feeder.place + 1 ≥ (feeder.backlog ++ [0]).length := by
    rw [length_append, length_singleton]
    omega
  simp only [Feeder.step, pushFramed, now.live, if_true, if_neg within, if_pos fits, result,
    if_neg more, queued]
  refine ⟨⟨rfl, ?_, ?_, ?_, ?_⟩, Inner.rwPacket key conn.window conn.credit.fwdCnt _, one, ?_⟩
  · refine ⟨{ conn with credit := conn.credit.sent (UInt32.ofNat 1) }, ?_, state, receiving,
      room, ?_, read⟩
    · rw [sendPacket_present found, one]
      exact AList.lookup_insert _
    · change conn.credit.txCnt + UInt32.ofNat 1 = _
      rw [sent, UInt32.ofNat_add]
  · rw [length_append, backlog, length_singleton]
  · rw [place]
  · rw [length_append, one, now.accepted]
  · rw [outbox_sendPacket, quiet]
    rfl

/-- The guest takes what waits in the outbox. -/
theorem Leaking.drain (now : Leaking gone read feeder) {packet : Packet}
    (short : packet.payload.length = 1) (waiting : feeder.inner.outbox = ⟨[], [packet]⟩) :
    Leaking gone read (feeder.step settings key drain) ∧
      (feeder.step settings key drain).inner.outbox = empty := by
  refine ⟨⟨now.live, now.conn, now.backlog, now.place, ?_⟩, ?_⟩
  · exact (length_append).trans now.accepted
  change (Device.drainRx ⟨feeder.inner.outbox, _, [], []⟩ [_]).outbox = _
  rw [waiting]
  simp [Device.drainRx, Device.fillRx, popFront, Device.cut, Device.capacity,
    Device.writable, Virtio.Descriptor.isWriteOnly, Virtio.descWrite, Packet.hdrLen, short, empty]

/-- The guest has read some bytes. -/
theorem Leaking.grant (now : Leaking gone read feeder) (count : Nat) :
    Leaking gone count (feeder.step settings key (grant count)) ∧
      (feeder.step settings key (Leak.grant count)).inner.outbox = feeder.inner.outbox := by
  obtain ⟨conn, found, state, receiving, _, sent, _⟩ := now.conn
  let later := { conn with credit := conn.credit.observe 1 (UInt32.ofNat count) }
  have heard : (feeder.step settings key (Leak.grant count)).inner =
      { feeder.inner with conns := feeder.inner.conns.insert key later }.touch key := by
    change feeder.inner.observe key _ = _
    unfold Inner.observe
    rw [found]
    dsimp only
    rw [modify_present found]
    rfl
  refine ⟨⟨now.live, ?_, now.backlog, now.place, ?_⟩, ?_⟩
  · rw [heard, conns_touch]
    exact ⟨later, AList.lookup_insert _, state, receiving, rfl, sent, rfl⟩
  · exact (length_append).trans now.accepted
  · rw [heard, outbox_touch]

theorem Leaking.next {round : Nat} (now : Leaking (round + 1) (round + 1) feeder)
    (quiet : feeder.inner.outbox = empty) :
    Leaking (round + 2) (round + 2)
        (Transition.run (Feeder.step settings key) feeder (turn round)) ∧
      (Transition.run (Feeder.step settings key) feeder (turn round)).inner.outbox =
        empty := by
  obtain ⟨offered, packet, short, waiting⟩ := now.push quiet
  obtain ⟨taken, drained⟩ := offered.drain short waiting
  obtain ⟨granted, same⟩ := taken.grant (round + 2)
  exact ⟨granted, same.trans drained⟩

theorem acts_turn (round : Nat) {index : Nat} (within : index < 3) :
    acts (6 + 3 * round + index) = (turn round).getD index drain := by
  unfold acts
  rw [if_neg (by omega), show (6 + 3 * round + index - 6) / 3 = round by omega,
    show (6 + 3 * round + index - 6) % 3 = index by omega]

variable (moment : Nat)

theorem acts_cases : acts moment ∈ opening ∨ ∃ round, acts moment ∈ turn round := by
  rcases Nat.lt_or_ge moment 6 with early | late
  · refine Or.inl ?_
    have all : ∀ index < 6, opening.getD index drain ∈ opening := by
      intro index small
      rw [getD_eq_getElem _ _ small]
      exact getElem_mem small
    unfold acts
    rw [if_pos early]
    exact all moment early
  · obtain ⟨rest, rfl⟩ := Nat.exists_eq_add_of_le late
    refine Or.inr ⟨rest / 3, ?_⟩
    have split : acts (6 + rest) = (turn (rest / 3)).getD (rest % 3) drain := by
      unfold acts
      rw [if_neg (by omega), Nat.add_sub_cancel_left]
    have within : rest % 3 < (turn (rest / 3)).length := Nat.mod_lt rest (by decide : 0 < 3)
    rw [split, getD_eq_getElem _ _ within]
    exact getElem_mem within

theorem acts_apart : (acts moment).apart key := by
  have opened : ∀ act ∈ opening, act.apart key := by
    simp [opening, FeederAct.apart, drain, grant]
  have turned : ∀ round, ∀ act ∈ turn round, act.apart key := by
    simp [turn, FeederAct.apart, drain, grant]
  rcases acts_cases moment with early | ⟨round, late⟩
  · exact opened _ early
  · exact turned round _ late

theorem acts_small (frames : List UInt8) (push : acts moment = .push frames) :
    frames.length ≤ 2 := by
  have opened : ∀ frames, .push frames ∈ opening → frames.length ≤ 2 := by
    simp [opening, drain, grant]
  have turned : ∀ round frames, .push frames ∈ turn round → frames.length ≤ 2 := by
    simp [turn, drain, grant]
  rcases acts_cases moment with early | ⟨round, late⟩
  · exact opened frames (push ▸ early)
  · exact turned round frames (push ▸ late)

/-- The stream of the run. -/
def stream : Nat → Feeder := Feeder.states settings key 0 256 acts

theorem stream_leaks (round : Nat) : Leaking (round + 1) (round + 1) (stream (6 + 3 * round)) ∧
    (stream (6 + 3 * round)).inner.outbox = empty := by
  induction round with
  | zero =>
    refine ⟨⟨by decide, ?_, by decide, by decide, by decide⟩, by decide⟩
    exact ⟨_, rfl, by decide, by decide, by decide, by decide, by decide⟩
  | succ round ih =>
    have turned : (range 3).map (fun index => acts (6 + 3 * round + index)) = turn round := by
      rw [show turn round = (range 3).map fun index => (turn round).getD index drain from rfl]
      exact map_congr_left fun index within => acts_turn round (mem_range.mp within)
    have whole : stream (6 + 3 * round + 3) = _ := path_add (6 + 3 * round) 3
    rw [turned] at whole
    rw [show 6 + 3 * (round + 1) = 6 + 3 * round + 3 from rfl, whole]
    exact ih.1.next ih.2

theorem Leaking.waits (now : Leaking gone read feeder) : feeder.unsent ≠ [] := by
  intro none
  have past := unsent_eq_nil.mp none
  have place := now.place
  rw [now.backlog] at past
  omega

/-- Something waits at every moment from the first grant on. -/
theorem stream_waits (moment : Nat) (late : 6 ≤ moment) : (stream moment).unsent ≠ [] := by
  obtain ⟨round, index, within, rfl⟩ : ∃ round index, index < 3 ∧ moment = 6 + 3 * round + index :=
    ⟨(moment - 6) / 3, (moment - 6) % 3, Nat.mod_lt _ (by decide), by omega⟩
  obtain ⟨now, quiet⟩ := stream_leaks round
  obtain ⟨offered, packet, short, waiting⟩ := now.push quiet
  have first : stream (6 + 3 * round + 1) =
      (stream (6 + 3 * round)).step settings key (.push [0]) :=
    congrArg _ (acts_turn round (by decide : 0 < 3))
  have second : stream (6 + 3 * round + 2) = (stream (6 + 3 * round + 1)).step settings key drain :=
    congrArg _ (acts_turn round (by decide : 1 < 3))
  interval_cases index
  · exact now.waits
  · rw [first]
    exact offered.waits
  · rw [second, first]
    exact (offered.drain short waiting).1.waits

theorem stream_grows (bound : Nat) : ∃ moment, bound ≤ moment ∧
    bound < (stream moment).backlog.length ∧ bound < (stream moment).accepted.length := by
  have leaks := (stream_leaks bound).1
  refine ⟨6 + 3 * bound, by omega, ?_, ?_⟩
  · rw [leaks.backlog]
    exact Nat.lt_succ_self _
  · rw [leaks.accepted]
    exact Nat.lt_succ_self _

/-- Batches of at most two bytes, credit without end that never lets the backlog drain, and a
buffer that outgrows every bound. -/
theorem backlog_grows : ∃ acts : Nat → FeederAct,
    (∀ moment, (acts moment).apart key) ∧
    (∀ moment frames, acts moment = .push frames → frames.length ≤ 2) ∧
    (∀ moment, ∃ later, moment ≤ later ∧
      (Feeder.states settings key 0 256 acts moment).accepted.length <
        (Feeder.states settings key 0 256 acts later).accepted.length) ∧
    (∀ moment, 6 ≤ moment → (Feeder.states settings key 0 256 acts moment).unsent ≠ []) ∧
    ∀ bound, ∃ moment, bound < (Feeder.states settings key 0 256 acts moment).backlog.length := by
  refine ⟨acts, acts_apart, acts_small, fun moment => ?_, stream_waits, fun bound => ?_⟩
  · obtain ⟨later, after, _, more⟩ := stream_grows (moment + (stream moment).accepted.length)
    refine ⟨later, by omega, ?_⟩
    change (stream moment).accepted.length < (stream later).accepted.length
    omega
  · obtain ⟨moment, _, more, _⟩ := stream_grows bound
    exact ⟨moment, more⟩

/-- What is accepted while something waits is not bounded either. -/
theorem backlog_bounded_iff_leak : ¬ ∃ constant, ∀ earlier later, earlier ≤ later →
    (∀ moment, earlier ≤ moment → moment ≤ later → (stream moment).unsent ≠ []) →
      (stream later).accepted.length ≤ (stream earlier).accepted.length + constant * 2 := by
  intro bounded
  obtain ⟨constant, most⟩ :=
    (backlog_bounded_iff settings key 0 256 acts acts_apart 2 acts_small).1.mpr bounded
  obtain ⟨moment, _, more, _⟩ := stream_grows (framedBacklog + constant * 2)
  exact absurd (most moment) (Nat.not_le.mpr more)

end Leak
end Lighter.Reactor
