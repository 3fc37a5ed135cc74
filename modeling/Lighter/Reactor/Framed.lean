import Lighter.Vsock.Turns

/-!
# Framed streams

DNS replies and the UDP streams carry frames back to back. A batch of whole frames is sent
as far as the guest's credit goes; what is left waits in the stream's backlog, and batches
that come meanwhile go behind it or, past a limit, are dropped whole. A frame that was cut
and never finished would have the guest read payload as headers from then on.

`Feeder` follows one stream through a run: the batches offered, with what was unsent when
they were, and the bytes that went into packets for the connection.
-/

namespace Lighter.Reactor

open Vsock Transition List

/-- How much a framed stream may hold before new frames are dropped whole. -/
def framedBacklog : Nat := 2 ^ 20

/-- Sends a framed stream's backlog, from the place it has been sent to, and then the frames,
as far as credit allows. -/
def pushFramed (inner : Inner) (key : ConnKey) (backlog : List UInt8) (place : Nat)
    (frames : List UInt8) : Inner × List UInt8 × Nat × Except Gone Unit :=
  if place ≥ backlog.length then
    if frames = [] then (inner, [], 0, .ok ())
    else
      -- Nothing waits: the frames go as they are.
      match inner.trySendOwned key frames with
      | (inner, .error broken) => (inner, [], 0, .error broken)
      | (inner, .ok (some rest)) => (inner, rest, 0, .ok ())
      | (inner, .ok none) => (inner, [], 0, .ok ())
  else
    let backlog :=
      if backlog.length - place + frames.length ≤ framedBacklog then backlog ++ frames else backlog
    match inner.trySend key (backlog.drop place) with
    | (inner, .error broken) => (inner, backlog, place, .error broken)
    | (inner, .ok count) =>
        let place := place + count
        if place ≥ backlog.length then (inner, [], 0, .ok ()) else (inner, backlog, place, .ok ())

/-- A batch and how much was unsent when it was offered. -/
structure Offer where
  waiting : Nat
  batch : List UInt8
deriving DecidableEq, Repr

structure Feeder where
  inner : Inner
  backlog : List UInt8
  place : Nat
  /-- The stream is open: its connection was there at every send. -/
  live : Bool
  accepted : List UInt8
  offers : List Offer

inductive FeederAct where
  | push (frames : List UInt8)
  /-- Anything else that happens to the device. -/
  | around (act : Act)

/-- Bytes put into packets for a connection between two states of the device. -/
def queuedBetween (key : ConnKey) (before after : Inner) : List UInt8 :=
  ((after.outbox.pending key).drop (before.outbox.pending key).length).flatMap streamed

namespace Feeder

def start (now ring : Nat) : Feeder :=
  ⟨{ Inner.new now with txRing := ring }, [], 0, true, [], []⟩

/-- The bytes that were taken on and not sent. -/
def unsent (feeder : Feeder) : List UInt8 := feeder.backlog.drop feeder.place

/-- `queue_framed`, or anything else. A stream whose connection is gone is closed. -/
def step (settings : Settings) (key : ConnKey) (feeder : Feeder) : FeederAct → Feeder
  | .push frames =>
      if feeder.live then
        let pushed := pushFramed feeder.inner key feeder.backlog feeder.place frames
        { inner := pushed.1
          backlog := pushed.2.1
          place := pushed.2.2.1
          live := pushed.2.2.2.isOk
          accepted := feeder.accepted ++ queuedBetween key feeder.inner pushed.1
          offers := feeder.offers ++ [⟨feeder.unsent.length, frames⟩] }
      else feeder
  | .around act =>
      { feeder with
        inner := Vsock.step settings feeder.inner act
        accepted := feeder.accepted ++ accepts feeder.inner key act }

end Feeder

/-- The bytes of the batches that are carried, in order: each batch completely or not at all,
and only one past the limit not at all. -/
inductive Carried : List Offer → List UInt8 → Prop where
  | none : Carried [] []
  | took {offers : List Offer} {bytes : List UInt8} (before : Carried offers bytes)
      (offer : Offer) :
      Carried (offers ++ [offer]) (bytes ++ offer.batch)
  | dropped {offers : List Offer} {bytes : List UInt8} (before : Carried offers bytes)
      (offer : Offer) (full : framedBacklog < offer.waiting + offer.batch.length) :
      Carried (offers ++ [offer]) bytes

/-- Anything but another sender on the connection. -/
def FeederAct.apart (key : ConnKey) : FeederAct → Prop
  | .push _ => True
  | .around (.trySend other _) | .around (.trySendOwned other _) | .around (.sendPass other _) =>
      other ≠ key
  | .around _ => True

theorem accepts_apart {key : ConnKey} {act : Act} (apart : (FeederAct.around act).apart key)
    (inner : Inner) : accepts inner key act = [] := by
  cases act with
  | trySend other data | trySendOwned other data | sendPass other data =>
    exact if_neg apart
  | _ => rfl

theorem queuedBetween_of_sends {key : ConnKey} {before after : Inner} {bytes : List UInt8}
    (sends : Sends key before after bytes) : queuedBetween key before after = bytes := by
  obtain ⟨packets, waiting, content, _⟩ := sends
  unfold queuedBetween
  rw [waiting, drop_left, content]

/-- What one call does with the bytes that waited and the batch. -/
inductive Pushed (waiting frames : List UInt8) (sent unsent : List UInt8) (live : Bool) : Prop where
  | whole (parts : sent ++ unsent = waiting ++ frames)
  | dropped (full : framedBacklog < waiting.length + frames.length)
      (parts : sent ++ unsent = waiting)
  | gone (ended : live = false) (nothing : sent = [])

theorem trySend_queues {inner : Inner} (key : ConnKey) (data : List UInt8)
    (sorted : inner.outbox.Sorted) {after : Inner} {outcome : Except Gone Nat}
    (result : inner.trySend key data = (after, outcome)) :
    queuedBetween key inner after = data.take (outcome.toOption.getD 0) := by
  have sends := Inner.trySend_sends key data sorted
  simp only [accepts, if_true, result] at sends
  cases outcome <;> exact queuedBetween_of_sends sends

/-- One call touches the device as one section does, or not at all. -/
theorem pushFramed_inner (settings : Settings) (inner : Inner) (key : ConnKey)
    (backlog : List UInt8) (place : Nat) (frames : List UInt8) :
    (pushFramed inner key backlog place frames).1 = inner ∨
      ∃ act, (pushFramed inner key backlog place frames).1 = Vsock.step settings inner act := by
  unfold pushFramed
  split
  · split
    · exact Or.inl rfl
    · refine Or.inr ⟨.trySendOwned key frames, ?_⟩
      change _ = (inner.trySendOwned key frames).1
      split <;> next result => rw [result]
  dsimp only
  generalize (if backlog.length - place + frames.length ≤ framedBacklog
    then backlog ++ frames else backlog) = whole
  refine Or.inr ⟨.trySend key (whole.drop place), ?_⟩
  change _ = (inner.trySend key _).1
  split
  · next result => rw [result]
  · next result =>
    rw [result]
    split <;> rfl

/-- Whether a batch is over what the backlog may hold. -/
def overflows (backlog : List UInt8) (place : Nat) (frames : List UInt8) : Prop :=
  place < backlog.length ∧ framedBacklog < backlog.length - place + frames.length

instance (backlog : List UInt8) (place : Nat) (frames : List UInt8) :
    Decidable (overflows backlog place frames) := inferInstanceAs (Decidable (_ ∧ _))

/-- What waited and the batch, unless it is over the limit, are what went and what waits now,
if the connection is there. -/
def PushParts (inner : Inner) (key : ConnKey) (backlog : List UInt8) (place : Nat)
    (frames : List UInt8) (pushed : Inner × List UInt8 × Nat × Except Gone Unit) : Prop :=
  match pushed.2.2.2 with
  | .error _ => queuedBetween key inner pushed.1 = []
  | .ok _ => queuedBetween key inner pushed.1 ++ pushed.2.1.drop pushed.2.2.1 =
      if overflows backlog place frames then backlog.drop place else backlog.drop place ++ frames

theorem pushFramed_parts (inner : Inner) (key : ConnKey) (backlog : List UInt8) (place : Nat)
    (frames : List UInt8) (sorted : inner.outbox.Sorted) :
    PushParts inner key backlog place frames (pushFramed inner key backlog place frames) := by
  have still : queuedBetween key inner inner = [] := queuedBetween_of_sends (Sends.none key inner)
  unfold pushFramed
  split
  · rename_i past
    have target : (if overflows backlog place frames then backlog.drop place
        else backlog.drop place ++ frames) = frames := by
      rw [if_neg fun full : overflows backlog place frames => absurd past (Nat.not_le.mpr full.1),
        drop_eq_nil_of_le past, nil_append]
    split
    · rename_i empty
      refine Eq.trans ?_ target.symm
      rw [empty]
      exact congrArg (· ++ []) still
    obtain ⟨bytes, sends, back⟩ := Inner.trySendOwned_hands key frames sorted
    have queued := queuedBetween_of_sends sends
    split
    all_goals
      rename_i result
      rw [result] at queued back
    · exact queued.trans back
    · exact ((congrArg (· ++ _) queued).trans back).trans target.symm
    · rw [show bytes = frames from back] at queued
      exact ((congrArg (· ++ []) queued).trans (append_nil frames)).trans target.symm
  · rename_i within
    rw [Nat.not_le] at within
    -- Whether or not the batch fits, the backlog is what is sent from.
    dsimp only
    generalize same : (if backlog.length - place + frames.length ≤ framedBacklog
      then backlog ++ frames else backlog) = sending
    have target : sending.drop place = if overflows backlog place frames then backlog.drop place
        else backlog.drop place ++ frames := by
      rw [← same]
      by_cases fits : backlog.length - place + frames.length ≤ framedBacklog
      · rw [if_pos fits, if_neg fun full : overflows backlog place frames =>
          absurd fits (Nat.not_le.mpr full.2), drop_append_of_le_length (Nat.le_of_lt within)]
      · rw [if_neg fits, if_pos ⟨within, Nat.not_le.mp fits⟩]
    split
    · next refusal result => exact trySend_queues key _ sorted result
    next after count result =>
    have sent : _ = take count _ := trySend_queues key _ sorted result
    have parts : queuedBetween key inner after ++ sending.drop (place + count) =
        sending.drop place := by
      rw [sent, ← drop_drop, take_append_drop]
    split
    · next drained =>
      rw [drop_eq_nil_of_le drained] at parts
      exact parts.trans target
    · exact parts.trans target

/-- What waited and the batch are what went and what waits now, or the batch was over the
limit, or the connection is gone. -/
theorem pushFramed_spec (inner : Inner) (key : ConnKey) (backlog : List UInt8) (place : Nat)
    (frames : List UInt8) (sorted : inner.outbox.Sorted) : Pushed (backlog.drop place) frames
      (queuedBetween key inner (pushFramed inner key backlog place frames).1)
      ((pushFramed inner key backlog place frames).2.1.drop
        (pushFramed inner key backlog place frames).2.2.1)
      (pushFramed inner key backlog place frames).2.2.2.isOk := by
  have parts := pushFramed_parts inner key backlog place frames sorted
  generalize pushFramed inner key backlog place frames = pushed at parts
  obtain ⟨after, backlog', place', result⟩ := pushed
  cases result with
  | error refusal => exact .gone rfl parts
  | ok value =>
    by_cases full : overflows backlog place frames
    · refine .dropped ?_ (Eq.trans parts (if_pos full))
      rw [length_drop]
      exact full.2
    · exact .whole (Eq.trans parts (if_neg full))

namespace Feeder

/-- What was accepted is the start of what is carried, and the rest of it waits. -/
structure Whole (feeder : Feeder) : Prop where
  keyed : Keyed feeder.inner
  sorted : feeder.inner.outbox.Sorted
  carried : ∃ bytes, Carried feeder.offers bytes ∧ feeder.accepted <+: bytes ∧
    (feeder.live = true → feeder.accepted ++ feeder.unsent = bytes)

theorem start_whole (now ring : Nat) : Whole (start now ring) where
  keyed := by
    intro other conn found
    simp [start, Inner.new] at found
  sorted := Outbox.empty_sorted
  carried := ⟨[], .none, nil_prefix, fun _ => rfl⟩

theorem Whole.step (settings : Settings) {key : ConnKey} {feeder : Feeder} (whole : Whole feeder)
    {act : FeederAct} (apart : act.apart key) : Whole (feeder.step settings key act) := by
  cases act with
  | push frames =>
    unfold Feeder.step
    dsimp only
    split
    · rename_i live
      obtain ⟨bytes, carried, _, rest⟩ := whole.carried
      have all := rest live
      have pushed :=
        pushFramed_spec feeder.inner key feeder.backlog feeder.place frames whole.sorted
      have touched := pushFramed_inner settings feeder.inner key feeder.backlog feeder.place frames
      generalize pushFramed feeder.inner key feeder.backlog feeder.place frames = result
        at pushed touched
      refine ⟨?_, ?_, ?_⟩
      · have keyed := whole.keyed
        grind [step_keyed]
      · rcases touched with same | ⟨act, after⟩
        · exact same ▸ whole.sorted
        · exact after ▸ step_sorted settings feeder.inner whole.keyed whole.sorted act
      cases pushed with
      | whole parts =>
        have now : (feeder.accepted ++ queuedBetween key feeder.inner result.1) ++
            result.2.1.drop result.2.2.1 = bytes ++ frames := by
          rw [append_assoc, parts, ← append_assoc]
          exact congrArg (· ++ frames) all
        exact ⟨bytes ++ frames, .took carried ⟨feeder.unsent.length, frames⟩,
          ⟨_, now⟩, fun _ => now⟩
      | dropped full parts =>
        have now : (feeder.accepted ++ queuedBetween key feeder.inner result.1) ++
            result.2.1.drop result.2.2.1 = bytes := by
          rw [append_assoc, parts]
          exact all
        exact ⟨bytes, .dropped carried ⟨feeder.unsent.length, frames⟩ full, ⟨_, now⟩, fun _ => now⟩
      | gone ended nothing =>
        refine ⟨bytes ++ frames, .took carried ⟨feeder.unsent.length, frames⟩, ?_, ?_⟩
        · grind
        · grind
    · exact whole
  | around act =>
    refine ⟨step_keyed settings feeder.inner whole.keyed act,
      step_sorted settings feeder.inner whole.keyed whole.sorted act, ?_⟩
    unfold Feeder.step
    dsimp only
    rw [accepts_apart apart, append_nil]
    exact whole.carried

end Feeder

/-- For every run of batches and of anything else that happens to the device, the bytes
accepted for the connection are a prefix of the batches carried, and while the stream is
open what waits is exactly the rest of them. -/
theorem frames_never_torn (settings : Settings) (key : ConnKey) (now ring : Nat)
    (acts : List FeederAct) (apart : ∀ act ∈ acts, act.apart key) :
    let feeder := run (Feeder.step settings key) (Feeder.start now ring) acts
    ∃ bytes, Carried feeder.offers bytes ∧ feeder.accepted <+: bytes ∧
      (feeder.live = true → feeder.accepted ++ feeder.unsent = bytes) := by
  intro feeder
  have whole : feeder.Whole := by
    refine run_invariant (fun _ act => FeederAct.apart key act) (Feeder.step settings key)
      Feeder.Whole (fun state act whole apart => whole.step settings apart) _ acts
      (Feeder.start_whole now ring) (legal_of_all _ apart)
  exact whole.carried

/-- A guest with room for two bytes is sent three, then one more. -/
def sentPastCredit : List FeederAct :=
  [.around (.listen 5000),
    .around (.handle { Packet.control .request 7 5000 with bufAlloc := 2 } 0),
    .push [1, 2, 3], .push [4],
    .around (.handle { Packet.control .creditUpdate 7 5000 with bufAlloc := 2, fwdCnt := 1 } 0),
    .push []]

/-- Three bytes have gone, and the fourth is the rest. -/
theorem frames_never_torn_cut :
    let feeder := run (Feeder.step ⟨false, false⟩ (5000, 7)) (Feeder.start 0 256) sentPastCredit
    feeder.accepted = [1, 2, 3] ∧ feeder.unsent = [4] ∧ Carried feeder.offers [1, 2, 3, 4] := by
  intro feeder
  have accepted : feeder.accepted = [1, 2, 3] := by decide
  have unsent : feeder.unsent = [4] := by decide
  have live : feeder.live = true := by decide
  obtain ⟨bytes, carried, _, rest⟩ :=
    frames_never_torn ⟨false, false⟩ (5000, 7) 0 256 sentPastCredit (by
      simp [sentPastCredit, FeederAct.apart])
  refine ⟨accepted, unsent, ?_⟩
  have all : feeder.accepted ++ feeder.unsent = bytes := rest live
  rw [accepted, unsent] at all
  subst all
  exact carried

end Lighter.Reactor
