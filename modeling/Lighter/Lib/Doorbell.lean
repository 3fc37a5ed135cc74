import Lighter.Lib.Transition

/-!
# A doorbell that is rung only when asked for

A producer and a consumer share two words that wrap: the index up to which the
producer has published, and an event, written by the consumer, that says at which
index it wants to hear. After publishing, the producer reads the event and rings if
its publication went past it. The consumer serves in passes: it takes entries until it
finds none, writes its cursor as the event, looks at the index once more, and takes
again if there is something. An entry may be one the consumer cannot use; it takes it
and stops for this time. Before it is open the consumer only notes that it was rung
for, and it is rung for again when it opens.

Every step of either party stands alone, so the laws are about every interleaving. The
law is that when no pass is under way, no ring on its way and no publication half done,
the cursor is at the index. It does not matter how far the producer is ahead, nor
whether a counter goes round while a pass is under way.
-/

namespace Lighter.Doorbell

open UInt16 (ofNat toNat_add)

/-- Whether the index has gone past the event, from `last` to `now`. -/
def crossed (wanted now last : UInt16) : Bool := now - wanted - 1 < now - last

/-- Where the consumer is in a pass. -/
inductive Stage where
  | idle
  /-- Taking entries: at the start of a pass, or after a look, with the cursor it had
  then. -/
  | service (before : Option UInt16)
  | arm
  | look
  /-- Done for this turn, having moved or not. -/
  | closing (moved : Bool)
deriving DecidableEq, Repr

structure Bell where
  index : UInt16
  cursor : UInt16
  event : UInt16
  /-- The index before a publication whose event has not been read yet. -/
  publishing : Option UInt16
  /-- Rings on their way. -/
  kicks : Nat
  opened : Bool
  /-- Rung for before it was open. -/
  early : Bool
  stage : Stage
deriving DecidableEq, Repr

inductive Act where
  | advance (count : Nat)
  | decide
  | ring
  /-- Takes an entry, one that can be used or not. -/
  | take (usable : Bool)
  | arm
  | look
  /-- Ends a turn; another one follows if something moved, here or elsewhere. -/
  | close (others : Bool)
  | activate
  /-- Looks without having been rung for. -/
  | poll
  /-- A pass that begins with arming. -/
  | pass
  /-- Nothing that concerns the bell. -/
  | other
deriving DecidableEq, Repr

namespace Bell

/-- What follows when the consumer found no entry it could use. -/
def drained (cursor : UInt16) : Option UInt16 → Stage
  | none => .arm
  | some before => .closing (cursor != before)

/-- A pass begins, or is noted for later. -/
def begin (bell : Bell) : Bell :=
  if bell.opened then { bell with stage := .service none } else { bell with early := true }

def step (bell : Bell) : Act → Bell
  | .advance count =>
      { bell with index := bell.index + UInt16.ofNat count, publishing := some bell.index }
  | .decide =>
      match bell.publishing with
      | none => bell
      | some last =>
          { bell with
            kicks := bell.kicks + if crossed bell.event bell.index last then 1 else 0
            publishing := none }
  | .ring => { bell with kicks := bell.kicks - 1 }.begin
  | .take usable =>
      match bell.stage with
      | .service before =>
          if bell.index = bell.cursor then { bell with stage := drained bell.cursor before }
          else if usable then { bell with cursor := bell.cursor + 1 }
          else { bell with cursor := bell.cursor + 1, stage := drained (bell.cursor + 1) before }
      | _ => bell
  | .arm => { bell with event := bell.cursor, stage := .look }
  | .look =>
      { bell with
        stage := if bell.index = bell.cursor then .closing false
          else .service (some bell.cursor) }
  | .close others =>
      match bell.stage with
      | .closing moved => { bell with stage := if moved || others then .arm else .idle }
      | _ => bell
  | .activate =>
      { bell with
        opened := true
        early := false
        kicks := bell.kicks + if bell.early then 1 else 0 }
  | .poll => if bell.index = bell.cursor then bell else bell.begin
  | .pass => { bell with stage := .arm }
  | .other => bell

/-- A producer publishes fewer than half the range at a time and finishes one
publication before the next; a pass is not begun while one is under way. -/
def Allowed (bell : Bell) : Act → Prop
  | .advance count => bell.publishing = none ∧ count < 32768
  | .ring => 0 < bell.kicks ∧ bell.stage = .idle
  | .take _ => ∃ before, bell.stage = .service before
  | .arm => bell.stage = .arm
  | .look => bell.stage = .look
  | .close _ => ∃ moved, bell.stage = .closing moved
  | .activate => bell.stage = .idle ∧ bell.opened = false
  | .poll => bell.stage = .idle
  | .pass => bell.stage = .idle ∧ bell.opened = true
  | .decide | .other => True

/-- A ring is on its way, or will be once the producer reads the event. -/
def Due (bell : Bell) : Prop :=
  0 < bell.kicks ∨ ∃ last, bell.publishing = some last ∧ crossed bell.event bell.index last = true

/-- Everything is taken, and the next publication will ring. -/
def Quiet (bell : Bell) : Prop := bell.index = bell.cursor ∧ bell.event = bell.cursor

/-- What a pass that armed at `before` has seen so far: the consumer has taken no more
than the producer shows, and that is at most once round the range. -/
def Within (bell : Bell) (before : UInt16) : Prop :=
  ∃ taken shown, taken ≤ shown ∧ shown ≤ 65536 ∧ bell.cursor = before + UInt16.ofNat taken ∧
    bell.index = before + UInt16.ofNat shown

def Sound (bell : Bell) : Prop :=
  match bell.stage with
  | .idle => (bell.opened = false ∧ bell.early = true) ∨ bell.Due ∨ bell.Quiet
  | .service none => True
  | .service (some before) => bell.event = before ∧ (bell.Due ∨ bell.Within before)
  | .arm => True
  | .look => bell.event = bell.cursor
  | .closing moved => moved = true ∨ bell.Due ∨ bell.Quiet

/-- A publication that starts at the event, or goes round to it, rings. -/
theorem crossed_of_lap {before : UInt16} {shown count : Nat} (positive : 0 < count)
    (short : count < 32768) (round : shown ≤ 65536) (past : shown = 0 ∨ 65536 < shown + count) :
    crossed before (before + ofNat (shown + count)) (before + ofNat shown) =
      true := by
  have below := before.toNat_lt
  simp only [crossed, decide_eq_true_eq, UInt16.lt_iff_toNat_lt, UInt16.toNat_sub,
    toNat_add, UInt16.toNat_ofNat', UInt16.toNat_one]
  omega

/-- An offset below the range is told by the word. -/
theorem add_ofNat_inj {before : UInt16} {first second : Nat}
    (same : before + ofNat first = before + ofNat second) : first % 65536 = second % 65536 := by
  have words := congrArg UInt16.toNat same
  simp only [toNat_add, UInt16.toNat_ofNat'] at words
  omega

/-- Each index is some way on from a place, by less than the range. -/
theorem exists_offset (before index : UInt16) :
    ∃ shown, shown < 65536 ∧ index = before + ofNat shown := by
  refine ⟨(index - before).toNat, UInt16.toNat_lt _, ?_⟩
  have first := before.toNat_lt
  have second := index.toNat_lt
  rw [UInt16.ofNat_toNat, ← UInt16.toNat_inj, toNat_add, UInt16.toNat_sub]
  omega

section Producer

variable {bell : Bell} {count : Nat}

/-- A publication onto a quiet bell rings, unless it is empty. -/
theorem Quiet.advance (quiet : bell.Quiet) (short : count < 32768) :
    (bell.step (.advance count)).Due ∨ (bell.step (.advance count)).Quiet := by
  obtain ⟨level, asked⟩ := quiet
  rcases Nat.eq_zero_or_pos count with none | positive
  · subst none
    refine Or.inr ⟨?_, asked⟩
    change bell.index + ofNat 0 = bell.cursor
    simpa using level
  refine Or.inl (Or.inr ⟨bell.index, rfl, ?_⟩)
  have rung : crossed bell.index (bell.index + ofNat (0 + count))
      (bell.index + ofNat 0) = true :=
    crossed_of_lap positive short (Nat.zero_le _) (Or.inl rfl)
  change crossed bell.event (bell.index + ofNat count) bell.index = true
  rw [asked, ← level]
  simpa using rung

/-- A publication during a pass rings as soon as it starts at the event or goes
round to it. -/
theorem Within.advance {before : UInt16} (within : bell.Within before)
    (armed : bell.event = before) (short : count < 32768) :
    (bell.step (.advance count)).Due ∨ (bell.step (.advance count)).Within before := by
  obtain ⟨taken, shown, ordered, round, cursor, index⟩ := within
  have later : bell.index + ofNat count = before + ofNat (shown + count) := by
    rw [index, UInt16.add_assoc, ← UInt16.ofNat_add]
  by_cases past : 0 < count ∧ (shown = 0 ∨ 65536 < shown + count)
  · refine Or.inl (Or.inr ⟨bell.index, rfl, ?_⟩)
    change crossed bell.event (bell.index + ofNat count) bell.index = true
    rw [armed, later, index]
    exact crossed_of_lap past.1 short round past.2
  · exact Or.inr ⟨taken, shown + count, by omega, by omega, cursor, later⟩

theorem Due.advance (due : bell.Due) (free : bell.publishing = none) :
    (bell.step (.advance count)).Due := by
  rcases due with kicks | ⟨last, half, _⟩
  · exact Or.inl kicks
  · rw [free] at half
    cases half

/-- Reading the event turns a ring that is due into one on its way. -/
theorem Due.decide (due : bell.Due) : (bell.step .decide).Due := by
  rcases due with kicks | ⟨last, half, past⟩
  · unfold step
    dsimp only
    split
    · exact Or.inl kicks
    · exact Or.inl (Nat.lt_of_lt_of_le kicks (Nat.le_add_right _ _))
  · refine Or.inl ?_
    simp only [step, half, past, if_true]
    exact Nat.succ_pos _

theorem words_decide (bell : Bell) :
    (bell.step .decide).index = bell.index ∧ (bell.step .decide).cursor = bell.cursor ∧
      (bell.step .decide).event = bell.event ∧ (bell.step .decide).stage = bell.stage ∧
      (bell.step .decide).opened = bell.opened ∧ (bell.step .decide).early = bell.early := by
  unfold step
  dsimp only
  split <;> exact ⟨rfl, rfl, rfl, rfl, rfl, rfl⟩

end Producer

namespace Sound

variable {bell : Bell}

theorem begin (free : bell.stage = .idle) : bell.begin.Sound := by
  unfold Bell.begin
  split
  · exact trivial
  · rename_i closed
    simp only [Sound, free]
    exact Or.inl ⟨by simpa using closed, trivial⟩

section

variable (sound : bell.Sound)
include sound

/-- A step of the producer, which leaves what is the consumer's. -/
theorem produced {after : Bell} (stage : after.stage = bell.stage)
    (cursor : after.cursor = bell.cursor)
    (event : after.event = bell.event) (opened : after.opened = bell.opened)
    (early : after.early = bell.early) (due : bell.Due → after.Due)
    (quiet : bell.Quiet → after.Due ∨ after.Quiet)
    (within : ∀ before, bell.event = before → bell.Within before →
      after.Due ∨ after.Within before) : after.Sound := by
  have settled : bell.Due ∨ bell.Quiet → after.Due ∨ after.Quiet := by
    rintro (rings | rests)
    · exact Or.inl (due rings)
    · exact quiet rests
  unfold Sound at sound ⊢
  rw [stage]
  split at sound
  · rw [opened, early]
    exact sound.imp_right settled
  · trivial
  · obtain ⟨armed, rings | reaches⟩ := sound
    · exact ⟨event.trans armed, Or.inl (due rings)⟩
    · exact ⟨event.trans armed, within _ armed reaches⟩
  · trivial
  · rw [event, cursor]
    exact sound
  · exact sound.imp_right settled

theorem advance {count : Nat} (free : bell.publishing = none)
    (short : count < 32768) : (bell.step (.advance count)).Sound :=
  sound.produced rfl rfl rfl rfl rfl (fun due => due.advance free)
    (fun quiet => quiet.advance short) fun _ armed within => within.advance armed short

theorem decide : (bell.step .decide).Sound := by
  obtain ⟨index, cursor, event, stage, opened, early⟩ := bell.words_decide
  refine sound.produced stage cursor event opened early Due.decide (fun quiet => Or.inr ?_)
    fun _ _ within => Or.inr ?_
  · rw [Quiet, index, cursor, event]
    exact quiet
  · rw [Within, index, cursor]
    exact within

/-- Taking an entry. A pass that ends its turn without having moved has found the ring
empty, even if the cursor came all the way round to where it was.

Proof: what was taken since arming is at most what was shown, which is at most once
round. A cursor back where it started has then taken nothing, and found the ring
empty, or has taken all there was. -/
theorem take (usable : Bool) {before : Option UInt16}
    (serving : bell.stage = .service before) : (bell.step (.take usable)).Sound := by
  cases before with
  | none =>
    simp only [step, serving, drained]
    split
    · trivial
    · split
      · simp [Sound]
      · trivial
  | some before =>
    simp only [Sound, serving] at sound
    obtain ⟨armed, promise⟩ := sound
    simp only [step, serving, drained]
    split
    · rename_i level
      by_cases moved : bell.cursor = before
      · exact Or.inr (Or.inr ⟨level, armed.trans moved.symm⟩)
      · exact Or.inl (by simpa using moved)
    rename_i apart
    have onward : bell.Within before → ∃ taken shown, taken < shown ∧ shown ≤ 65536 ∧
        bell.cursor + 1 = before + ofNat (taken + 1) ∧
        bell.index = before + ofNat shown := by
      rintro ⟨taken, shown, ordered, round, cursor, index⟩
      refine ⟨taken, shown, Nat.lt_of_le_of_ne ordered ?_, round, ?_, index⟩
      · rintro rfl
        exact apart (index.trans cursor.symm)
      · rw [cursor, UInt16.add_assoc, UInt16.ofNat_add]
        rfl
    split
    · simp only [Sound]
      refine ⟨armed, promise.imp id ?_⟩
      intro within
      obtain ⟨taken, shown, ordered, round, cursor, index⟩ := onward within
      exact ⟨taken + 1, shown, ordered, round, cursor, index⟩
    by_cases moved : bell.cursor + 1 = before
    · refine Or.inr (promise.imp id ?_)
      intro within
      obtain ⟨taken, shown, ordered, round, cursor, index⟩ := onward within
      -- The cursor is back at the start with something taken: once round.
      have back : before + ofNat (taken + 1) = before + ofNat 0 := by
        rw [← cursor, moved]
        simp
      have whole := add_ofNat_inj back
      have all : shown = taken + 1 := by omega
      exact ⟨by rw [index, all, cursor], armed.trans moved.symm⟩
    · exact Or.inl (by simpa using moved)

theorem look (ready : bell.stage = .look) : (bell.step .look).Sound := by
  simp only [Sound, ready] at sound
  unfold Bell.step
  by_cases level : bell.index = bell.cursor
  · simp only [if_pos level]
    exact Or.inr (Or.inr ⟨level, sound⟩)
  simp only [if_neg level]
  obtain ⟨shown, below, index⟩ := exists_offset bell.cursor bell.index
  refine ⟨sound, Or.inr ⟨0, shown, Nat.zero_le _, Nat.le_of_lt below, ?_, index⟩⟩
  simp

theorem close (others : Bool) {moved : Bool}
    (closing : bell.stage = .closing moved) : (bell.step (.close others)).Sound := by
  simp only [Sound, closing] at sound
  simp only [Bell.step, closing]
  cases more : moved || others with
  | true => trivial
  | false =>
    have still : moved = false := by
      cases moved
      · rfl
      · simp at more
    rcases sound with again | rest
    · rw [still] at again
      cases again
    · exact Or.inr rest

/-- What was rung for early is a ring again. -/
theorem activate (free : bell.stage = .idle) : (bell.step .activate).Sound := by
  simp only [Sound, free] at sound
  have same : (bell.step .activate).stage = .idle := free
  have more : bell.kicks ≤ (bell.step .activate).kicks := Nat.le_add_right _ _
  simp only [Sound, same]
  refine Or.inr ?_
  rcases sound with ⟨_, noted⟩ | (kicks | waiting) | quiet
  · refine Or.inl (Or.inl ?_)
    simp [Bell.step, noted]
  · exact Or.inl (Or.inl (Nat.lt_of_lt_of_le kicks more))
  · exact Or.inl (Or.inr waiting)
  · exact Or.inr quiet

/-- Every step of either party keeps the law. -/
theorem step (act : Act) (legal : bell.Allowed act) : (bell.step act).Sound := by
  cases act with
  | advance count => exact sound.advance legal.1 legal.2
  | decide => exact sound.decide
  | ring => exact begin legal.2
  | take usable =>
    obtain ⟨before, serving⟩ := legal
    exact sound.take usable serving
  | arm => exact rfl
  | look => exact sound.look legal
  | close others =>
    obtain ⟨moved, closing⟩ := legal
    exact sound.close others closing
  | activate => exact sound.activate legal.1
  | poll =>
    unfold Bell.step
    dsimp only
    split
    · exact sound
    · exact begin legal
  | pass => trivial
  | other => exact sound

end

end Sound

/-- When nothing is under way and nothing on its way, everything is taken. -/
theorem Sound.level {bell : Bell} (sound : bell.Sound) (opened : bell.opened = true)
    (idle : bell.stage = .idle) (silent : bell.kicks = 0) (done : bell.publishing = none) :
    bell.index = bell.cursor := by
  simp only [Sound, idle] at sound
  rcases sound with ⟨closed, _⟩ | due | quiet
  · rw [opened] at closed
    cases closed
  · rcases due with kicks | ⟨last, half, _⟩
    · omega
    · rw [done] at half
      cases half
  · exact quiet.1

end Bell
end Lighter.Doorbell
