import Lighter.Docker.Forwards

/-!
# Forwards match what was asked

After a call the mapper should hold open exactly the forwards recorded, every port asked for
on all of its addresses or on none, with a failure recorded for exactly those on none. What
one port's turn does is told once, and only about that port; the ports of a call do not
touch each other.

A call that closes a port again does not look at the mapper's answer, and a port found
forwarded already keeps an earlier failure. The law holds for as long as neither matters.
-/

namespace Lighter.Docker

variable {published : Published} {state : State}

/-- Among these requests, closing a forward was refused. -/
def Refused (news : List (Request × Except String Unit)) (published : Published) : Prop :=
  ∃ text, (.unexpose published, .error text) ∈ news

/-- The mapper holds open what is recorded as forwarded. -/
def Agrees (state : State) : Prop :=
  ∀ published, state.mapper.isOpen published = true ↔ published ∈ state.forwards.forwarded

/-- The requests made between two states of the mapper. -/
def newsBetween (before after : State) : List (Request × Except String Unit) :=
  after.mapper.log.drop before.mapper.log.length

/-- The law after a call. -/
structure Settled (call : Call) (before after : State) : Prop where
  agrees : Agrees after
  whole : ∀ key,
    (∀ published ∈ call.desired, published.key = key → published ∈ after.forwards.forwarded) ∨
      ∀ published ∈ call.desired, published.key = key → published ∉ after.forwards.forwarded
  failed : ∀ key, (after.forwards.failed key).isSome ↔
    ∃ published ∈ call.desired, published.key = key ∧ published ∉ after.forwards.forwarded
  extra : ∀ published ∈ after.forwards.forwarded, published ∉ call.desired →
    Refused (newsBetween before after) published

/-- The mapper refuses to close nothing that is asked for, and a port that failed before is
not found forwarded on all the addresses now asked for. -/
structure Spared (call : Call) (before after : State) : Prop where
  closes : ∀ published ∈ call.desired, ¬ Refused (newsBetween before after) published
  fresh : ∀ key, (before.forwards.failed key).isSome →
    (∃ published ∈ call.desired, published.key = key) →
      ∃ published ∈ call.desired, published.key = key ∧ published ∉ before.forwards.forwarded

theorem Refused.append {first second : List (Request × Except String Unit)} :
    Refused (first ++ second) published ↔ Refused first published ∨ Refused second published := by
  simp only [Refused, List.mem_append, exists_or]

variable (host : Host)

/-- What asking the mapper does. -/
theorem ask_cases (mapper : Mapper) (request : Request) (value : Bool) :
    mapper.ask host request value = (.ok (), ⟨Function.update mapper.isOpen request.published value,
        mapper.log ++ [(request, .ok ())]⟩) ∨
      ∃ text, mapper.ask host request value =
        (.error text, ⟨mapper.isOpen, mapper.log ++ [(request, .error text)]⟩) := by
  unfold Mapper.ask
  cases host.answer mapper.log.length with
  | ok value => exact Or.inl rfl
  | error text => exact Or.inr ⟨text, rfl⟩

/-- What is not asked for any more is closed and forgotten, unless the mapper refuses. -/
structure Withdrawn (gone : List Published) (before after : State)
    (news : List (Request × Except String Unit)) : Prop where
  log : after.mapper.log = before.mapper.log ++ news
  about : ∀ entry ∈ news, entry.1.published ∈ gone
  failed : after.forwards.failed = before.forwards.failed
  others : ∀ published, published ∉ gone →
    (published ∈ after.forwards.forwarded ↔ published ∈ before.forwards.forwarded)
  left : ∀ published ∈ gone, published ∈ after.forwards.forwarded → Refused news published
  agrees : Agrees after

theorem withdraw_spec (agrees : Agrees state) (gone : Published) :
    ∃ news, Withdrawn [gone] state (withdraw host state gone) news := by
  unfold withdraw Mapper.unexpose
  rcases ask_cases host state.mapper (.unexpose gone) false with accepted | ⟨text, refused⟩
  · refine ⟨[(.unexpose gone, .ok ())], ?_⟩
    rw [accepted]
    constructor <;> simp only [Agrees, Function.update_apply, Forwards.remove] at * <;>
      grind [Request.published]
  · refine ⟨[(.unexpose gone, .error text)], ?_⟩
    rw [refused]
    constructor <;> simp only [Agrees] at * <;> grind [Request.published, Refused]

theorem withdrawAll_spec (agrees : Agrees state) (gone : List Published) :
    ∃ news, Withdrawn gone state (gone.foldl (withdraw host) state) news := by
  induction gone generalizing state with
  | nil => exact ⟨[], (List.append_nil _).symm, by simp, rfl, fun _ _ => Iff.rfl, by simp, agrees⟩
  | cons first rest ih =>
    obtain ⟨news, one⟩ := withdraw_spec host agrees first
    obtain ⟨more, others⟩ := ih one.agrees
    rw [List.foldl_cons]
    refine ⟨news ++ more, ?_⟩
    obtain ⟨log, about, failed, outside, left, _⟩ := one
    obtain ⟨logs, abouts, faileds, outsides, lefts, agrees⟩ := others
    constructor <;> grind [Refused.append]

/-- What was missing is opened, up to the first refusal. -/
structure Exposed (missing : List Published) (before after : Mapper)
    (opened : List Published) (refused : Option String)
    (news : List (Request × Except String Unit)) : Prop where
  log : after.log = before.log ++ news
  about : ∀ entry ∈ news, ∃ published ∈ missing, entry.1 = .expose published
  isOpen : ∀ published, after.isOpen published = true ↔
    before.isOpen published = true ∨ published ∈ opened
  within : opened.Sublist missing
  all : refused = none → opened = missing

theorem exposeAll_spec (mapper : Mapper) (missing : List Published) :
    ∃ news, Exposed missing mapper (exposeAll host mapper missing).2.2
      (exposeAll host mapper missing).1 (exposeAll host mapper missing).2.1 news := by
  induction missing generalizing mapper with
  | nil =>
    exact ⟨[], (List.append_nil _).symm, by simp, by simp [exposeAll], List.Sublist.refl _,
      fun _ => rfl⟩
  | cons first rest ih =>
    unfold exposeAll Mapper.expose
    rcases ask_cases host mapper (.expose first) true with accepted | ⟨text, refused⟩
    · rw [accepted]
      obtain ⟨news, log, about, isOpen, within, all⟩ := ih
        ⟨Function.update mapper.isOpen first true, mapper.log ++ [(.expose first, .ok ())]⟩
      refine ⟨(.expose first, .ok ()) :: news, ?_, ?_, ?_, within.cons_cons first, ?_⟩ <;>
        simp only [Function.update_apply] at isOpen <;> grind [Request.published]
    · rw [refused]
      refine ⟨[(.expose first, .error text)], rfl, ?_, ?_, List.nil_sublist _, nofun⟩ <;> grind

/-- A port is closed again: forgotten whatever the mapper answers. -/
structure RolledBack (opens : List Published) (before after : State)
    (news : List (Request × Except String Unit)) : Prop where
  log : after.mapper.log = before.mapper.log ++ news
  about : ∀ entry ∈ news, ∃ published ∈ opens, entry.1 = .unexpose published
  failed : after.forwards.failed = before.forwards.failed
  forwarded : ∀ published, published ∈ after.forwards.forwarded ↔
    published ∈ before.forwards.forwarded ∧ published ∉ opens
  isOpen : ∀ published, after.mapper.isOpen published = true ↔
    before.mapper.isOpen published = true ∧ (published ∈ opens → Refused news published)

theorem rollBack_spec (state : State) (first : Published) :
    ∃ news, RolledBack [first] state (rollBack host state first) news := by
  unfold rollBack Mapper.unexpose
  rcases ask_cases host state.mapper (.unexpose first) false with accepted | ⟨text, refused⟩
  · rw [accepted]
    refine ⟨[(.unexpose first, .ok ())], rfl, by simp, rfl, by simp, fun published => ?_⟩
    by_cases same : published = first
    · subst same
      simp [Refused, Request.published]
    · simp [same, Request.published]
  · rw [refused]
    refine ⟨[(.unexpose first, .error text)], rfl, by simp, rfl, by simp, fun published => ?_⟩
    simp [Refused]

theorem rollBackAll_spec (state : State) (opens : List Published) (distinct : opens.Nodup) :
    ∃ news, RolledBack opens state (opens.foldl (rollBack host) state) news := by
  induction opens generalizing state with
  | nil => exact ⟨[], (List.append_nil _).symm, by simp, rfl, by simp, by simp⟩
  | cons first rest ih =>
    rw [List.nodup_cons] at distinct
    obtain ⟨news, one⟩ := rollBack_spec host state first
    obtain ⟨more, others⟩ := ih (rollBack host state first) distinct.2
    rw [List.foldl_cons]
    -- Each forward is asked about once, so only its own turn can have refused it.
    have refusedIn : ∀ {opens : List Published} {news : List (Request × Except String Unit)},
        (∀ entry ∈ news, ∃ published ∈ opens, entry.1 = .unexpose published) →
          ∀ published, Refused news published → published ∈ opens := by
      rintro opens news about published ⟨text, inside⟩
      grind
    have before := refusedIn one.about
    have after := refusedIn others.about
    obtain ⟨log, about, failed, forwarded, isOpen⟩ := one
    obtain ⟨logs, abouts, faileds, forwardeds, isOpens⟩ := others
    refine ⟨news ++ more, ?_⟩
    constructor <;> grind [Refused.append]

/-- What a port's turn leaves as it was: everything about the other ports. -/
structure Apart (key : Key) (members : List Published) (before after : State)
    (news : List (Request × Except String Unit)) : Prop where
  log : after.mapper.log = before.mapper.log ++ news
  about : ∀ entry ∈ news, entry.1.published ∈ members
  others : ∀ published, published ∉ members →
    (published ∈ after.forwards.forwarded ↔ published ∈ before.forwards.forwarded) ∧
      after.mapper.isOpen published = before.mapper.isOpen published
  failed : ∀ other, other ≠ key → after.forwards.failed other = before.forwards.failed other

/-- What a port's turn does to the port. -/
inductive Outcome (key : Key) (members : List Published) (before after : State)
    (news : List (Request × Except String Unit)) : Prop where
  | kept (found : ∀ published ∈ members, published ∈ before.forwards.forwarded)
      (stays : ∀ published ∈ members, published ∈ after.forwards.forwarded ∧
        after.mapper.isOpen published = true)
      (failed : after.forwards.failed key = before.forwards.failed key)
      (calm : ∀ published ∈ members, ¬ Refused news published)
  | opened (missing : ∃ published ∈ members, published ∉ before.forwards.forwarded)
      (stays : ∀ published ∈ members, published ∈ after.forwards.forwarded ∧
        after.mapper.isOpen published = true)
      (failed : after.forwards.failed key = none)
      (calm : ∀ published ∈ members, ¬ Refused news published)
  | refused (missing : ∃ published ∈ members, published ∉ before.forwards.forwarded)
      (gone : ∀ published ∈ members, published ∉ after.forwards.forwarded)
      (failed : (after.forwards.failed key).isSome = true)
      (left : ∀ published ∈ members, after.mapper.isOpen published = true ↔ Refused news published)

/-- A port's outcome is about that port only. -/
theorem Outcome.transport {key : Key} {members : List Published}
    {before after before' after' : State} {news news' : List (Request × Except String Unit)}
    (outcome : Outcome key members before after news)
    (start : ∀ published ∈ members, (published ∈ before'.forwards.forwarded ↔
      published ∈ before.forwards.forwarded))
    (stop : ∀ published ∈ members, (published ∈ after'.forwards.forwarded ↔
      published ∈ after.forwards.forwarded) ∧
      after'.mapper.isOpen published = after.mapper.isOpen published)
    (old : before'.forwards.failed key = before.forwards.failed key)
    (new : after'.forwards.failed key = after.forwards.failed key)
    (same : ∀ published ∈ members, (Refused news' published ↔ Refused news published)) :
    Outcome key members before' after' news' := by
  cases outcome with
  | kept found stays failed calm =>
    exact .kept (by grind) (by grind) (by grind) (by grind)
  | opened missing stays failed calm =>
    exact .opened (by grind) (by grind) (by grind) (by grind)
  | refused missing gone failed left =>
    exact .refused (by grind) (by grind) (by grind) (by grind)

/-- Inserting several forwards. -/
theorem mem_foldl_insert {opened : List Published} {forwards : Forwards} :
    published ∈ (opened.foldl Forwards.insert forwards).forwarded ↔
      published ∈ opened ∨ published ∈ forwards.forwarded := by
  induction opened generalizing forwards with
  | nil => simp
  | cons first rest ih => grind [Forwards.mem_insert]

theorem foldl_insert_failed (opened : List Published) (forwards : Forwards) :
    (opened.foldl Forwards.insert forwards).failed = forwards.failed := by
  induction opened generalizing forwards with
  | nil => rfl
  | cons first rest ih => exact ih (forwards.insert first)

theorem openPort_spec (host : Host) (state : State) (key : Key) (members : List Published)
    (distinct : members.Nodup)
    (agrees : ∀ published ∈ members,
      (state.mapper.isOpen published = true ↔ published ∈ state.forwards.forwarded)) :
    ∃ news, Apart key members state (openPort host state (key, members)) news ∧
      Outcome key members state (openPort host state (key, members)) news := by
  unfold openPort
  dsimp only
  have ordered := List.perm_insertionSort (fun first second : Published =>
    first.rank ≤ second.rank) members
  generalize members.insertionSort (fun first second => first.rank ≤ second.rank) = sorted
    at ordered
  have member : ∀ published, published ∈ sorted ↔ published ∈ members := fun _ => ordered.mem_iff
  split
  · -- Every address is forwarded already.
    rename_i none
    have found : ∀ published ∈ members, published ∈ state.forwards.forwarded := by
      rw [List.isEmpty_iff, List.filter_eq_nil_iff] at none
      grind
    refine ⟨[], ⟨(List.append_nil _).symm, by simp, fun _ _ => ⟨Iff.rfl, rfl⟩, fun _ _ => rfl⟩,
      .kept found ?_ rfl (by simp [Refused])⟩
    grind
  rename_i some
  have missing : ∃ published ∈ members, published ∉ state.forwards.forwarded := by
    rw [List.isEmpty_iff, List.filter_eq_nil_iff] at some
    grind
  obtain ⟨news, log, about, isOpen, within, all⟩ := exposeAll_spec host state.mapper
    (sorted.filter (· ∉ state.forwards.forwarded))
  have quiet : ∀ published, ¬ Refused news published := by
    rintro published ⟨text, refused⟩
    obtain ⟨_, _, about⟩ := about _ refused
    cases about
  split
  · -- Every missing address opens.
    rename_i opened mapper result
    rw [result] at log isOpen all
    obtain rfl : opened = _ := all rfl
    refine ⟨news, ⟨log, by grind [Request.published], ?_, ?_⟩, .opened missing ?_
        (Function.update_self _ _ _) fun published _ => quiet published⟩ <;>
      simp only [Forwards.setFailed_forwarded, mem_foldl_insert, Forwards.setFailed_failed,
        foldl_insert_failed, Function.update_apply] <;>
      grind
  -- One is refused: all that is open of the port is closed again.
  rename_i opened reason mapper result
  rw [result] at log isOpen within
  have absent := within.subset
  have sortedDistinct : sorted.Nodup := ordered.nodup_iff.mpr distinct
  have opensDistinct : (sorted.filter (· ∈ state.forwards.forwarded) ++ opened).Nodup := by
    grind
  obtain ⟨more, logs, abouts, failed, forwarded, isOpens⟩ :=
    rollBackAll_spec host ⟨state.forwards, mapper⟩ _ opensDistinct
  have opens : ∀ published, published ∈ sorted.filter (· ∈ state.forwards.forwarded) ++ opened ↔
      published ∈ members ∧ (published ∈ state.forwards.forwarded ∨ published ∈ opened) := by
    grind
  have asked : ∀ published, Refused more published →
      published ∈ state.forwards.forwarded ∨ published ∈ opened := by
    rintro published ⟨text, refused⟩
    grind
  refine ⟨news ++ more, ⟨logs.trans (by rw [log, List.append_assoc]), ?_, ?_, ?_⟩,
    .refused missing ?_ (by simp) ?_⟩ <;>
    simp only [Forwards.setFailed_forwarded, Forwards.setFailed_failed, forwarded, failed,
      Function.update_apply, opens] at * <;>
    grind [Request.published, Refused.append]

/-- What the turns of several ports do: each port's outcome, and nothing to the rest. -/
structure Opened (ports : List (Key × List Published)) (before after : State)
    (news : List (Request × Except String Unit)) : Prop where
  log : after.mapper.log = before.mapper.log ++ news
  about : ∀ entry ∈ news, ∃ port ∈ ports, entry.1.published ∈ port.2
  others : ∀ published, (∀ port ∈ ports, published ∉ port.2) →
    (published ∈ after.forwards.forwarded ↔ published ∈ before.forwards.forwarded) ∧
      after.mapper.isOpen published = before.mapper.isOpen published
  failed : ∀ key, key ∉ ports.map (·.1) → after.forwards.failed key = before.forwards.failed key
  outcome : ∀ port ∈ ports, Outcome port.1 port.2 before after news

/-- A request about something else says nothing of a forward. -/
theorem refused_aside {news : List (Request × Except String Unit)} {members : List Published}
    (about : ∀ entry ∈ news, entry.1.published ∈ members) (outside : published ∉ members) :
    ¬ Refused news published := by
  rintro ⟨text, inside⟩
  exact outside (about _ inside)

theorem openPorts_spec (host : Host) (state : State) (ports : List (Key × List Published))
    (keys : (ports.map (·.1)).Nodup)
    (members : ∀ port ∈ ports, port.2.Nodup ∧ ∀ published ∈ port.2, published.key = port.1)
    (agrees : ∀ port ∈ ports, ∀ published ∈ port.2,
      (state.mapper.isOpen published = true ↔ published ∈ state.forwards.forwarded)) :
    ∃ news, Opened ports state (ports.foldl (openPort host) state) news := by
  induction ports generalizing state with
  | nil =>
    exact ⟨[], (List.append_nil _).symm, by simp, fun _ _ => ⟨Iff.rfl, rfl⟩, fun _ _ => rfl,
      by simp⟩
  | cons first rest ih =>
    obtain ⟨key, own⟩ := first
    rw [List.map_cons, List.nodup_cons] at keys
    have firstMembers := members (key, own) List.mem_cons_self
    have restMembers : ∀ port ∈ rest, _ := fun port inside =>
      members port (List.mem_cons_of_mem _ inside)
    -- No binding belongs to the first port and to a later one.
    have disjoint : ∀ port ∈ rest, ∀ published ∈ port.2, published ∉ own := by
      intro port inside published among also
      refine keys.1 (List.mem_map.mpr ⟨port, inside, ?_⟩)
      exact ((restMembers port inside).2 published among).symm.trans (firstMembers.2 published also)
    have later : ∀ port ∈ rest, port.1 ≠ key := by grind
    obtain ⟨news, apart, outcome⟩ := openPort_spec host state key own firstMembers.1
      (agrees (key, own) List.mem_cons_self)
    obtain ⟨more, others⟩ := ih (openPort host state (key, own)) keys.2 restMembers
      (by
        intro port inside published among
        have same := apart.others published (disjoint port inside published among)
        rw [same.1, same.2]
        exact agrees port (List.mem_cons_of_mem _ inside) published among)
    have quiet : ∀ port ∈ rest, ∀ published ∈ port.2, ¬ Refused news published :=
      fun port inside published among =>
        refused_aside apart.about (disjoint port inside published among)
    have quietLater : ∀ published ∈ own, ¬ Refused more published := by
      rintro published mine ⟨text, inside⟩
      obtain ⟨port, among, about⟩ := others.about _ inside
      exact disjoint port among published about mine
    obtain ⟨log, about, aside, failed⟩ := apart
    obtain ⟨logs, abouts, asides, faileds, outcomes⟩ := others
    rw [List.foldl_cons]
    refine ⟨news ++ more, by grind, fun entry inside => ?_, fun published outside => ?_,
      fun other outside => ?_, fun port inside => ?_⟩
    · rcases List.mem_append.mp inside with now | after
      · exact ⟨(key, own), List.mem_cons_self, about entry now⟩
      · grind
    · have now := aside published (outside (key, own) List.mem_cons_self)
      have after := asides published fun port inside => outside port (List.mem_cons_of_mem _ inside)
      exact ⟨after.1.trans now.1, after.2.trans now.2⟩
    · grind
    rcases List.mem_cons.mp inside with rfl | inside
    · refine outcome.transport (fun _ _ => Iff.rfl) (fun published mine => ?_) rfl
        (faileds key keys.1) (by grind [Refused.append])
      exact asides published fun port inside among => disjoint port inside published among mine
    · refine (outcomes port inside).transport (fun published among => ?_)
        (fun _ _ => ⟨Iff.rfl, rfl⟩)
        (failed port.1 (later port inside)).symm rfl (by grind [Refused.append])
      exact (aside published (disjoint port inside published among)).1.symm

theorem portsOf_keys (desired : List Published) : ((portsOf desired).map (·.1)).Nodup := by
  unfold portsOf
  rw [List.map_map]
  rw [show ((fun port : Key × List Published => port.1) ∘
    fun key : Key => (key, desired.filter (·.key = key))) = id from rfl, List.map_id]
  exact (List.perm_insertionSort _ _).nodup_iff.mpr (List.nodup_dedup _)

theorem mem_portsOf {desired : List Published} {port : Key × List Published} :
    port ∈ portsOf desired ↔
      (∃ published ∈ desired, published.key = port.1) ∧
        port.2 = desired.filter (·.key = port.1) := by
  obtain ⟨key, members⟩ := port
  unfold portsOf
  simp only [List.mem_map, List.mem_insertionSort, List.mem_dedup, Prod.mk.injEq]
  constructor
  · rintro ⟨other, asked, rfl, rfl⟩
    exact ⟨asked, rfl⟩
  · grind

theorem mem_portsOf_keys {desired : List Published} {key : Key} :
    key ∈ (portsOf desired).map (·.1) ↔ ∃ published ∈ desired, published.key = key := by
  constructor
  · intro inside
    obtain ⟨port, among, rfl⟩ := List.mem_map.mp inside
    exact (mem_portsOf.mp among).1
  · intro asked
    exact List.mem_map.mpr ⟨(key, desired.filter (·.key = key)), mem_portsOf.mpr ⟨asked, rfl⟩, rfl⟩

/-- What a call does: to every port asked for its outcome, and what is not asked for is gone
unless the mapper refused. -/
structure Applied (call : Call) (before after : State) : Prop where
  port : ∀ published ∈ call.desired, Outcome published.key
    (call.desired.filter (·.key = published.key)) before after (newsBetween before after)
  failed : ∀ key, (∀ published ∈ call.desired, published.key ≠ key) →
    after.forwards.failed key = none
  extra : ∀ published, published ∉ call.desired → published ∈ after.forwards.forwarded →
    Refused (newsBetween before after) published
  agrees : ∀ published, published ∉ call.desired →
    (after.mapper.isOpen published = true ↔ published ∈ after.forwards.forwarded)

theorem apply_spec (host : Host) (agrees : Agrees state) (call : Call) :
    Applied call state (apply host state call) := by
  set stale := state.forwards.forwarded.filter (· ∉ call.desired)
  have goneIff : ∀ published,
      published ∈ call.walk stale ↔
        published ∈ state.forwards.forwarded ∧ published ∉ call.desired := by
    intro published
    rw [(call.walks _).mem_iff, List.mem_filter, decide_eq_true_iff]
  obtain ⟨news, withdrawn⟩ := withdrawAll_spec host agrees (call.walk stale)
  unfold apply
  dsimp only
  generalize call.walk stale = gone at goneIff withdrawn
  generalize gone.foldl (withdraw host) state = middle at withdrawn
  have portMembers : ∀ port ∈ portsOf call.desired, ∀ published,
      published ∈ port.2 ↔ published ∈ call.desired ∧ published.key = port.1 := by
    intro port inside published
    rw [(mem_portsOf.mp inside).2, List.mem_filter, decide_eq_true_iff]
  obtain ⟨more, opened⟩ := openPorts_spec host (retain middle (portsOf call.desired))
    (portsOf call.desired) (portsOf_keys call.desired)
    (by
      intro port inside
      refine ⟨?_, fun published among => ((portMembers port inside published).mp among).2⟩
      rw [(mem_portsOf.mp inside).2]
      exact call.distinct.filter _)
    (fun port inside published among => withdrawn.agrees published)
  generalize (portsOf call.desired).foldl (openPort host)
    (retain middle (portsOf call.desired)) = after at opened
  have log : newsBetween state after = news ++ more := by
    unfold newsBetween
    rw [opened.log, show (retain middle (portsOf call.desired)).mapper.log =
      state.mapper.log ++ news from withdrawn.log, List.append_assoc, List.drop_left]
  have agreed := withdrawn.agrees
  have aside : ∀ published, published ∉ call.desired →
      ∀ port ∈ portsOf call.desired, published ∉ port.2 :=
    fun published outside port inside among =>
      outside ((portMembers port inside published).mp among).1
  obtain ⟨_, about, failed, others, left, _⟩ := withdrawn
  have quiet : ∀ published ∈ call.desired, ¬ Refused news published := fun published asked =>
    refused_aside about fun left => ((goneIff published).mp left).2 asked
  constructor
  · intro published asked
    have inside : (published.key, call.desired.filter (·.key = published.key)) ∈
        portsOf call.desired := mem_portsOf.mpr ⟨⟨published, asked, rfl⟩, rfl⟩
    have kept : published.key ∈ (portsOf call.desired).map (·.1) :=
      mem_portsOf_keys.mpr ⟨published, asked, rfl⟩
    refine (opened.outcome _ inside).transport ?_ (fun _ _ => ⟨Iff.rfl, rfl⟩)
      ((congrFun failed published.key).symm.trans (if_pos kept).symm) rfl ?_ <;>
      simp only [retain, Forwards.setFailed_forwarded] <;> grind [Refused.append]
  · intro key unasked
    have outside : key ∉ (portsOf call.desired).map (·.1) := by
      rw [mem_portsOf_keys]
      grind
    exact (opened.failed key outside).trans (if_neg outside)
  · intro published outside found
    have still : published ∈ middle.forwards.forwarded :=
      (opened.others published (aside published outside)).1.mp found
    grind [Refused.append]
  · intro published outside
    have same := opened.others published (aside published outside)
    rw [same.1, same.2]
    exact agreed published

/-- The law holds after a call exactly if the call is spared. -/
theorem settled_iff (host : Host) (agrees : Agrees state) (call : Call) :
    Settled call state (apply host state call) ↔ Spared call state (apply host state call) := by
  have applied := apply_spec host agrees call
  generalize apply host state call = after at applied
  obtain ⟨port, untouched, extra, agrees⟩ := applied
  -- Every member of a port that is asked for has the port's outcome.
  have outcomes : ∀ published ∈ call.desired,
      (∀ other ∈ call.desired, other.key = published.key → other ∈ after.forwards.forwarded ∧
          after.mapper.isOpen other = true ∧ ¬ Refused (newsBetween state after) other) ∧
        ((∀ other ∈ call.desired, other.key = published.key → other ∈ state.forwards.forwarded) ∧
            after.forwards.failed published.key = state.forwards.failed published.key ∨
          (∃ other ∈ call.desired, other.key = published.key ∧ other ∉ state.forwards.forwarded) ∧
            after.forwards.failed published.key = none) ∨
      (∃ other ∈ call.desired, other.key = published.key ∧ other ∉ state.forwards.forwarded) ∧
        (after.forwards.failed published.key).isSome = true ∧
        ∀ other ∈ call.desired, other.key = published.key → other ∉ after.forwards.forwarded ∧
          (after.mapper.isOpen other = true ↔ Refused (newsBetween state after) other) := by
    intro published asked
    cases port published asked with
    | kept found stays failed calm => grind
    | opened missing stays failed calm => grind
    | refused missing gone failed left => grind
  constructor
  · rintro ⟨agreed, _, failed, _⟩
    rw [Agrees] at agreed
    constructor
    · grind
    rintro key failedBefore ⟨published, asked, rfl⟩
    -- A failure may not be kept beside a port that is forwarded.
    rcases outcomes published asked with ⟨stays, ⟨found, same⟩ | ⟨missing, _⟩⟩ | ⟨missing, _⟩ <;>
      grind
  rintro ⟨closes, fresh⟩
  refine ⟨fun published => ?_, fun key => ?_, fun key => ?_, ?_⟩
  · grind
  · grind
  · by_cases some : ∃ published ∈ call.desired, published.key = key
    · obtain ⟨published, asked, rfl⟩ := some
      have missing := fun before => fresh published.key before ⟨published, asked, rfl⟩
      rcases outcomes published asked with
        ⟨stays, ⟨found, same⟩ | ⟨_, cleared⟩⟩ | ⟨_, failed, gone⟩ <;>
        grind
    · have none := untouched key (by grind)
      grind
  · grind

/-- The law holds after every call of a run exactly if every call is spared. -/
theorem forwards_match_iff (host : Host) (calls : List Call) :
    (∀ earlier call, earlier ++ [call] <+: calls →
      Settled call (Transition.run (apply host) State.start earlier)
        (apply host (Transition.run (apply host) State.start earlier) call)) ↔
    Transition.Legal (fun state call => Spared call state (apply host state call)) (apply host)
      State.start calls := by
  refine Transition.each_step_iff _ _ (fun _ _ => True) Agrees
    (fun state call => Settled call state (apply host state call))
    (fun state call _ agrees => settled_iff host agrees call)
    (fun state call _ settled => settled.agrees) State.start calls
    (Transition.legal_of_all _ fun _ _ => trivial) ?_
  intro published
  simp [State.start, Mapper.start, Forwards.start]

namespace Drift

def wildcard : Published := ⟨.v4 0, 9000, .tcp⟩

def wildcard6 : Published := ⟨.v6 0, 9000, .tcp⟩

def ask (desired : List Published) (distinct : desired.Nodup) : Call :=
  ⟨desired, id, distinct, List.Perm.refl⟩

/-- A host whose mapper accepts its first request only. -/
def once : Host where
  answer index := if index = 0 then .ok () else .error "Address already in use (os error 48)"
  socketAddr _ _ := ""

/-- A port whose second address is refused is closed on the first, which the mapper refuses
too: it stays open and is forgotten. Or a port stays open as its withdrawal is refused,
fails on the address asked for instead, and keeps that failure when the first is asked for
again. -/
theorem forwards_drift :
    ¬ Settled (ask [wildcard, wildcard6] (by decide)) State.start
      (apply once State.start (ask [wildcard, wildcard6] (by decide))) ∧
    ¬ Settled (ask [wildcard] (by decide))
      (Transition.run (apply once) State.start
        [ask [wildcard] (by decide), ask [wildcard6] (by decide)])
      (apply once (Transition.run (apply once) State.start
        [ask [wildcard] (by decide), ask [wildcard6] (by decide)])
          (ask [wildcard] (by decide))) := by
  constructor
  · intro settled
    exact absurd ((settled.agrees wildcard).mp (by decide)) (by decide)
  intro settled
  obtain ⟨published, asked, _, missing⟩ := (settled.failed wildcard.key).mp (by decide)
  rw [List.mem_singleton.mp asked] at missing
  exact missing (by decide)

end Drift
end Lighter.Docker
