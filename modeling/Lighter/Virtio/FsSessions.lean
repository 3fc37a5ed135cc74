import Lighter.Virtio.DeviceLaws
import Lighter.Virtio.Fs

/-!
# Sessions of a virtio-fs device

A driver that resets the device and sets it up again is a new session. The queues begin
afresh; the pool of workers, what it holds and what the server was told at the first
activation stay, and until that the device's own flags of the features. A chain taken in one
session goes back in the same one if every reset finds the pool empty. The server pushes
invalidations exactly as the driver agreed to if the flags were set in the session that first
activates the device, or say the same, and every later session agrees to the same.
-/

namespace Lighter.Virtio.VirtioFs

open Transition VirtioMmio List Lanes
open Relation (ReflTransGen)

/-! ## What a service can do -/

/-- What a service does to the device, one thing at a time. -/
inductive Does : Fs → Fs → Prop where
  | asked (fs : Fs) : Does fs { fs with calls := fs.calls + 1 }
  | delivered (fs : Fs) (rest : List (List UInt8)) : Does fs { fs with notices := rest }
  /-- A chain taken in this session goes back. -/
  | gaveBack (fs : Fs) : Does fs { fs with returned := fs.returned ++ [⟨fs.session, fs.session⟩] }
  | handedOver (fs : Fs) (pool : Pool) (lanes : Lanes) (job : Job) (has : fs.pool = some pool)
      (taking : pool.jobs = some lanes) (own : job.session = fs.session) :
      Does fs { fs with pool := some { pool with jobs := some (lanes.push job) } }
  /-- Completions are taken, and those whose chain is outstanding go back. -/
  | reaped (fs : Fs) (pool : Pool) (returned : List Returned) (has : fs.pool = some pool)
      (each : ∀ back ∈ returned, back ∈ fs.returned ∨
        ∃ completion ∈ pool.done, back = ⟨completion.session, fs.session⟩) :
      Does fs { fs with
        pool := some { pool with waking := false, done := [] }, returned := returned }

/-- What a service leaves. -/
abbrev Did : Fs → Fs → Prop := ReflTransGen Does

namespace Pass

theorem did_giveBack (pass : Pass) (head : UInt16) (len : UInt32) :
    Did pass.fs (pass.giveBack head len).fs := by
  unfold giveBack pushUsed
  dsimp only
  split
  · exact ReflTransGen.single (Does.gaveBack pass.fs)
  · exact ReflTransGen.refl

theorem did_serveHere (share : Share) (pass : Pass) (head : UInt16) (request : List UInt8)
    (reply : List (Nat × UInt32)) : Did pass.fs (pass.serveHere share head request reply).fs := by
  refine ReflTransGen.head (Does.asked pass.fs) ?_
  exact did_giveBack { pass with
    fs := { pass.fs with calls := pass.fs.calls + 1 }, memory := _ } head _

theorem did_handOver (pass : Pass) {pool : Pool} (has : pass.fs.pool = some pool) {job : Job}
    (own : job.session = pass.fs.session) : Did pass.fs (pass.handOver pool job).fs := by
  unfold handOver
  split
  · exact did_giveBack pass job.head 0
  · grind [ReflTransGen.single, Does.handedOver]

theorem did_hiprio (share : Share) (pass : Pass) (chain : DescriptorChain) :
    Did pass.fs (pass.hiprio share chain).fs := by
  unfold hiprio
  dsimp only
  split
  · grind [did_handOver, did_serveHere]
  · exact did_serveHere share pass _ _ _

theorem did_request (share : Share) (index : UInt16) (pass : Pass) (chain : DescriptorChain) :
    Did pass.fs (pass.request share index chain).fs := by
  unfold request
  dsimp only
  split
  · exact ReflTransGen.refl
  · grind [did_serveHere, did_handOver]

theorem did_drain {serve : Pass → DescriptorChain → Pass}
    (each : ∀ pass chain, Did pass.fs (serve pass chain).fs) (turns : Nat) (pass : Pass) :
    Did pass.fs (drain serve turns pass).fs := by
  induction turns generalizing pass with
  | zero => exact ReflTransGen.refl
  | succ turns ih =>
    unfold drain
    split
    · exact ReflTransGen.refl
    · rename_i queue chain _
      exact (each { pass with queue := queue } chain).trans (ih _)

theorem did_deliver (turns : Nat) (pass : Pass) : Did pass.fs (deliver turns pass).fs := by
  induction turns generalizing pass with
  | zero => exact ReflTransGen.refl
  | succ turns ih =>
    unfold deliver
    split
    · exact ReflTransGen.refl
    rename_i message rest _
    split
    · exact ReflTransGen.refl
    refine ReflTransGen.head (Does.delivered pass.fs rest) (ReflTransGen.trans ?_ (ih _))
    split
    · exact did_giveBack { pass with fs := { pass.fs with notices := rest }, queue := _ } _ 0
    · exact did_giveBack { pass with
        fs := { pass.fs with notices := rest }, queue := _, memory := _ } _ _

end Pass

theorem did_onQueue (fs : Fs) (index : UInt16) (queues : List Virtqueue) (memory : GuestMemory)
    {serve : Pass → Pass} (each : ∀ pass, Did pass.fs (serve pass).fs) :
    Did fs (onQueue fs index queues memory serve).device := by
  unfold onQueue
  split
  · exact ReflTransGen.refl
  · exact each ⟨fs, _, memory, false⟩

/-- Reaping changes nothing of the device but the record of what went back. -/
theorem reapAll_device (completions : List Completion) (service : Service Fs) :
    ∃ returned,
      (reapAll completions service).device = { service.device with returned := returned } ∧
      ∀ back ∈ returned, back ∈ service.device.returned ∨
        ∃ completion ∈ completions, back = ⟨completion.session, service.device.session⟩ := by
  induction completions generalizing service with
  | nil => exact ⟨service.device.returned, rfl, fun back inside => Or.inl inside⟩
  | cons completion rest ih =>
    unfold reapAll
    split
    · obtain ⟨returned, device, each⟩ := ih service
      refine ⟨returned, device, fun back inside => (each back inside).imp id ?_⟩
      rintro ⟨other, later, same⟩
      exact ⟨other, mem_cons_of_mem _ later, same⟩
    · obtain ⟨returned, device, each⟩ := ih _
      refine ⟨returned, device, fun back inside => ?_⟩
      rcases each back inside with prior | ⟨other, later, same⟩
      · grind [Pass.pushUsed]
      · exact Or.inr ⟨other, mem_cons_of_mem _ later, same⟩

theorem did_reap (service : Service Fs) : Did service.device (reap service).device := by
  unfold reap
  split
  · exact ReflTransGen.refl
  rename_i pool has
  obtain ⟨returned, device, each⟩ := reapAll_device pool.done
    { service with
      device := { service.device with pool := some { pool with waking := false, done := [] } } }
  rw [device]
  exact ReflTransGen.single (Does.reaped service.device pool returned has each)

/-- A service does nothing but what is listed. -/
theorem did_notify (share : Share) (fs : Fs) (index : UInt16) (queues : List Virtqueue)
    (memory : GuestMemory) : Did fs (notify share fs index queues memory).device := by
  unfold notify
  split
  · grind [did_onQueue, Pass.did_drain, Pass.did_hiprio]
  split
  · split
    · exact ReflTransGen.refl
    split
    · exact ReflTransGen.refl
    · exact (did_onQueue fs index queues memory fun pass =>
        Pass.did_drain (Pass.did_request share index) share.turns pass).trans (did_reap _)
  · grind [did_onQueue, Pass.did_deliver]

/-- What each of these things keeps, a service keeps. -/
theorem serves_of_does (share : Share) (workers : Nat) {law : Fs → Prop}
    (does : ∀ fs after, Does fs after → law fs → law after)
    (acked : ∀ fs features, law fs → law (fs.ackFeatures features)) :
    Serves (model share workers) law where
  ackFeatures := acked
  configWrite := fun _ _ _ holds => holds
  notify := fun fs index queues memory holds => by
    have did := did_notify share fs index queues memory
    change law (notify share fs index queues memory).device
    generalize (notify share fs index queues memory).device = after at did
    induction did with
    | refl => exact holds
    | tail _ last before => exact does _ _ last before
  retryDeferred := fun _ _ _ _ holds => holds

/-! ## Sessions -/

/-- Every request the pool has was taken in one session. -/
structure Pool.Of (pool : Pool) (session : Nat) : Prop where
  lanes : ∀ lanes, pool.jobs = some lanes →
    ∀ job ∈ lanes.localJobs ++ lanes.remote, job.session = session
  hands : ∀ hand ∈ pool.hands, ∀ job, hand.job = some job → job.session = session
  done : ∀ completion ∈ pool.done, completion.session = session

/-- Nothing waits, is being served or is finished. -/
structure Pool.Empty (pool : Pool) : Prop where
  lanes : ∀ lanes ∈ pool.jobs, lanes.localJobs = [] ∧ lanes.remote = []
  hands : ∀ hand ∈ pool.hands, hand.job = none
  done : pool.done = []

theorem Pool.Empty.of {pool : Pool} (empty : pool.Empty) (session : Nat) : pool.Of session where
  lanes := fun lanes taking job inside => by
    rw [(empty.lanes lanes taking).1, (empty.lanes lanes taking).2] at inside
    cases inside
  hands := fun hand inside job holds => by
    rw [empty.hands hand inside] at holds
    cases holds
  done := by
    rw [empty.done]
    intro completion inside
    cases inside

/-- What the pool has is of this session, and what went back did so in the session it was
taken in. -/
structure Fs.Separate (fs : Fs) : Prop where
  own : ∀ pool, fs.pool = some pool → pool.Of fs.session
  back : ∀ back ∈ fs.returned, back.taken = back.returned

/-- Another pool takes the place of the one there is. -/
theorem Fs.Separate.setPool {fs : Fs} (separate : fs.Separate) {calls : Nat} {pool : Pool}
    (own : pool.Of fs.session) : { fs with calls := calls, pool := some pool }.Separate := by
  refine ⟨fun later same => ?_, separate.back⟩
  cases same
  exact own

theorem Lanes.mem_push {lanes : Lanes} {job other : Job} :
    other ∈ (lanes.push job).localJobs ++ (lanes.push job).remote ↔
      other ∈ lanes.localJobs ++ lanes.remote ∨ other = job := by
  unfold push
  split
  · grind
  · grind

theorem Fs.Separate.does {fs after : Fs} (did : Does fs after) (separate : fs.Separate) :
    after.Separate := by
  cases did with
  | asked | delivered rest => exact ⟨separate.own, separate.back⟩
  | gaveBack =>
    refine ⟨separate.own, fun back inside => ?_⟩
    rcases mem_append.mp inside with prior | mine
    · exact separate.back back prior
    · rw [mem_singleton.mp mine]
  | handedOver pool lanes job has taking own =>
    have before := separate.own pool has
    refine separate.setPool ⟨fun lanes' same other inside => ?_, before.hands, before.done⟩
    cases same
    rcases mem_push.mp inside with prior | rfl
    · exact before.lanes lanes taking other prior
    · exact own
  | reaped pool returned has each =>
    have before := separate.own pool has
    refine ⟨fun later same => ?_, fun back inside => ?_⟩
    · cases same
      exact ⟨before.lanes, before.hands, fun completion none => by cases none⟩
    · have back := separate.back
      have done := before.done
      grind

theorem Lanes.mem_pop {share : Share} {now : Nat} {lanes after : Lanes} {job : Job}
    (popped : lanes.pop share now = some (after, job)) {session : Nat}
    (own : ∀ job ∈ lanes.localJobs ++ lanes.remote, job.session = session) :
    job.session = session ∧ ∀ job ∈ after.localJobs ++ after.remote, job.session = session := by
  have released : ∀ (lanes : Lanes) (ring : UInt16),
      (lanes.release ring).localJobs ++ (lanes.release ring).remote =
        lanes.localJobs ++ lanes.remote := by
    intro lanes ring
    unfold release
    split <;> rfl
  unfold pop at popped
  split at popped
  · grind
  rename_i none
  split at popped
  · cases popped
  rename_i first rest here
  rw [none, here] at own
  have mine := own first mem_cons_self
  have others : ∀ job ∈ rest, job.session = session := fun other inside =>
    own other (mem_cons_of_mem _ inside)
  split at popped
  · grind
  · grind

theorem Lanes.jobs_done (now : Nat) (lanes : Lanes) (job : Job) :
    (lanes.done now job).localJobs ++ (lanes.done now job).remote =
      lanes.localJobs ++ lanes.remote := by
  unfold done
  split
  · rfl
  · dsimp only
    unfold release
    split <;> rfl

/-- A hand that takes another's place. -/
theorem Pool.Of.hand {pool : Pool} {session : Nat} (own : pool.Of session) (worker : Nat)
    {hand : Hand} (mine : ∀ job, hand.job = some job → job.session = session) :
    ∀ other ∈ pool.hands.set worker hand, ∀ job, other.job = some job → job.session = session := by
  intro other inside
  rcases mem_or_eq_of_mem_set inside with prior | rfl
  · exact own.hands other prior
  · exact mine

/-- A worker's step stays in the session of the job it has. -/
theorem Fs.Separate.work {fs : Fs} (separate : fs.Separate) (share : Share) (now worker : Nat)
    (memory : GuestMemory) : (work share now worker fs memory).1.Separate := by
  unfold VirtioFs.work
  split
  · exact separate
  rename_i pool has
  have own := separate.own pool has
  -- The job in the worker's hand, if it has one.
  have held : ∀ hand job, pool.hands[worker]? = some hand → hand.job = some job →
      job.session = fs.session := fun hand job there holds =>
    own.hands hand (mem_of_getElem? there) job holds
  have none : ∀ hand : Hand, hand.job = none → ∀ job, hand.job = some job →
      job.session = fs.session := fun hand empty job holds => by
    rw [empty] at holds
    cases holds
  split
  · exact separate
  · exact separate
  · split
    · exact separate
    rename_i lanes job popped
    obtain ⟨before, taking, popped⟩ := Option.bind_eq_some_iff.mp popped
    obtain ⟨mine, others⟩ := mem_pop popped (own.lanes before taking)
    refine separate.setPool ⟨fun after same => ?_, own.hand worker fun other same => ?_, own.done⟩
    · cases same
      exact others
    · cases same
      exact mine
  · rename_i job here
    have mine := held _ job here rfl
    refine separate.setPool ⟨own.lanes, own.hand worker fun other same => ?_, own.done⟩
    split at same <;> cases same <;> exact mine
  · rename_i job len here
    have mine := held _ job here rfl
    refine separate.setPool ⟨fun after same => ?_, own.hand worker fun other same => ?_, own.done⟩
    · obtain ⟨lanes, taking, rfl⟩ := Option.map_eq_some_iff.mp same
      rw [jobs_done]
      exact own.lanes lanes taking
    · cases same
      exact mine
  · rename_i job len here
    have mine := held _ job here rfl
    refine separate.setPool ⟨own.lanes, own.hand worker (none _ rfl), fun completion inside => ?_⟩
    rcases mem_append.mp inside with prior | last
    · exact own.done completion prior
    · rw [mem_singleton.mp last]
      exact mine
  · refine separate.setPool ⟨own.lanes, own.hand worker ?_, own.done⟩
    split <;> exact none _ rfl

theorem Fs.Separate.rest {fs : Fs} (separate : fs.Separate) (worker : Nat) :
    (rest fs worker).Separate := by
  refine ⟨fun later same => ?_, separate.back⟩
  obtain ⟨pool, has, rfl⟩ := Option.map_eq_some_iff.mp same
  have own := separate.own pool has
  refine ⟨own.lanes, own.hand worker fun job holds => ?_, own.done⟩
  cases holds

/-! ## Runs -/

/-- The transport with the device, and the features that were negotiated when it was last
activated. -/
structure World where
  mmio : VirtioMmio Fs
  agreed : UInt64

inductive Act where
  | transport (action : VirtioMmio.Act)
  | work (now worker : Nat)
  /-- A worker wakes the transport. -/
  | wake (turns worker : Nat)
  /-- The server has an invalidation for the guest. -/
  | notice (message : List UInt8)

/-- Both features that invalidating the guest's caches needs. -/
def both (features : UInt64) : Bool :=
  features &&& featureNotification != 0 && features &&& featureCacheReset != 0

variable (share : Share) (workers : Nat)

def World.start (memory : GuestMemory) : World :=
  ⟨VirtioMmio.new (model share workers) Fs.new memory, 0⟩

def World.step (world : World) : Act → World
  | .transport action =>
      { mmio := act (model share workers) world.mmio action
        agreed :=
          if activates world.mmio action then
            world.mmio.negotiatedFeatures (model share workers)
          else world.agreed }
  | .work now worker =>
      let (fs, memory) := work share now worker world.mmio.device world.mmio.memory
      { world with mmio := { world.mmio with device := fs, memory := memory } }
  | .wake turns worker =>
      if isWaking world.mmio.device worker then
        let mmio := world.mmio.notifyQueue (model share workers) turns requestQueue
        { world with mmio := { mmio with device := rest mmio.device worker } }
      else world
  | .notice message =>
      { world with mmio := { world.mmio with
        device := { world.mmio.device with notices := world.mmio.device.notices ++ [message] } } }

/-- A reset finds nothing in the pool. -/
def Quiet (world : World) : Act → Prop
  | .transport action => resets action = true → ∀ pool ∈ world.mmio.device.pool, pool.Empty
  | _ => True

/-- What an activation is to agree with: the features of the last one, or at the first the
flags the device has, which are of the last feature word the driver wrote, be it before a
reset. -/
def World.standing (world : World) : Bool :=
  if world.mmio.device.pool.isSome then both world.agreed
  else world.mmio.device.notifications && world.mmio.device.cacheReset

/-- The features negotiated when the device is activated agree with those. -/
def Agrees (world : World) : Act → Prop
  | .transport action => activates world.mmio action = true →
      both (world.mmio.negotiatedFeatures (model share workers)) = world.standing
  | _ => True

/-- An active device has its pool, and from the first activation on the server pushes exactly as
was agreed at the last. -/
structure World.Pushes (world : World) : Prop where
  pooled : world.mmio.activated = true → world.mmio.device.pool.isSome = true
  pushing : world.mmio.device.pool.isSome = true → world.mmio.device.pushing = both world.agreed

variable {share workers}

theorem World.separate_step {world : World} (separate : world.mmio.device.Separate) {act : Act}
    (quiet : Quiet world act) : (world.step share workers act).mmio.device.Separate := by
  have serves : Serves (model share workers) Fs.Separate :=
    serves_of_does share workers (fun fs after did => Fs.Separate.does did)
      fun fs features separate => ⟨separate.own, separate.back⟩
  cases act with
  | transport action =>
    refine (serves.act world.mmio action ?_).1
    split
    · rename_i reset
      exact ⟨fun pool has => (quiet reset pool has).of _, separate.back⟩
    split
    · change (world.mmio.device.activate workers 0).Separate
      unfold Fs.activate
      split
      · exact separate
      refine ⟨fun pool same => ?_, separate.back⟩
      cases same
      refine ⟨fun lanes same job inside => ?_, fun hand inside job holds => ?_, fun _ none => ?_⟩
      · cases same
        cases inside
      · rw [(mem_replicate.mp inside).2] at holds
        cases holds
      · cases none
    · exact separate
  | work now worker => exact separate.work share now worker world.mmio.memory
  | wake turns worker =>
    unfold World.step
    dsimp only
    split
    · exact ((serves.stable _).notifyQueue turns world.mmio requestQueue
        ⟨separate, rfl⟩).1.rest worker
    · exact separate
  | notice message => exact ⟨separate.own, separate.back⟩

/-- A worker is no part of the policy, and leaves the pool there. -/
theorem policy_work (share : Share) (now worker : Nat) (fs : Fs) (memory : GuestMemory) :
    (work share now worker fs memory).1.pushing = fs.pushing ∧
      (work share now worker fs memory).1.pool.isSome = fs.pool.isSome := by
  unfold work
  split
  · exact ⟨rfl, rfl⟩
  · rename_i pool has
    split <;> try exact ⟨rfl, by simp [has]⟩
    split <;> exact ⟨rfl, by simp [has]⟩

/-- What leaves the policy, the pool and the agreement leaves the law, if it does not activate the
device. -/
theorem World.Pushes.of_policy {world after : World} (pushes : world.Pushes)
    (pushing : after.mmio.device.pushing = world.mmio.device.pushing)
    (pooled : after.mmio.device.pool.isSome = world.mmio.device.pool.isSome)
    (active : after.mmio.activated = true → world.mmio.activated = true)
    (agreed : after.agreed = world.agreed) : after.Pushes := by
  refine ⟨fun now => ?_, fun there => ?_⟩
  · rw [pooled]
    exact pushes.pooled (active now)
  · rw [pushing, agreed]
    exact pushes.pushing (pooled.symm.trans there)

/-- The law of the policy is kept by a step exactly if its activation agrees. -/
theorem World.pushes_step_iff {world : World} (pushes : world.Pushes) (act : Act) :
    (world.step share workers act).Pushes ↔ Agrees share workers world act := by
  have serves : ∀ value pooled, Serves (model share workers) fun fs =>
      fs.pushing = value ∧ fs.pool.isSome = pooled := fun value pooled =>
    serves_of_does share workers (fun fs after did same => by cases did <;> grind)
      fun fs _ same => same
  cases act with
  | transport action =>
    obtain ⟨⟨pushing, pooled⟩, activated⟩ := (serves _ _).act world.mmio action ⟨rfl, rfl⟩
    unfold World.step Agrees
    dsimp only
    by_cases reset : resets action = true
    · have idle : activates world.mmio action = false := activates_of_resets reset
      rw [if_pos reset] at pushing pooled
      rw [reset, Bool.not_true, Bool.false_and] at activated
      rw [idle]
      refine iff_of_true (pushes.of_policy pushing pooled (fun active => ?_) rfl) nofun
      rw [activated] at active
      cases active
    rw [if_neg reset] at pushing pooled
    by_cases first : activates world.mmio action = true
    · rw [if_pos first] at pushing pooled
      rw [first]
      change _ = (world.mmio.device.activate workers 0).pushing at pushing
      change _ = (world.mmio.device.activate workers 0).pool.isSome at pooled
      -- The first activation makes the pool and takes the flags; a later one leaves both.
      have made : (world.mmio.device.activate workers 0).pool.isSome = true ∧
          (world.mmio.device.activate workers 0).pushing = world.standing := by
        have agreed := pushes.pushing
        grind [Fs.activate, World.standing]
      rw [made.2] at pushing
      rw [made.1] at pooled
      constructor
      · intro after _
        exact (after.pushing pooled).symm.trans pushing
      · intro agrees
        exact ⟨fun _ => pooled, fun _ => pushing.trans (agrees rfl).symm⟩
    · rw [if_neg first] at pushing pooled
      rw [Bool.eq_false_iff.mpr first, Bool.or_false, Bool.eq_false_iff.mpr reset] at activated
      rw [Bool.eq_false_iff.mpr first]
      exact iff_of_true (pushes.of_policy pushing pooled activated.symm.trans rfl) nofun
  | work now worker =>
    obtain ⟨pushing, pooled⟩ := policy_work share now worker world.mmio.device world.mmio.memory
    exact iff_of_true (pushes.of_policy pushing pooled id rfl) trivial
  | wake turns worker =>
    refine iff_of_true ?_ trivial
    unfold World.step
    dsimp only
    split
    · obtain ⟨⟨pushing, pooled⟩, activated⟩ := ((serves _ _).stable
        world.mmio.activated).notifyQueue turns world.mmio requestQueue ⟨⟨rfl, rfl⟩, rfl⟩
      have rested : ∀ fs, (rest fs worker).pool.isSome = fs.pool.isSome := fun fs =>
        Option.isSome_map
      exact pushes.of_policy pushing ((rested _).trans pooled) activated.symm.trans rfl
    · exact pushes
  | notice message => exact iff_of_true (pushes.of_policy rfl rfl id rfl) trivial

/-- If every reset finds the pool empty, then every chain goes back in the session it was taken
in; and the server pushes at every moment as was agreed when the device was last activated
exactly if each activation agrees with the one before, and the first with the flags that the
device has from the last feature word the driver wrote. -/
theorem sessions_separate (share : Share) (workers : Nat) (memory : GuestMemory)
    (acts : List Act) :
    (Legal Quiet (World.step share workers) (World.start share workers memory) acts →
      ∀ back ∈ (run (World.step share workers) (World.start share workers memory)
        acts).mmio.device.returned, back.taken = back.returned) ∧
    ((∀ earlier, earlier <+: acts →
        (run (World.step share workers) (World.start share workers memory) earlier).Pushes) ↔
      Legal (Agrees share workers) (World.step share workers)
        (World.start share workers memory) acts) := by
  constructor
  · intro quiet
    have separate := run_invariant Quiet (World.step share workers)
      (fun world => world.mmio.device.Separate)
      (fun world act separate quiet => World.separate_step separate quiet) _ acts
      ⟨fun pool has => (by cases has), fun back none => (by cases none)⟩ quiet
    exact separate.back
  · exact holds_throughout_iff _ _ (fun _ => True) World.Pushes
      (fun world act _ pushes => World.pushes_step_iff pushes act) _ acts (fun _ _ => trivial)
      ⟨nofun, nofun⟩

/-! ## A request that outlives its session -/

namespace Outlived

/-- One request queue and one worker, which is given every request. -/
def oneWorker : Share where
  requestQueues := 1
  inline := .never
  remoteCap := 1
  stuckAfter := 30
  pressedAfter := 5
  mayBlock := fun _ _ => false
  dispatch := fun _ _ => ([], 16)
  refuse := fun _ _ => ([], 16)
  turns := 4

/-- The rings: a table at 0x1000 whose first descriptor is a request of one byte, and an
available ring at 0x2000 that offers it. -/
def offered : GuestMemory where
  regions := [⟨0, 0x10000⟩]
  bytes := fun address =>
    if address = 0x1001 then 0x50
    else if address = 0x1008 then 1
    else if address = 0x2002 then 1
    else 0

/-- A store to a register. -/
def store (offset value : Nat) : Act :=
  .transport (.write 4 offset [UInt8.ofNat value, UInt8.ofNat (value / 256)])

/-- The driver sets up the first request queue, with four entries, and is ready. -/
def setUp : List Act :=
  [store 0x30 1, store 0x38 4, store 0x80 0x1000, store 0x90 0x2000, store 0xa0 0x3000,
    store 0x44 1, store 0x70 4]

/-- The worker takes a request, serves it and wakes the transport, which returns the chain. -/
def served : List Act := List.replicate 5 (.work 0 0) ++ [.wake 4 0]

/-- The driver agrees to both features and offers a request; it resets the device while the
worker has it, agrees to nothing and offers another with the same head. -/
def acts : List Act :=
  [.transport (.memory offered), store 0x20 3] ++ setUp ++
    [store 0x50 1, .work 0 0, store 0x70 0, .transport (.memory offered), store 0x20 0] ++ setUp ++
    store 0x50 1 :: List.replicate 4 (.work 0 0) ++ [.wake 4 0]

/-- The driver agrees to both features, and resets the device before it is activated; then it is
ready at once, and agrees to nothing. -/
def stale : List Act := [store 0x20 3, store 0x70 0, store 0x70 4]

/-- What a run ends in. -/
def after (acts : List Act) : World :=
  run (World.step oneWorker 1) (World.start oneWorker 1 offered) acts

/-- The reply to the first request goes back as the second's, and the server pushes
invalidations to a driver that did not agree to them. It also does so for flags of features
that were agreed to before a reset. -/
theorem returned_in_another_session :
    ((after acts).mmio.device.returned = [⟨0, 1⟩] ∧ (after acts).mmio.activated = true ∧
      (after acts).mmio.device.pushing = true ∧ both (after acts).agreed = false) ∧
    (after stale).mmio.activated = true ∧ (after stale).mmio.device.pushing = true ∧
      both (after stale).agreed = false := by decide +kernel

/-- Two sessions, each with a request that is served and returned before it ends, and each
agreeing to both features. -/
def orderly : List Act :=
  let session := .transport (.memory offered) :: store 0x20 3 :: setUp ++ store 0x50 1 :: served
  session ++ store 0x70 0 :: session

instance (pool : Pool) : Decidable pool.Empty :=
  decidable_of_iff ((∀ lanes ∈ pool.jobs, lanes.localJobs = [] ∧ lanes.remote = []) ∧
      (∀ hand ∈ pool.hands, hand.job = none) ∧ pool.done = [])
    ⟨fun ⟨lanes, hands, done⟩ => ⟨lanes, hands, done⟩, fun empty =>
      ⟨empty.lanes, empty.hands, empty.done⟩⟩

instance (world : World) : (act : Act) → Decidable (Quiet world act)
  | .transport action =>
      inferInstanceAs (Decidable (resets action = true →
        ∀ pool ∈ world.mmio.device.pool, pool.Empty))
  | .work .. | .wake .. | .notice _ => isTrue trivial

instance (share : Share) (workers : Nat) (world : World) :
    (act : Act) → Decidable (Agrees share workers world act)
  | .transport action => inferInstanceAs (Decidable (activates world.mmio action = true →
      both (world.mmio.negotiatedFeatures (model share workers)) = world.standing))
  | .work .. | .wake .. | .notice _ => isTrue trivial

/-- Both chains go back in their own sessions, and the server pushes as agreed throughout. -/
theorem sessions_separate_orderly :
    (after orderly).mmio.device.returned = [⟨0, 0⟩, ⟨1, 1⟩] ∧
    (after orderly).mmio.activated = true ∧ both (after orderly).agreed = true ∧
    (∀ back ∈ (after orderly).mmio.device.returned, back.taken = back.returned) ∧
    ∀ earlier, earlier <+: orderly → (after earlier).Pushes := by
  obtain ⟨separate, pushes⟩ := sessions_separate oneWorker 1 offered orderly
  refine ⟨by decide +kernel, by decide +kernel, by decide +kernel, ?_, ?_⟩
  · exact separate (by decide +kernel)
  · exact pushes.mpr (by decide +kernel)

end Outlived

end Lighter.Virtio.VirtioFs
