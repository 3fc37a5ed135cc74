import Lighter.Lib.Table
import Lighter.Virtio.Mmio

/-!
# virtio-fs

The device that carries a host directory into the guest. It knows the rings and nothing
about filesystems: a request is copied out of its chain and served on the thread that found
it, or handed to a pool of host threads. These write the reply into the chain's own buffers
and leave a completion, and the transport returns the chain when it next looks.

The server behind it is a parameter: what it answers to each call, in the order of the
calls, and whether a request may wait on a network. A service is given a number of turns,
since a driver may go on offering chains for ever. Beside the device stand two things only
the laws read: how often the driver has reset it, with the number each chain was taken
under, and the chains that went back on a used ring. Statistics and log lines are left out,
and so is the tag in the configuration.
-/

namespace Lighter.Virtio.VirtioFs

open Virtqueue

def hiprioQueue : UInt16 := 0

/-- The first request queue; the others follow it. -/
def requestQueue : UInt16 := 1

def featureNotification : UInt64 := 1
def featureCacheReset : UInt64 := 2

/-- `VERSION_1`, indirect descriptors, the event index and the packed layout. -/
def commonFeatures : UInt64 :=
  (1 : UInt64) <<< (32 : UInt64) ||| (1 : UInt64) <<< (28 : UInt64) ||| ringEventIdx ||| ringPacked

/-- When a request is served on the thread that found it. -/
inductive Inline where
  | never
  /-- Only when no other request is waiting. -/
  | whenIdle
  | always
deriving DecidableEq, Repr

def Inline.applies (inline : Inline) (alone : Bool) : Bool :=
  match inline with
  | .never => false
  | .whenIdle => alone
  | .always => true

/-- What is the same for the device's whole life. A call's number is given with it. -/
structure Share where
  requestQueues : UInt16
  inline : Inline
  /-- How many workers may serve requests that wait on a network. -/
  remoteCap : Nat
  stuckAfter : Nat
  pressedAfter : Nat
  mayBlock : Nat → List UInt8 → Bool
  /-- The bytes of the reply, and how many the server says it wrote. -/
  dispatch : Nat → List UInt8 → List UInt8 × UInt32
  refuse : Nat → List UInt8 → List UInt8 × UInt32
  /-- How many turns a service is given. -/
  turns : Nat

/-- The queue the device writes to, after the request queues. -/
def Share.notifyQueue (share : Share) : UInt16 := requestQueue + share.requestQueues

def Share.isRequestQueue (share : Share) (index : UInt16) : Bool :=
  requestQueue ≤ index && index < requestQueue + share.requestQueues

/-- `ChainSink::write`, and whether all of it found room inside the memory. -/
def scatter (memory : GuestMemory) : List (Nat × UInt32) → List UInt8 → GuestMemory × Bool
  | [], data => (memory, data = [])
  | (addr, len) :: rest, data =>
      if data = [] then (memory, true)
      else if len = 0 then scatter memory rest data
      else
        match memory.write addr (data.take len.toNat) with
        | none => (memory, false)
        | some memory => scatter memory rest (data.drop len.toNat)

/-- What a descriptor the device reads adds to the request. -/
def gathered (memory : GuestMemory) (desc : Descriptor) : List UInt8 :=
  if desc.isWriteOnly then [] else (memory.read desc.addr desc.len.toNat).getD []

/-- The request the guest wrote, and the buffers it left for the reply. -/
def split (memory : GuestMemory) (chain : DescriptorChain) : List UInt8 × List (Nat × UInt32) :=
  let descriptors := chain.descriptors memory
  (descriptors.flatMap (gathered memory),
    (descriptors.filter Descriptor.isWriteOnly).map fun desc => (desc.addr, desc.len))

def capacity (segments : List (Nat × UInt32)) : Nat := (segments.map fun seg => seg.2.toNat).sum

/-- A request, detached from the guest so that a host thread may work on it. -/
structure Job where
  head : UInt16
  request : List UInt8
  reply : List (Nat × UInt32)
  queue : UInt16
  remote : Bool
  /-- To be answered without being served. -/
  refuse : Bool
  ring : UInt16
  /-- How often the device had been reset when the chain was taken. -/
  session : Nat
deriving DecidableEq, Repr

/-- A finished request, waiting to go back on the used ring. -/
structure Completion where
  head : UInt16
  len : UInt32
  queue : UInt16
  session : Nat
deriving DecidableEq, Repr

/-- Jobs waiting for a worker, in two lanes. -/
structure Lanes where
  localJobs : List Job
  remote : List Job
  remoteBusy : Nat
  /-- When a remote job last started or finished. -/
  remoteMoved : Nat
  refused : Nat
  /-- Remote jobs that hold a chain of each ring, and the ring's size. -/
  held : Table UInt16 (Nat × UInt16)

namespace Lanes

def new (now : Nat) : Lanes := ⟨[], [], 0, now, 0, ∅⟩

def release (lanes : Lanes) (ring : UInt16) : Lanes :=
  match lanes.held.lookup ring with
  | none => lanes
  | some (count, size) => { lanes with held := lanes.held.insert ring (count - 1, size) }

/-- Whether remote jobs hold three quarters of any ring. -/
def pressed (lanes : Lanes) : Bool :=
  lanes.held.entries.any fun entry => entry.2.1 * 4 ≥ entry.2.2.toNat * 3

def push (lanes : Lanes) (job : Job) : Lanes :=
  if job.remote then
    { lanes with
      remote := lanes.remote ++ [job]
      held := lanes.held.insert job.queue
        (((lanes.held.lookup job.queue).getD (0, job.ring)).1 + 1, job.ring) }
  else { lanes with localJobs := lanes.localJobs ++ [job] }

/-- The job a worker may take now, if there is one. -/
def pop (share : Share) (now : Nat) (lanes : Lanes) : Option (Lanes × Job) :=
  match lanes.localJobs with
  | job :: rest => some ({ lanes with localJobs := rest }, job)
  | [] =>
      match lanes.remote with
      | [] => none
      | job :: rest =>
          if lanes.remoteBusy < max share.remoteCap 1 then
            some ({ lanes with
              remote := rest, remoteBusy := lanes.remoteBusy + 1, remoteMoved := now }, job)
          else
            let patience :=
              if lanes.pressed then min share.pressedAfter share.stuckAfter else share.stuckAfter
            if now - lanes.remoteMoved ≥ patience then
              some ({ { lanes with remote := rest }.release job.queue with
                refused := lanes.refused + 1 }, { job with refuse := true })
            else none

/-- A remote job is finished, and its lane has moved. -/
def done (now : Nat) (lanes : Lanes) (job : Job) : Lanes :=
  if !job.remote then lanes
  else
    { { lanes with remoteBusy := lanes.remoteBusy - 1 }.release job.queue with
      remoteMoved := now, refused := 0 }

end Lanes

/-- Where a worker is. -/
inductive Hand where
  | idle
  | serving (job : Job)
  /-- The reply is written; the lane is not told yet. -/
  | served (job : Job) (len : UInt32)
  /-- The completion is not queued yet. -/
  | answered (job : Job) (len : UInt32)
  /-- The completion is queued; a wake-up may be on its way already. -/
  | telling
  | waking
deriving DecidableEq, Repr

def Hand.job : Hand → Option Job
  | .serving job | .served job _ | .answered job _ => some job
  | _ => none

structure Pool where
  /-- `None` once the queue has been closed. -/
  jobs : Option Lanes
  done : List Completion
  waking : Bool
  hands : List Hand

/-- A chain that went back on a used ring: the resets before it was taken, and before it
was returned. -/
structure Returned where
  taken : Nat
  returned : Nat
deriving DecidableEq, Repr

structure Fs where
  /-- Built at the first activation, together with the device's view of guest memory. -/
  pool : Option Pool
  notifications : Bool
  cacheReset : Bool
  /-- The server's policy pushes invalidations. -/
  pushing : Bool
  /-- Invalidations waiting to reach the guest. -/
  notices : List (List UInt8)
  /-- Calls made of the server. -/
  calls : Nat
  session : Nat
  returned : List Returned

namespace Fs

def new : Fs where
  pool := none
  notifications := false
  cacheReset := false
  pushing := false
  notices := []
  calls := 0
  session := 0
  returned := []

def features (_ : Fs) : UInt64 := commonFeatures ||| featureNotification ||| featureCacheReset

def ackFeatures (fs : Fs) (features : UInt64) : Fs :=
  { fs with
    notifications := features &&& featureNotification != 0
    cacheReset := features &&& featureCacheReset != 0 }

/-- Only the first activation does anything. -/
def activate (workers now : Nat) (fs : Fs) : Fs :=
  if fs.pool.isSome then fs
  else
    { fs with
      pushing := fs.notifications && fs.cacheReset
      pool := some ⟨some (Lanes.new now), [], false, List.replicate workers .idle⟩ }

/-- The device has no reset of its own. -/
def reset (fs : Fs) : Fs := { fs with session := fs.session + 1 }

end Fs

/-- A service of one queue, as far as it has come. -/
structure Pass where
  fs : Fs
  queue : Virtqueue
  memory : GuestMemory
  used : Bool

namespace Pass

/-- `Virtqueue::push_used`. The queue refuses a head that is not outstanding. -/
def pushUsed (pass : Pass) (head : UInt16) (len : UInt32) (session : Nat) : Pass :=
  let pushed := pass.queue.pushUsed pass.memory head len
  { pass with
    fs := { pass.fs with
      returned :=
        if pass.queue.outstanding[head.toNat]? = some true then
          pass.fs.returned ++ [⟨session, pass.fs.session⟩]
        else pass.fs.returned }
    queue := pushed.1
    memory := pushed.2 }

/-- A chain given back on the spot. -/
def giveBack (pass : Pass) (head : UInt16) (len : UInt32) : Pass :=
  { pass.pushUsed head len pass.fs.session with used := true }

/-- The request is served on this thread. -/
def serveHere (share : Share) (pass : Pass) (head : UInt16) (request : List UInt8)
    (reply : List (Nat × UInt32)) : Pass :=
  let (answer, written) := share.dispatch pass.fs.calls request
  { pass with
    fs := { pass.fs with calls := pass.fs.calls + 1 }
    memory := (scatter pass.memory reply answer).1 }.giveBack head written

/-- The request is handed to the pool, or given back if every worker is gone. -/
def handOver (pass : Pass) (pool : Pool) (job : Job) : Pass :=
  match pool.jobs with
  | none => pass.giveBack job.head 0
  | some lanes =>
      { pass with fs := { pass.fs with pool := some { pool with jobs := some (lanes.push job) } } }

/-- One chain of the high-priority queue: served here unless it may wait on a server. -/
def hiprio (share : Share) (pass : Pass) (chain : DescriptorChain) : Pass :=
  let (request, reply) := split pass.memory chain
  match pass.fs.pool with
  | some pool =>
      if share.mayBlock pass.fs.calls request then
        pass.handOver pool ⟨chain.head, request, reply, hiprioQueue, true, false, pass.queue.size,
          pass.fs.session⟩
      else pass.serveHere share chain.head request reply
  | none => pass.serveHere share chain.head request reply

/-- One chain of a request queue. -/
def request (share : Share) (index : UInt16) (pass : Pass) (chain : DescriptorChain) : Pass :=
  let (request, reply) := split pass.memory chain
  match pass.fs.pool with
  | none => pass
  | some pool =>
      let alone := pool.jobs.all (fun lanes => lanes.localJobs.isEmpty) &&
        !pass.queue.hasWork pass.memory
      let remote := share.mayBlock pass.fs.calls request
      if share.inline.applies alone && !remote then
        pass.serveHere share chain.head request reply
      else
        pass.handOver pool ⟨chain.head, request, reply, index, remote, false, pass.queue.size,
          pass.fs.session⟩

/-- Chains are taken and served while there are any. -/
def drain (serve : Pass → DescriptorChain → Pass) : Nat → Pass → Pass
  | 0, pass => pass
  | turns + 1, pass =>
      match pass.queue.pop pass.memory with
      | (queue, none) => { pass with queue := queue }
      | (queue, some chain) => drain serve turns (serve { pass with queue := queue } chain)

/-- Queued invalidations are moved into the buffers the guest posted, one each. One that
does not fit is dropped. -/
def deliver : Nat → Pass → Pass
  | 0, pass => pass
  | turns + 1, pass =>
      match pass.fs.notices with
      | [] => pass
      | message :: rest =>
          match pass.queue.pop pass.memory with
          | (queue, none) => { pass with queue := queue }
          | (queue, some chain) =>
              let (_, buffers) := split pass.memory chain
              let taken := { pass with queue := queue, fs := { pass.fs with notices := rest } }
              deliver turns
                (if capacity buffers < message.length then taken.giveBack chain.head 0
                 else
                  let (memory, whole) := scatter taken.memory buffers message
                  { taken with memory := memory }.giveBack chain.head
                    (if whole then UInt32.ofNat message.length else 0))

end Pass

/-- A service of one queue, over all of them. -/
def onQueue (fs : Fs) (index : UInt16) (queues : List Virtqueue) (memory : GuestMemory)
    (serve : Pass → Pass) : Service Fs :=
  match queues[index.toNat]? with
  | none => ⟨fs, queues, memory, Serviced.none⟩
  | some queue =>
      let pass := serve ⟨fs, queue, memory, false⟩
      ⟨pass.fs, queues.set index.toNat pass.queue, pass.memory,
        if pass.used then Serviced.queue index else Serviced.none⟩

/-- Finished work goes back to whichever queues it came from. -/
def reapAll : List Completion → Service Fs → Service Fs
  | [], service => service
  | completion :: rest, service =>
      match service.queues[completion.queue.toNat]? with
      | none => reapAll rest service
      | some queue =>
          let pass := Pass.pushUsed ⟨service.device, queue, service.memory, false⟩ completion.head
            completion.len completion.session
          reapAll rest
            ⟨pass.fs, service.queues.set completion.queue.toNat pass.queue, pass.memory,
              service.serviced.and (Serviced.queue completion.queue)⟩

def reap (service : Service Fs) : Service Fs :=
  match service.device.pool with
  | none => service
  | some pool =>
      reapAll pool.done
        { service with
          device := { service.device with pool := some { pool with waking := false, done := [] } } }

def notify (share : Share) (fs : Fs) (index : UInt16) (queues : List Virtqueue)
    (memory : GuestMemory) : Service Fs :=
  if index = hiprioQueue then
    if fs.pool.isNone then ⟨fs, queues, memory, Serviced.none⟩
    else onQueue fs index queues memory (Pass.drain (Pass.hiprio share) share.turns)
  else if share.isRequestQueue index then
    if fs.pool.isNone then ⟨fs, queues, memory, Serviced.none⟩
    else if (queues[index.toNat]?).isNone then ⟨fs, queues, memory, Serviced.none⟩
    else reap (onQueue fs index queues memory (Pass.drain (Pass.request share index) share.turns))
  else if index = share.notifyQueue then
    if !fs.notifications || fs.pool.isNone then ⟨fs, queues, memory, Serviced.none⟩
    else onQueue fs index queues memory (Pass.deliver share.turns)
  else ⟨fs, queues, memory, Serviced.none⟩

/-! ## What a service leaves alone -/

namespace Pass

variable (pass : Pass)

theorem geometry_pushUsed (head : UInt16) (len : UInt32) (session : Nat) :
    (pass.pushUsed head len session).queue.geometry = pass.queue.geometry :=
  Virtqueue.geometry_pushUsed pass.queue pass.memory head len

theorem geometry_giveBack (head : UInt16) (len : UInt32) :
    (pass.giveBack head len).queue.geometry = pass.queue.geometry :=
  pass.geometry_pushUsed head len pass.fs.session

theorem geometry_handOver (pool : Pool) (job : Job) :
    (pass.handOver pool job).queue.geometry = pass.queue.geometry := by
  unfold handOver
  split
  · exact geometry_giveBack _ _ _
  · rfl

variable (share : Share)

theorem geometry_serveHere (head : UInt16) (request : List UInt8) (reply : List (Nat × UInt32)) :
    (pass.serveHere share head request reply).queue.geometry = pass.queue.geometry :=
  geometry_giveBack _ _ _

theorem geometry_hiprio (chain : DescriptorChain) :
    (pass.hiprio share chain).queue.geometry = pass.queue.geometry := by
  unfold hiprio
  dsimp only
  split
  · split
    · exact geometry_handOver _ _ _
    · exact geometry_serveHere _ _ _ _ _
  · exact geometry_serveHere _ _ _ _ _

theorem geometry_request (index : UInt16) (pass : Pass) (chain : DescriptorChain) :
    (pass.request share index chain).queue.geometry = pass.queue.geometry := by
  unfold request
  dsimp only
  split
  · rfl
  · split
    · exact geometry_serveHere _ _ _ _ _
    · exact geometry_handOver _ _ _

theorem geometry_drain {serve : Pass → DescriptorChain → Pass}
    (each : ∀ pass chain, (serve pass chain).queue.geometry = pass.queue.geometry) (turns : Nat)
    (pass : Pass) : (drain serve turns pass).queue.geometry = pass.queue.geometry := by
  induction turns generalizing pass with
  | zero => rfl
  | succ turns ih =>
    have popped := (pass.queue.pop_keeps pass.memory).1
    unfold drain
    split
    · grind
    · grind

theorem geometry_deliver (turns : Nat) (pass : Pass) :
    (deliver turns pass).queue.geometry = pass.queue.geometry := by
  induction turns generalizing pass with
  | zero => rfl
  | succ turns ih =>
    have popped := (pass.queue.pop_keeps pass.memory).1
    unfold deliver
    split
    · rfl
    · grind [geometry_giveBack]

end Pass

theorem geometry_onQueue (fs : Fs) (index : UInt16) (queues : List Virtqueue)
    (memory : GuestMemory) {serve : Pass → Pass}
    (keeps : ∀ pass, (serve pass).queue.geometry = pass.queue.geometry) :
    (onQueue fs index queues memory serve).queues.map geometry =
      queues.map geometry := by
  unfold onQueue
  split
  · rfl
  · rename_i queue found
    exact map_geometry_set found (keeps _)

theorem geometry_reapAll (completions : List Completion) (service : Service Fs) :
    (reapAll completions service).queues.map geometry =
      service.queues.map geometry := by
  induction completions generalizing service with
  | nil => rfl
  | cons completion rest ih =>
    unfold reapAll
    split
    · exact ih service
    · grind [map_geometry_set, Pass.geometry_pushUsed]

theorem geometry_notify (share : Share) (fs : Fs) (index : UInt16) (queues : List Virtqueue)
    (memory : GuestMemory) :
    (notify share fs index queues memory).queues.map geometry =
      queues.map geometry := by
  unfold notify
  split
  · grind [geometry_onQueue, Pass.geometry_drain, Pass.geometry_hiprio]
  split
  · split
    · rfl
    split
    · rfl
    have taken := geometry_onQueue fs index queues memory fun pass =>
      Pass.geometry_drain (Pass.geometry_request share index) share.turns pass
    unfold reap
    split
    · exact taken
    · exact (geometry_reapAll _ _).trans taken
  · grind [geometry_onQueue, Pass.geometry_deliver]

/-! ## The workers -/

/-- One step of a worker, up to where it has to wake the transport. -/
def work (share : Share) (now worker : Nat) (fs : Fs) (memory : GuestMemory) : Fs × GuestMemory :=
  match fs.pool with
  | none => (fs, memory)
  | some pool =>
      match pool.hands[worker]? with
      | none | some .waking => (fs, memory)
      | some .idle =>
          match pool.jobs.bind (Lanes.pop share now) with
          | none => (fs, memory)
          | some (lanes, job) =>
              ({ fs with pool := some { pool with
                jobs := some lanes, hands := pool.hands.set worker (.serving job) } }, memory)
      | some (.serving job) =>
          let (answer, written) :=
            if job.refuse then share.refuse fs.calls job.request
            else share.dispatch fs.calls job.request
          let hand : Hand := if job.refuse then .answered job written else .served job written
          ({ fs with
            calls := fs.calls + 1
            pool := some { pool with hands := pool.hands.set worker hand } },
            (scatter memory job.reply answer).1)
      | some (.served job len) =>
          ({ fs with pool := some { pool with
            jobs := pool.jobs.map fun lanes => lanes.done now job
            hands := pool.hands.set worker (.answered job len) } }, memory)
      | some (.answered job len) =>
          ({ fs with pool := some { pool with
            done := pool.done ++ [⟨job.head, len, job.queue, job.session⟩]
            hands := pool.hands.set worker .telling } }, memory)
      | some .telling =>
          -- One wake-up for a batch: who finds the flag set leaves it to another.
          ({ fs with pool := some { pool with
            waking := true
            hands := pool.hands.set worker (if pool.waking then .idle else .waking) } }, memory)

/-- Whether a worker is about to wake the transport. -/
def isWaking (fs : Fs) (worker : Nat) : Bool :=
  fs.pool.any fun pool => pool.hands[worker]? = some .waking

/-- It has done so. -/
def rest (fs : Fs) (worker : Nat) : Fs :=
  { fs with pool := fs.pool.map fun pool =>
    { pool with hands := pool.hands.set worker .idle } }

/-- The device as the transport has it: nothing is written to its configuration, and no
timer is asked for. When the pool is built the lane has not moved yet, and until it moves
nobody asks when it did. -/
def model (share : Share) (workers : Nat) : VirtioDevice Fs where
  features := Fs.features
  ackFeatures := Fs.ackFeatures
  queueCount := 2 + share.requestQueues.toNat
  queueMaxSizeOf := fun _ => maxQueueSize
  configWrite := fun fs _ _ => fs
  activate := fun fs _ => fs.activate workers 0
  notify := notify share
  retryDeadline := fun _ => none
  retryDeferred := fun fs queues memory _ => ⟨fs, queues, memory, Serviced.none⟩
  reset := Fs.reset
  geometry_notify := geometry_notify share
  geometry_retryDeferred := fun _ _ _ _ => rfl

end Lighter.Virtio.VirtioFs
