import Lighter.Fs.ApplySound
import Lighter.Lib.Transition
import Mathlib.Data.Fintype.Basic

/-!
# The threads around the apply queue

Workers that look for jobs, run them and put them away, and callers that push, wait at a
barrier, hold or release. A section under the queue's lock is one step; what a thread does
without the lock (reading a counter, giving back bytes, running a job, notifying after it
has let the lock go) is a step of its own, so that everything else may come between.

A condition variable is the set of threads asleep in it. `notify_one` wakes one of them,
any one, if there is one; each may also wake for no reason. The flags are what the callers
of `wait_while` look at; anything may change them at any time. The numbers are not bounded:
a count of jobs or of bytes held in memory does not reach the width of a word.
-/

namespace Lighter.Fs.Apply

/-- How far a worker is with the job it has taken. -/
inductive Stage where
  | running
  /-- The job has returned; its bytes are still counted. -/
  | returned
  /-- Its bytes are given back; the queue is not told yet. -/
  | counted
deriving DecidableEq, Repr

/-- Where a worker is. -/
inductive Phase where
  /-- About to take the lock and look for a job. -/
  | looking
  /-- Asleep in `arrived`. -/
  | asleep
  | busy (stage : Stage) (seq : Nat) (job : Job)
  /-- The job is put away; those asleep in `settled` are not told yet. -/
  | settling
deriving DecidableEq

def Phase.hand : Phase → Option (Stage × Nat × Job)
  | .busy stage seq job => some (stage, seq, job)
  | _ => none

/-- A call that waits for jobs to be applied. What a call to `drain` or `wait_while` keeps
besides is how much had happened when it was made. -/
inductive Barrier where
  | drain (called seq : Nat)
  | drainTo (seq : Nat)
  | waitWhile (called flag : Nat)
deriving DecidableEq, Repr

/-- Where a caller is. -/
inductive Client where
  | idle
  /-- In `push`, about to take the lock. -/
  | pushing (job : Job)
  /-- In `push`, asleep in `settled`. -/
  | pushAsleep (job : Job)
  /-- In `push`, the job queued and the lock let go. -/
  | notifying
  /-- In `drain`, about to read how many jobs were pushed. -/
  | marking (called : Nat)
  /-- At a barrier, about to look without the lock. -/
  | checking (barrier : Barrier)
  /-- In `wait_while`, about to read the depth without the lock. -/
  | counting (called flag : Nat)
  /-- At a barrier, about to take the lock and look. -/
  | entering (barrier : Barrier)
  /-- At a barrier, asleep in `settled`. -/
  | waiting (barrier : Barrier)
  | holding
  | freeing
  /-- In `release`, about to wake the workers. -/
  | releasing
deriving DecidableEq

/-- What has happened, in order. -/
inductive Event where
  | pushed (seq : Nat)
  | started (seq : Nat)
  | finished (seq : Nat)
  | applied (seq : Nat)
  | flag (name : Nat) (value : Bool)
  /-- A barrier has returned. -/
  | ended (barrier : Barrier)
deriving DecidableEq

structure World (n : Nat) where
  state : State
  workers : Fin n → Phase
  clients : Nat → Client
  depth : Nat
  pushed : Nat
  applied : Nat
  bytes : Nat
  flags : Nat → Bool
  /-- Every job ever pushed, in the order of their numbers. -/
  jobs : List Job
  log : List Event

inductive Call where
  | push (job : Job)
  | drain
  | drainTo (seq : Nat)
  | waitWhile (flag : Nat)
  | hold
  | release
deriving DecidableEq

inductive Act (n : Nat) where
  /-- A worker's next step; if it wakes one worker, then this one where it can. -/
  | work (worker chosen : Fin n)
  /-- A worker wakes for no reason. -/
  | wake (worker : Fin n)
  | call (client : Nat) (call : Call)
  /-- A caller's next step; if it wakes one worker, then this one where it can. -/
  | go (client : Nat) (chosen : Fin n)
  /-- A caller wakes for no reason. -/
  | rouse (client : Nat)
  | set (flag : Nat) (value : Bool)
deriving DecidableEq

namespace World

variable {n : Nat}

def start (n : Nat) : World n where
  state := State.start
  workers := fun _ => .looking
  clients := fun _ => .idle
  depth := 0
  pushed := 0
  applied := 0
  bytes := 0
  flags := fun _ => false
  jobs := []
  log := []

def note (world : World n) (event : Event) : World n := { world with log := world.log ++ [event] }

def setWorker (world : World n) (worker : Fin n) (phase : Phase) : World n :=
  { world with workers := Function.update world.workers worker phase }

def setClient (world : World n) (client : Nat) (phase : Client) : World n :=
  { world with clients := Function.update world.clients client phase }

/-- `arrived.notify_one`. -/
def notifyOne (world : World n) (chosen : Fin n) : World n :=
  if world.workers chosen = .asleep then world.setWorker chosen .looking
  else
    match (List.finRange n).find? (fun worker => world.workers worker = .asleep) with
    | none => world
    | some worker => world.setWorker worker .looking

/-- `arrived.notify_all`. -/
def notifyAll (world : World n) : World n :=
  { world with workers := fun worker =>
      if world.workers worker = .asleep then .looking else world.workers worker }

/-- A caller woken in `settled` takes the lock and looks again. -/
def rise : Client → Client
  | .pushAsleep job => .pushing job
  | .waiting barrier => .entering barrier
  | client => client

/-- `settled.notify_all`. -/
def settle (world : World n) : World n :=
  { world with clients := fun client => rise (world.clients client) }

/-- A worker under the lock: it takes a job or goes to sleep. A job that is ready is held
and untaken, so the code's `expect` does not fail. -/
def look (config : Config) (world : World n) (worker : Fin n) : World n :=
  if world.state.held then world.setWorker worker .asleep
  else
    match world.state.pick config with
    | none => world.setWorker worker .asleep
    | some (picked, seq) =>
        match picked.take config seq with
        | none => world
        | some (state, job) =>
            ({ world with state := state }.setWorker worker (.busy .running seq job)).note
              (.started seq)

/-- A worker under the lock puts a job away, and wakes others for what that made ready. -/
def complete (config : Config) (world : World n) (worker chosen : Fin n) (seq : Nat) (job : Job) :
    World n :=
  let (state, ready) := world.state.complete config seq job
  let world := { world with
    state := state
    applied := state.watermark world.pushed
    depth := world.depth - 1 }
  let world := (world.setWorker worker .settling).note (.applied seq)
  match ready with
  | 0 => world
  | 1 => world.notifyOne chosen
  | _ => world.notifyAll

/-- A worker's next step. -/
def work (config : Config) (world : World n) (worker chosen : Fin n) : World n :=
  match world.workers worker with
  | .looking => world.look config worker
  | .asleep => world
  | .busy .running seq job =>
      (world.setWorker worker (.busy .returned seq job)).note (.finished seq)
  | .busy .returned seq job =>
      { world with bytes := world.bytes - job.bytes }.setWorker worker (.busy .counted seq job)
  | .busy .counted seq job => world.complete config worker chosen seq job
  | .settling => world.settle.setWorker worker .looking

/-- A caller under the lock queues its job. -/
def push (config : Config) (world : World n) (client : Nat) (job : Job) : World n :=
  let seq := world.pushed + 1
  ({ world with
    depth := world.depth + 1
    bytes := world.bytes + job.bytes
    pushed := seq
    state := world.state.enqueue config seq job
    jobs := world.jobs ++ [job] }.setClient client .notifying).note (.pushed seq)

/-- A barrier returns. -/
def leave (world : World n) (client : Nat) (barrier : Barrier) : World n :=
  (world.setClient client .idle).note (.ended barrier)

/-- Whether the loop of a barrier goes round again. -/
def stays (world : World n) : Barrier → Bool
  | .drain _ seq => world.applied < seq
  | .drainTo seq => world.applied < seq
  | .waitWhile _ flag => world.flags flag && world.depth ≠ 0

/-- A barrier's look without the lock. -/
def check (world : World n) (client : Nat) (barrier : Barrier) : World n :=
  match barrier with
  | .drain _ seq | .drainTo seq =>
      if world.applied ≥ seq then world.leave client barrier
      else world.setClient client (.entering barrier)
  | .waitWhile called flag =>
      if !world.flags flag then world.leave client barrier
      else world.setClient client (.counting called flag)

/-- A caller's next step. -/
def go (config : Config) (world : World n) (client : Nat) (chosen : Fin n) : World n :=
  match world.clients client with
  | .idle => world
  | .pushing job =>
      if world.bytes > config.bytesCap || world.depth > config.window then
        world.setClient client (.pushAsleep job)
      else world.push config client job
  | .pushAsleep _ => world
  | .notifying => (world.notifyOne chosen).setClient client .idle
  | .marking called => world.setClient client (.checking (.drain called world.pushed))
  | .checking barrier => world.check client barrier
  | .counting called flag =>
      if world.depth = 0 then world.leave client (.waitWhile called flag)
      else world.setClient client (.entering (.waitWhile called flag))
  | .entering barrier =>
      if world.stays barrier then world.setClient client (.waiting barrier)
      else world.leave client barrier
  | .waiting _ => world
  | .holding => { world with state := { world.state with held := true } }.setClient client .idle
  | .freeing =>
      { world with state := { world.state with held := false } }.setClient client .releasing
  | .releasing => world.notifyAll.setClient client .idle

/-- Where a caller that makes a call begins. -/
def begin (world : World n) : Call → Client
  | .push job => .pushing job
  | .drain => .marking world.log.length
  | .drainTo seq => .checking (.drainTo seq)
  | .waitWhile flag => .checking (.waitWhile world.log.length flag)
  | .hold => .holding
  | .release => .freeing

def step (config : Config) (world : World n) : Act n → World n
  | .work worker chosen => world.work config worker chosen
  | .wake worker =>
      if world.workers worker = .asleep then world.setWorker worker .looking else world
  | .call client call =>
      if world.clients client = .idle then world.setClient client (world.begin call) else world
  | .go client chosen => world.go config client chosen
  | .rouse client => world.setClient client (rise (world.clients client))
  | .set flag value =>
      { world with flags := Function.update world.flags flag value }.note (.flag flag value)

end World
end Lighter.Fs.Apply
