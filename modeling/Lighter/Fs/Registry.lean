import Mathlib.Logic.Function.Basic

/-!
# The inode registry

The tables that give a file its nodeid: by the numbers the host knows it by, and by the
nodeid itself, each in shards under a lock of their own. Each section under a lock is one
step, so that any other thread may come between two of them, and a thread that needs a lock
another has waits for it. The count of an inode's lookups has a lock of its own, which a
thread takes with or without that of the table.

What the host says of a file (whether it still is the one its numbers named) and what the
queue has promised of an inode may be anything at any time. Descriptors, the sweep that
closes them and the hand it goes by are not here: they do not decide whether a nodeid
resolves. The counts are not bounded: the replies that name a file do not reach the width
of a word.
-/

namespace Lighter.Fs.Registry

/-- A device and an inode number, as the host has them. -/
abbrev Key := Int × Nat

def rootId : Nat := 1

structure Inode where
  key : Key
  lookups : Nat
  /-- A create that has not been applied. -/
  pending : Bool
  /-- Names under it are promised, or promised gone. -/
  promises : Bool
  /-- A queued rename or link names it. -/
  promised : Bool
  /-- A forget is left to whoever keeps its last promise. -/
  deferred : Bool
  /-- The inode of the clone that replaced it. -/
  forwarded : Option Nat
  /-- It is in the table, and its nodeid resolves. Threads that have it may go on without. -/
  listed : Bool
deriving DecidableEq, Repr

/-- Where a thread is. -/
inductive Phase where
  | idle
  /-- In `relookup`: about to look up the numbers. -/
  | seeking (key : Key)
  /-- In `relookup`: about to get the inode. -/
  | fetching (key : Key) (id : Nat)
  /-- In `relookup`, with no lock: about to ask the host whether it still is the file. -/
  | checking (key : Key) (id : Nat)
  | retiring (key : Key) (id : Nat)
  /-- In `relookup`: about to count the lookup. -/
  | counting (id : Nat)
  /-- In `insert`: about to take the lock on the numbers. -/
  | entering (key : Key)
  /-- In `insert`, with that lock, as in the next three. -/
  | finding (key : Key) (id : Nat)
  | comparing (key : Key) (id : Nat)
  | recounting (key : Key) (id : Nat)
  | minting (key : Key)
  /-- In `insert`: about to put the new inode in the table. -/
  | filing (key : Key) (id : Nat)
  /-- In `count_lookup`. -/
  | naming (id : Nat)
  /-- In a `forget` of the guest's. -/
  | forgetting (id count : Nat)
  /-- In the `forget` of the lookup that an inode was kept by on another's behalf. -/
  | releasing (id : Nat)
  /-- In `forget`, with the lock on the table: the count has come to zero. -/
  | removing (id : Nat)
  /-- In `forget`: the inode is out of the table. -/
  | unmapping (id : Nat) (key : Key) (forwarded : Option Nat)
deriving DecidableEq, Repr

/-- Who gives back the lookup that an inode is kept by on another's behalf. -/
inductive Debtor where
  | inode (id : Nat)
  | thread (thread : Nat)
deriving DecidableEq, Repr

/-- Which shard a number and a nodeid are in. -/
structure Sharding where
  identityShard : Nat → Nat
  shard : Nat → Nat

structure State where
  byIdentity : Key → Option Nat
  /-- Every inode there has been. -/
  inodes : Nat → Option Inode
  next : Nat
  /-- The thread that has each lock for longer than a step. -/
  identityLock : Nat → Option Nat
  tableLock : Nat → Option Nat
  threads : Nat → Phase
  /-- How many lookups were counted for a nodeid by replies that name it. -/
  named : Nat → Nat
  /-- How many the guest has given back. -/
  forgotten : Nat → Nat
  /-- How many were counted for an inode since a `forget` last looked at its count. -/
  since : Nat → Nat
  owed : Nat → Option Debtor

inductive Call where
  | relookup (key : Key)
  | insert (key : Key)
  | countLookup (id : Nat)
  | forget (id count : Nat)
deriving DecidableEq, Repr

inductive Act where
  | call (thread : Nat) (call : Call)
  /-- A thread's next step, with what the host says. -/
  | go (thread : Nat) (same : Bool)
  /-- What is promised of an inode changes. -/
  | mark (id : Nat) (pending promises promised : Bool)
  /-- `insert_pending` for a create, whose reply names the inode. -/
  | create (key : Key)
  /-- `insert_pending` for a clone over a file: the old inode answers with the new one, and
  keeps it by the lookup it was made with. -/
  | forward (old : Nat) (key : Key)
deriving DecidableEq

namespace State

/-- The nodeid resolves. -/
def listed (state : State) (id : Nat) : Bool := (state.inodes id).any (·.listed)

def setThread (state : State) (thread : Nat) (phase : Phase) : State :=
  { state with threads := Function.update state.threads thread phase }

def setInode (state : State) (id : Nat) (inode : Inode) : State :=
  { state with inodes := Function.update state.inodes id (some inode) }

def setIdentityLock (state : State) (shard : Nat) (holder : Option Nat) : State :=
  { state with identityLock := Function.update state.identityLock shard holder }

def setTableLock (state : State) (shard : Nat) (holder : Option Nat) : State :=
  { state with tableLock := Function.update state.tableLock shard holder }

/-- Counts a lookup. -/
def count (state : State) (id : Nat) : State :=
  { state with
    inodes := Function.update state.inodes id
      ((state.inodes id).map fun inode => { inode with lookups := inode.lookups + 1 })
    named := Function.update state.named id (state.named id + 1)
    since := Function.update state.since id (state.since id + 1) }

/-- `Inode::new` with one lookup. -/
def fresh (key : Key) (pending : Bool) : Inode :=
  ⟨key, 1, pending, false, false, false, none, true⟩

/-- Stops numbers naming an inode. -/
def unmap (state : State) (key : Key) (id : Nat) : State :=
  if state.byIdentity key = some id then
    { state with byIdentity := Function.update state.byIdentity key none }
  else state

/-- `forget` as far as the count: under the lock on the table, which it keeps if the count
has come to zero. -/
def giveBack (sharding : Sharding) (state : State) (thread id count : Nat) : State :=
  if id = rootId then state
  else
    match state.inodes id with
    | none => state
    | some inode =>
        if !inode.listed then state
        else
          let counted :=
            { state.setInode id { inode with lookups := inode.lookups - count } with
              since := Function.update state.since id 0 }
          if inode.lookups - count > 0 then counted
          else (counted.setTableLock (sharding.shard id) (some thread)).setThread thread
            (.removing id)

/-- `forget` once the count has come to zero. -/
def remove (sharding : Sharding) (state : State) (thread id : Nat) : State :=
  let unlocked := state.setTableLock (sharding.shard id) none
  match state.inodes id with
  | none => unlocked
  | some inode =>
      if inode.pending || inode.promises then unlocked
      else if inode.promised then unlocked.setInode id { inode with deferred := true }
      else
        let gone := unlocked.setInode id { inode with deferred := false, listed := false }
        { gone with owed :=
            match inode.forwarded with
            | none => gone.owed
            | some next => Function.update gone.owed next (some (.thread thread)) }.setThread thread
          (.unmapping id inode.key inode.forwarded)

/-- A thread's next step. -/
def go (sharding : Sharding) (state : State) (thread : Nat) (same : Bool) : State :=
  -- A thread goes back to being idle unless it has more to do.
  let free := state.setThread thread .idle
  let identityFree (key : Key) := state.identityLock (sharding.identityShard key.2) = none
  let tableFree (id : Nat) := state.tableLock (sharding.shard id) = none
  match state.threads thread with
  | .idle => state
  | .seeking key =>
      if ¬ identityFree key then state
      else
        match state.byIdentity key with
        | none => free
        | some id => free.setThread thread (.fetching key id)
  | .fetching key id =>
      if ¬ tableFree id then state
      else if state.listed id then free.setThread thread (.checking key id)
      else free
  | .checking key id =>
      if same then free.setThread thread (.counting id)
      else free.setThread thread (.retiring key id)
  | .retiring key id => if ¬ identityFree key then state else free.unmap key id
  | .counting id => free.count id
  | .entering key =>
      if ¬ identityFree key then state
      else
        let locked := free.setIdentityLock (sharding.identityShard key.2) (some thread)
        match state.byIdentity key with
        | none => locked.setThread thread (.minting key)
        | some id => locked.setThread thread (.finding key id)
  | .finding key id =>
      if ¬ tableFree id then state
      else if state.listed id then free.setThread thread (.comparing key id)
      else free.setThread thread (.minting key)
  | .comparing key id =>
      if same then free.setThread thread (.recounting key id)
      else free.setThread thread (.minting key)
  | .recounting key id =>
      (free.count id).setIdentityLock (sharding.identityShard key.2) none
  | .minting key =>
      ({ free with
        next := state.next + 1
        byIdentity := Function.update state.byIdentity key (some state.next) }.setIdentityLock
          (sharding.identityShard key.2) none).setThread thread (.filing key state.next)
  | .filing key id =>
      if ¬ tableFree id then state
      else
        { free.setInode id (fresh key false) with
          named := Function.update state.named id (state.named id + 1) }
  | .naming id =>
      if ¬ tableFree id then state else if state.listed id then free.count id else free
  | .forgetting id count =>
      if ¬ tableFree id then state
      else
        { free with
          forgotten := Function.update state.forgotten id (state.forgotten id + count) }.giveBack
            sharding thread id count
  | .releasing id =>
      if ¬ tableFree id then state
      else { free with owed := Function.update state.owed id none }.giveBack sharding thread id 1
  | .removing id => free.remove sharding thread id
  | .unmapping id key forwarded =>
      if ¬ identityFree key then state
      else
        match forwarded with
        | none => free.unmap key id
        | some next => (free.unmap key id).setThread thread (.releasing next)

def begin : Call → Phase
  | .relookup key => .seeking key
  | .insert key => .entering key
  | .countLookup id => .naming id
  | .forget id count => .forgetting id count

def step (sharding : Sharding) (state : State) : Act → State
  | .call thread call =>
      if state.threads thread = .idle then state.setThread thread (begin call) else state
  | .go thread same => state.go sharding thread same
  | .mark id pending promises promised =>
      match state.inodes id with
      | none => state
      | some inode =>
          state.setInode id
            { inode with pending := pending, promises := promises, promised := promised }
  | .create key =>
      { state.setInode state.next (fresh key true) with
        next := state.next + 1
        named := Function.update state.named state.next (state.named state.next + 1) }
  | .forward old key =>
      match state.inodes old with
      | none => state
      | some inode =>
          { (state.setInode state.next (fresh key true)).setInode old
              { inode with forwarded := some state.next } with
            next := state.next + 1
            owed := Function.update state.owed state.next (some (.inode old)) }

/-- A share with its root. -/
def start (root : Key) : State where
  byIdentity := Function.update (fun _ => none) root (some rootId)
  inodes := Function.update (fun _ => none) rootId (some (fresh root false))
  next := rootId + 1
  identityLock := fun _ => none
  tableLock := fun _ => none
  threads := fun _ => .idle
  named := fun _ => 0
  forgotten := fun _ => 0
  since := fun _ => 0
  owed := fun _ => none

end State
end Lighter.Fs.Registry
