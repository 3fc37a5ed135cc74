import Lighter.Lib.Transition

/-!
# The descriptor of an inode

An inode is bound to a file of the host. Its descriptor is closed when the inode is parked, and the
file is found again when it is needed: by its name beneath the nearest ancestor that holds a
descriptor, by the path it was parked at, or by its numbers. Only the last door looks at the birth
time.

What happens to the host is what its doors answer, during each call anew. On the volumes considered
here a file is known by its numbers and its birth time together.
-/

namespace Lighter.Fs.Slot

open Transition

structure File where
  dev : Int
  ino : Nat
  birth : Int × Int
deriving DecidableEq

/-- Where a parked file was; no path is its identity path, `/.vol/dev/ino`. -/
structure Parked where
  path : Option (List UInt8)
  birthtime : Int × Int

/-- What the host answers during one call. -/
structure Host where
  /-- The name beneath the nearest ancestor that holds a descriptor, if there is one. -/
  beneath : Option (Except Int File)
  opens : Option (List UInt8) → Except Int File
  /-- The link count `fstat` reads, if it can. -/
  nlink : File → Option Nat
  pathOf : File → Option (List UInt8)
  /-- What `fstatat` finds at the inode's place, with its link count. -/
  place : Option (File × Nat)
  /-- The network volume has room for a descriptor. -/
  room : Bool

def emfile : Int := 24
def enfile : Int := 23
def eagain : Int := 11
def estale : Int := 116

structure Inode where
  dev : Int
  ino : Nat
  isDir : Bool
  remote : Bool
  fd : Option File
  parkedAt : Option Parked

namespace Inode

def bind (inode : Inode) (file : File) : Inode :=
  { inode with dev := file.dev, ino := file.ino, fd := some file }

def bindParked (inode : Inode) (file : File) : Inode :=
  { inode with dev := file.dev, ino := file.ino, parkedAt := some ⟨none, file.birth⟩ }

def mayHold (inode : Inode) (host : Host) : Bool := inode.isDir && (!inode.remote || host.room)

def refuses (inode : Inode) (errno : Int) : Bool :=
  (inode.remote && (errno = emfile || errno = enfile || errno = eagain)) || errno = enfile

/-- The opened file can be looked at and has the inode's numbers. -/
def numbered (inode : Inode) (host : Host) (file : File) : Bool :=
  (host.nlink file).isSome && file.ino = inode.ino && file.dev = inode.dev

/-- A door that is a name: what it answers, unless the next one is tried. -/
def byName (inode : Inode) (host : Host) : Except Int File → Option (Except Int File)
  | .ok file => if inode.numbered host file then some (.ok file) else none
  | .error errno => if inode.refuses errno then some (.error errno) else none

/-- The two doors that are names, in order. -/
def named (inode : Inode) (host : Host) (parked : Parked) : Option (Except Int File) :=
  (host.beneath.bind (inode.byName host)).or (inode.byName host (host.opens parked.path))

def reopen (inode : Inode) (host : Host) (parked : Parked) : Except Int File :=
  match inode.named host parked, host.opens none with
  | some answer, _ => answer
  | none, .error errno => .error (if errno = enfile then errno else estale)
  | none, .ok file =>
      if inode.numbered host file && file.birth = parked.birthtime then .ok file else .error estale

/-- The descriptor in the slot, or else the file opened again, which fills the slot or not. -/
def descriptor (inode : Inode) (host : Host) (keep : Bool) : Except Int File × Inode :=
  match inode.fd, inode.parkedAt with
  | some file, _ => (.ok file, inode)
  | none, none => (.error estale, inode)
  | none, some parked =>
      match inode.reopen host parked with
      | .error errno => (.error errno, inode)
      | .ok file => (.ok file, if keep then { inode with fd := some file } else inode)

def park (inode : Inode) (host : Host) : Inode :=
  match inode.fd with
  | none => inode
  | some file =>
      match host.nlink file, host.pathOf file with
      | some (_ + 1), some path =>
          { inode with fd := none, parkedAt := some ⟨some path, file.birth⟩ }
      | _, _ => inode

/-- The parked file is at its place still. -/
def placed (inode : Inode) (host : Host) (dev : Int) (ino : Nat) : Bool :=
  match inode.fd, host.place, inode.parkedAt with
  | none, some (file, nlink), some parked =>
      0 < nlink && file.ino = ino && file.dev = dev && file.birth = parked.birthtime
  | _, _, _ => false

end Inode

/-- The calls on an inode. -/
inductive Act where
  | reference (host : Host)
  | promote (host : Host)
  | stillIs (host : Host) (dev : Int) (ino : Nat)
  | park (host : Host)

namespace Inode

/-- Whether a call asks for a descriptor, of which host, and whether the slot would keep it. -/
def asks (inode : Inode) : Act → Option (Host × Bool)
  | .reference host => some (host, inode.mayHold host)
  | .promote host => if inode.mayHold host && inode.fd.isNone then some (host, true) else none
  | .stillIs host dev ino =>
      if inode.placed host dev ino then none else some (host, inode.mayHold host)
  | .park _ => none

def step (inode : Inode) (act : Act) : Inode :=
  match act, inode.asks act with
  | .park host, _ => inode.park host
  | _, none => inode
  | _, some (host, keep) => (inode.descriptor host keep).2

/-- The call yields a descriptor of the file. -/
def Yields (inode : Inode) (act : Act) (file : File) : Prop :=
  ∃ host keep, inode.asks act = some (host, keep) ∧ (inode.descriptor host keep).1 = .ok file

/-- An inode as it is registered, with a descriptor or born parked. -/
def bound (isDir remote parked : Bool) (file : File) : Inode :=
  let inode : Inode := ⟨0, 0, isDir, remote, none, none⟩
  if parked then inode.bindParked file else inode.bind file

end Inode

/-- What is known of the file, in the slot or beside it, is of the bound one. -/
structure Sound (file : File) (inode : Inode) : Prop where
  dev : inode.dev = file.dev
  ino : inode.ino = file.ino
  held : ∀ other, inode.fd = some other → other = file
  parked : ∀ parked, inode.parkedAt = some parked → parked.birthtime = file.birth

/-- A call that opens the file again comes to no other through a name: what a name leads to under
the bound numbers was born when the bound file was. -/
def Told (file : File) (inode : Inode) (act : Act) : Prop :=
  ∀ host keep parked other, inode.asks act = some (host, keep) → inode.fd = none →
    inode.parkedAt = some parked → inode.named host parked = some (.ok other) →
      other.birth = file.birth

namespace Inode

variable {inode : Inode} {host : Host} {parked : Parked} {other : File} {keep : Bool}

theorem named_numbered (answer : inode.named host parked = some (.ok other)) :
    inode.numbered host other := by
  have door : ∀ answer, inode.byName host answer = some (.ok other) →
      inode.numbered host other := by
    intro answer
    cases answer with
    | ok file =>
      simp only [byName, Option.ite_none_right_eq_some, Option.some.injEq, Except.ok.injEq]
      rintro ⟨numbered, rfl⟩
      exact numbered
    | error errno => simp [byName]
  rcases Option.or_eq_some_iff.mp answer with first | ⟨_, second⟩
  · obtain ⟨answer, _, same⟩ := Option.bind_eq_some_iff.mp first
    exact door answer same
  · exact door _ second

/-- Whatever door it is, the file has the numbers, and its birth time if no name led to it. -/
theorem reopen_ok (answer : inode.reopen host parked = .ok other) :
    inode.numbered host other ∧
      (inode.named host parked = some (.ok other) ∨ other.birth = parked.birthtime) := by
  unfold reopen at answer
  split at answer
  · rename_i named
    rw [answer] at named
    exact ⟨named_numbered named, Or.inl named⟩
  · cases answer
  split at answer
  · rename_i checked
    rw [Bool.and_eq_true, decide_eq_true_eq] at checked
    cases answer
    exact ⟨checked.1, Or.inr checked.2⟩
  · cases answer

/-- A descriptor is the one in the slot or one of the file opened again. -/
theorem descriptor_ok (result : (inode.descriptor host keep).1 = .ok other) :
    inode.fd = some other ∨ ∃ parked, inode.fd = none ∧ inode.parkedAt = some parked ∧
      inode.reopen host parked = .ok other := by
  unfold descriptor at result
  split at result
  · rename_i held
    cases result
    exact Or.inl held
  · cases result
  rename_i empty place
  split at result
  · cases result
  · rename_i opened
    cases result
    exact Or.inr ⟨_, empty, place, opened⟩

theorem descriptor_leaves (inode : Inode) (host : Host) (keep : Bool) :
    (inode.descriptor host keep).2 = inode ∨ ∃ other, (inode.descriptor host keep).1 = .ok other ∧
      (inode.descriptor host keep).2 = { inode with fd := some other } := by
  unfold descriptor
  split
  · exact Or.inl rfl
  · exact Or.inl rfl
  split
  · exact Or.inl rfl
  · cases keep with
    | false => exact Or.inl rfl
    | true => exact Or.inr ⟨_, rfl, rfl⟩

end Inode

namespace Sound

variable {inode : Inode} {host : Host} {act : Act} {file other : File} (sound : Sound file inode)
include sound

theorem eq_of_birth (numbered : inode.numbered host other)
    (born : other.birth = file.birth) : other = file := by
  simp only [Inode.numbered, Bool.and_eq_true, decide_eq_true_eq] at numbered
  obtain ⟨⟨_, ino⟩, dev⟩ := numbered
  cases file
  cases other
  simp_all [sound.ino, sound.dev]

/-- A call yields only the bound file exactly if it is told. -/
theorem yields_iff (act : Act) :
    (∀ other, inode.Yields act other → other = file) ↔ Told file inode act := by
  constructor
  · intro lawful host keep parked other asked empty place named
    rw [lawful other ⟨host, keep, asked, ?_⟩]
    simp [Inode.descriptor, empty, place, Inode.reopen, named]
  rintro told other ⟨host, keep, asked, result⟩
  rcases Inode.descriptor_ok result with held | ⟨parked, empty, place, opened⟩
  · exact sound.held other held
  · obtain ⟨numbered, named | born⟩ := Inode.reopen_ok opened
    · exact sound.eq_of_birth numbered (told _ _ _ _ asked empty place named)
    · exact sound.eq_of_birth numbered (born.trans (sound.parked _ place))

theorem park : Sound file (inode.park host) := by
  unfold Inode.park
  split
  · exact sound
  rename_i other held
  obtain rfl := sound.held other held
  split
  · refine { sound with held := nofun, parked := fun parked same => ?_ }
    cases same
    rfl
  · exact sound

theorem step
    (lawful : ∀ other, inode.Yields act other → other = file) : Sound file (inode.step act) := by
  unfold Inode.step
  split
  · exact sound.park
  · exact sound
  rename_i host keep _ asked
  rcases inode.descriptor_leaves host keep with same | ⟨other, result, same⟩
  · rw [same]
    exact sound
  obtain rfl := lawful other ⟨host, keep, asked, result⟩
  rw [same]
  refine { sound with held := fun another held => ?_ }
  cases held
  rfl

end Sound

/-- In every run of calls on an inode that was bound to a file, whatever becomes of the host, each
descriptor yielded is of that file exactly if every call that opens it again is told. -/
theorem yields_bound_iff (isDir remote parked : Bool) (file : File) (acts : List Act) :
    (∀ earlier act, earlier ++ [act] <+: acts → ∀ other,
        (run Inode.step (Inode.bound isDir remote parked file) earlier).Yields act other →
          other = file) ↔
      Legal (Told file) Inode.step (Inode.bound isDir remote parked file) acts := by
  refine each_step_iff _ _ (fun _ _ => True) (Sound file) (fun inode act => ∀ other,
    inode.Yields act other → other = file) (fun inode act _ sound => sound.yields_iff act)
    (fun inode act sound => sound.step) _ acts (legal_of_all _ fun _ _ => trivial) ?_
  cases parked with
  | false =>
    refine ⟨rfl, rfl, fun other held => ?_, nofun⟩
    cases held
    rfl
  | true =>
    refine ⟨rfl, rfl, nofun, fun other place => ?_⟩
    cases place
    rfl

namespace Reused

/-- The host answers every name with one file. -/
def host (file : File) : Host :=
  ⟨none, fun _ => .ok file, fun _ => some 1, fun _ => some [97], none, true⟩

def old : File := ⟨1, 7, (10, 0)⟩

/-- The name and the number have been given to a file born later. -/
def new : File := ⟨1, 7, (20, 0)⟩

def parked : Inode := run Inode.step (Inode.bound true false false old) [.park (host old)]

theorem new_file_taken : parked.Yields (.reference (host new)) new ∧ new ≠ old :=
  ⟨⟨host new, true, rfl, rfl⟩, by decide⟩

/-- A file that kept its name is found again. -/
theorem yields_bound_iff_kept : ¬ parked.Yields (.reference (host old)) new := by
  have legal : Legal (Told old) Inode.step (Inode.bound true false false old)
      [.park (host old), .reference (host old)] := by
    refine ⟨fun _ _ _ _ asked => ?_, fun _ _ _ _ asked _ _ named => ?_, trivial⟩
    · cases asked
    · cases asked
      cases named
      rfl
  intro yields
  have same :=
    (yields_bound_iff _ _ _ _ _).mpr legal [.park (host old)] _ List.prefix_rfl new yields
  exact absurd same (by decide)

end Reused

end Lighter.Fs.Slot
