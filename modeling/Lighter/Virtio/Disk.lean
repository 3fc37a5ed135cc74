import Lighter.Lib.Memory

/-!
# The host file behind a block device

Reads, writes, hole punches and flushes of the file, as loops over host calls that may
move less than they were asked to, be interrupted or fail. What the coming host calls
come back with is a list given beforehand; past its end every call does all it was
asked. A call that fails may have changed any of the bytes it was asked to change.

Opening and growing the file, its allocated size and the note of a wait that the
status readout shows are left out. So is the limit on the spans of one call, which a
chain of descriptors does not reach.
-/

namespace Lighter.Virtio

/-- What is to be at each place of a file that is set. -/
def Patch : Type := Nat → Option UInt8

namespace Patch

/-- The content once the patch is carried out. -/
def apply (patch : Patch) (base : Nat → UInt8) : Nat → UInt8 :=
  fun place => (patch place).getD (base place)

/-- The part of a patch at the chosen places. -/
def restrict (chosen : Nat → Bool) (patch : Patch) : Patch :=
  fun place => if chosen place then patch place else none

/-- Consecutive places from an offset on, set to a list of bytes. -/
def span (offset : Nat) (data : List UInt8) : Patch :=
  fun place => if offset ≤ place then data[place - offset]? else none

/-- The places from one to another, the last excluded, set to one byte. -/
def fill (start stop : Nat) (value : UInt8) : Patch :=
  fun place => if start ≤ place ∧ place < stop then some value else none

end Patch

/-- What a host call comes back with. -/
inductive HostResult where
  /-- An error number, and the bytes that had changed by then. -/
  | failed (errno : Nat) (landed : Nat → Bool)
  | moved (count : Nat)

def eintr : Nat := 4
def enospc : Nat := 28

/-- The errors of the file's functions: the host's, and their own. -/
inductive IoError where
  | os (errno : Nat)
  | permissionDenied
  | invalidInput
  | writeZero
  | unexpectedEof
deriving DecidableEq, Repr

def IoError.rawOsError : IoError → Option Nat
  | .os errno => some errno
  | _ => none

/-- A span of somebody's memory. -/
structure Iovec where
  base : Nat
  len : Nat
deriving DecidableEq, Repr

namespace Iovec

/-- The addresses of the spans' bytes, in order. -/
def slots (iovs : List Iovec) : List Nat :=
  iovs.flatMap fun iov => List.range' iov.base iov.len

/-- The spans' bytes, in order. -/
def gather (source : Nat → UInt8) (iovs : List Iovec) : List UInt8 := (slots iovs).map source

def total (iovs : List Iovec) : Nat := (iovs.map Iovec.len).sum

/-- Moves the start of the spans past the first `n` bytes. -/
def advance : List Iovec → Nat → List Iovec
  | [], _ => []
  | iov :: rest, n =>
      if n < iov.len then ⟨iov.base + n, iov.len - n⟩ :: rest else advance rest (n - iov.len)

end Iovec

structure Disk where
  bytes : Nat → UInt8
  len : Nat
  readOnly : Bool
  /-- What the coming host calls come back with. -/
  host : List HostResult

namespace Disk

open Iovec

def sectorSize : Nat := 512

/-- `content` of the file: so many bytes from an offset on. -/
def content (bytes : Nat → UInt8) (offset len : Nat) : List UInt8 :=
  (List.range' offset len).map bytes

def checkRange (disk : Disk) (offset len : Nat) : Bool :=
  offset + len < 2 ^ 64 && offset + len ≤ disk.len

/-- Where a vectored read is: the guest memory it fills, and what is left. -/
structure Reading where
  memory : GuestMemory
  offset : Nat
  iovs : List Iovec
  left : Nat

/-- `preadv` of `n` bytes. -/
def Reading.take (bytes : Nat → UInt8) (reading : Reading) (n : Nat) : Reading where
  memory := { reading.memory with
    bytes := GuestMemory.deposit reading.memory.bytes
      ((slots reading.iovs).zip (content bytes reading.offset n)) }
  offset := reading.offset + n
  iovs := advance reading.iovs n
  left := reading.left - n

/-- The loop of `read_vectored_at`: what is left of the host's results, and the error. -/
def readLoop (bytes : Nat → UInt8) :
    List HostResult → Reading → Reading × List HostResult × Option IoError
  | [], reading =>
      if reading.left = 0 then (reading, [], none)
      else (reading.take bytes reading.left, [], none)
  | result :: host, reading =>
      if reading.left = 0 then (reading, result :: host, none)
      else
        match result with
        | .failed errno _ =>
            if errno = eintr then readLoop bytes host reading
            else (reading, host, some (.os errno))
        | .moved count =>
            if min count reading.left = 0 then (reading, host, some .unexpectedEof)
            else readLoop bytes host (reading.take bytes (min count reading.left))

def readVectoredAt (disk : Disk) (memory : GuestMemory) (offset : Nat) (iovs : List Iovec) :
    Reading × Disk × Option IoError :=
  let reading : Reading := ⟨memory, offset, iovs, total iovs⟩
  if !disk.checkRange offset (total iovs) then (reading, disk, some .invalidInput)
  else
    let (reading, host, error) := readLoop disk.bytes disk.host reading
    (reading, { disk with host := host }, error)

/-- Where a vectored write is. -/
structure Writing where
  bytes : Nat → UInt8
  offset : Nat
  iovs : List Iovec
  left : Nat
  done : Nat

/-- `pwritev` of `n` bytes. -/
def Writing.put (source : Nat → UInt8) (writing : Writing) (n : Nat) : Writing where
  bytes := (Patch.span writing.offset ((gather source writing.iovs).take n)).apply writing.bytes
  offset := writing.offset + n
  iovs := advance writing.iovs n
  left := writing.left - n
  done := writing.done + n

/-- A `pwritev` that failed. -/
def Writing.land (source : Nat → UInt8) (writing : Writing) (landed : Nat → Bool) : Writing :=
  { writing with
    bytes := ((Patch.span writing.offset (gather source writing.iovs)).restrict landed).apply
      writing.bytes }

/-- The loop of `write_vectored_progress`. -/
def writeLoop (source : Nat → UInt8) :
    List HostResult → Writing → Writing × List HostResult × Option IoError
  | [], writing =>
      if writing.left = 0 then (writing, [], none)
      else (writing.put source writing.left, [], none)
  | result :: host, writing =>
      if writing.left = 0 then (writing, result :: host, none)
      else
        match result with
        | .failed errno landed =>
            if errno = eintr then writeLoop source host (writing.land source landed)
            else (writing.land source landed, host, some (.os errno))
        | .moved count =>
            if min count writing.left = 0 then (writing, host, some .writeZero)
            else writeLoop source host (writing.put source (min count writing.left))

/-- What a write that keeps its progress leaves: the file, how far it has come and the
error, if any. -/
structure Progress where
  disk : Disk
  done : Nat
  error : Option IoError

def writeVectoredProgress (disk : Disk) (source : Nat → UInt8) (offset : Nat)
    (iovs : List Iovec) (done : Nat) : Progress :=
  if disk.readOnly then ⟨disk, done, some .permissionDenied⟩
  else if !disk.checkRange offset (total iovs) then ⟨disk, done, some .invalidInput⟩
  else if done > total iovs then ⟨disk, done, some .invalidInput⟩
  else
    let (writing, host, error) := writeLoop source disk.host
      ⟨disk.bytes, offset + done, advance iovs done, total iovs - done, done⟩
    ⟨{ disk with bytes := writing.bytes, host := host }, writing.done, error⟩

/-- A host call that only succeeds or fails. -/
def call (disk : Disk) : Option (Nat × (Nat → Bool)) × List HostResult :=
  match disk.host with
  | [] => (none, [])
  | .failed errno landed :: host => (some (errno, landed), host)
  | .moved _ :: host => (none, host)

/-- Flushes written data to stable storage. -/
def flush (disk : Disk) : Disk × Option IoError :=
  if disk.readOnly then (disk, none)
  else
    match disk.call with
    | (none, host) => ({ disk with host := host }, none)
    | (some (errno, _), host) => ({ disk with host := host }, some (.os errno))

/-- The host punches whole blocks of this size. -/
def blockSize : Nat := 4096

/-- The blocks that lie wholly in a range: from where, to where. -/
def holeStart (offset : Nat) : Nat := (offset + (blockSize - 1)) / blockSize * blockSize

def holeEnd (offset len : Nat) : Nat := (offset + len) / blockSize * blockSize

/-- Deallocates the aligned interior of a range. The edges are kept. -/
def punchHole (disk : Disk) (offset len : Nat) : Disk × Option IoError :=
  if disk.readOnly then (disk, some .permissionDenied)
  else if !disk.checkRange offset len then (disk, some .invalidInput)
  else if holeEnd offset len ≤ holeStart offset then (disk, none)
  else
    let hole : Patch := Patch.fill (holeStart offset) (holeEnd offset len) 0
    match disk.call with
    | (none, host) => ({ disk with bytes := hole.apply disk.bytes, host := host }, none)
    | (some (errno, landed), host) =>
        ({ disk with bytes := (hole.restrict landed).apply disk.bytes, host := host },
          some (.os errno))

/-- Zeroes are written in chunks of this size. -/
def chunk : Nat := 2 ^ 20

/-- The loop of `write_zeroes_progress`. Each turn writes at least a byte or ends, so as
many turns as there are bytes left are enough. -/
def zeroLoop (offset len : Nat) : Nat → Disk → Nat → Progress
  | 0, disk, done => ⟨disk, done, none⟩
  | turns + 1, disk, done =>
      if done < len then
        let wrote := disk.writeVectoredProgress (fun _ => 0) (offset + done)
          [⟨0, min chunk (len - done)⟩] 0
        match wrote.error with
        | some error => ⟨wrote.disk, done + wrote.done, some error⟩
        | none => zeroLoop offset len turns wrote.disk (done + wrote.done)
      else ⟨disk, done, none⟩

/-- Writes zeroes over a range, by a punch if that covers all of it. -/
def writeZeroesProgress (disk : Disk) (offset len : Nat) (mayUnmap : Bool) (done : Nat) :
    Progress :=
  if !disk.checkRange offset len then ⟨disk, done, some .invalidInput⟩
  else if done > len then ⟨disk, done, some .invalidInput⟩
  else if done = 0 && mayUnmap && offset % blockSize = 0 && len % blockSize = 0 then
    match disk.punchHole offset len with
    | (disk, none) => ⟨disk, len, none⟩
    | (disk, some _) => zeroLoop offset len (len - done) disk done
  else zeroLoop offset len (len - done) disk done

end Disk
end Lighter.Virtio
