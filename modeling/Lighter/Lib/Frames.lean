import Mathlib.Data.List.Basic

/-!
# Frames in a byte stream

Frames stand back to back: a header of fixed length that says how long the payload after it
is. A stream has one way of being taken apart into whole frames and the incomplete one at
its end, so it does not matter in which pieces it arrives.
-/

namespace Lighter.Frames

open List

/-- How long a header is, and what it says. -/
structure Framing where
  header : Nat
  size : List UInt8 → Nat
  positive : 0 < header

structure Frame where
  header : List UInt8
  payload : List UInt8
deriving DecidableEq, Repr

namespace Frame

def bytes (frame : Frame) : List UInt8 := frame.header ++ frame.payload

/-- The header is whole and the payload as long as it says. -/
structure Fits (framing : Framing) (frame : Frame) : Prop where
  header : frame.header.length = framing.header
  payload : frame.payload.length = framing.size frame.header

end Frame

variable (framing : Framing)

/-- A whole frame stands at the start of these bytes. -/
def Complete (bytes : List UInt8) : Prop :=
  framing.header ≤ bytes.length ∧
    framing.size (bytes.take framing.header) ≤ bytes.length - framing.header

/-- A stream taken apart. -/
structure Parsed (stream : List UInt8) (frames : List Frame) (rest : List UInt8) : Prop where
  parts : stream = frames.flatMap Frame.bytes ++ rest
  fits : ∀ frame ∈ frames, frame.Fits framing
  incomplete : ¬ Complete framing rest

variable {framing} {rest left : List UInt8} {frames : List Frame}

theorem Parsed.nil (incomplete : ¬ Complete framing rest) :
    Parsed framing rest [] rest := ⟨rfl, by simp, incomplete⟩

theorem Parsed.cons {frame : Frame} (fits : frame.Fits framing) {stream : List UInt8}
    (parsed : Parsed framing stream frames rest) :
    Parsed framing (frame.bytes ++ stream) (frame :: frames) rest := by
  refine ⟨?_, ?_, parsed.incomplete⟩
  · rw [flatMap_cons, append_assoc, ← parsed.parts]
  intro other inside
  rcases mem_cons.mp inside with rfl | later
  · exact fits
  · exact parsed.fits other later

/-- More of the stream arrives behind what was left. -/
theorem Parsed.append {first second : List UInt8} {more : List Frame}
    (before : Parsed framing first frames rest)
    (after : Parsed framing (rest ++ second) more left) :
    Parsed framing (first ++ second) (frames ++ more) left := by
  refine ⟨?_, ?_, after.incomplete⟩
  · rw [before.parts, append_assoc, after.parts, flatMap_append, append_assoc]
  intro frame inside
  rcases mem_append.mp inside with prior | later
  · exact before.fits frame prior
  · exact after.fits frame later

/-- Bytes that begin with a frame that fits are complete. -/
theorem Frame.Fits.complete {frame : Frame} (fits : frame.Fits framing) (rest : List UInt8) :
    Complete framing (frame.bytes ++ rest) := by
  have header : (frame.bytes ++ rest).take framing.header = frame.header := by
    rw [Frame.bytes, append_assoc, ← fits.header, take_left]
  constructor
  · rw [Frame.bytes, append_assoc, length_append, fits.header]
    exact Nat.le_add_right _ _
  · rw [header, ← fits.payload, Frame.bytes, append_assoc, length_append,
      length_append, fits.header]
    omega

/-- Two frames that fit at the start of the same bytes are the same. -/
theorem Frame.Fits.unique {first second : Frame} (fits : first.Fits framing)
    (other : second.Fits framing) (same : first.bytes ++ rest = second.bytes ++ left) :
    first = second ∧ rest = left := by
  obtain ⟨header, payload⟩ := first
  obtain ⟨header', payload'⟩ := second
  simp only [Frame.bytes, append_assoc] at same
  obtain ⟨rfl, after⟩ := append_inj same (fits.header.trans other.header.symm)
  obtain ⟨rfl, rfl⟩ := append_inj after (fits.payload.trans other.payload.symm)
  exact ⟨rfl, rfl⟩

/-- There is one way of taking a stream apart. -/
theorem Parsed.unique {stream : List UInt8} {others : List Frame}
    (parsed : Parsed framing stream frames rest) (again : Parsed framing stream others left) :
    frames = others ∧ rest = left := by
  induction frames generalizing stream others with
  | nil =>
    cases others with
    | nil => exact ⟨rfl, parsed.parts.symm.trans again.parts⟩
    | cons second more =>
      have whole : rest = second.bytes ++ (more.flatMap Frame.bytes ++ left) := by
        rw [← append_assoc, ← flatMap_cons, ← again.parts, parsed.parts]
        rfl
      refine absurd ?_ parsed.incomplete
      rw [whole]
      exact (again.fits second mem_cons_self).complete _
  | cons first frames ih =>
    have tail : Parsed framing (frames.flatMap Frame.bytes ++ rest) frames rest :=
      ⟨rfl, fun frame inside => parsed.fits frame (mem_cons_of_mem _ inside), parsed.incomplete⟩
    have start := parsed.parts
    rw [flatMap_cons, append_assoc] at start
    have fits := parsed.fits first mem_cons_self
    cases others with
    | nil =>
      have whole : left = first.bytes ++ (frames.flatMap Frame.bytes ++ rest) :=
        again.parts.symm.trans start
      refine absurd ?_ again.incomplete
      rw [whole]
      exact fits.complete _
    | cons second more =>
      have other := again.parts
      rw [flatMap_cons, append_assoc] at other
      obtain ⟨rfl, same⟩ := fits.unique (again.fits second mem_cons_self) (start.symm.trans other)
      obtain ⟨rfl, rfl⟩ := ih tail
        ⟨same, fun frame inside => again.fits frame (mem_cons_of_mem _ inside), again.incomplete⟩
      exact ⟨rfl, rfl⟩

end Lighter.Frames
