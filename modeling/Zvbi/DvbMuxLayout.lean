import Mathlib.Data.List.Basic
import Zvbi.DvbMux

/-!
# Where the lines of a frame find room

The lines in the service mask are laid end to end in a packet. Each needs so many
bytes, and is coded if it is legal and there is still room. This depends only on
the frame, on the room in the packet, and on the number of samples left of an
unfinished raw line. The multiplexer codes the lines in spans between the raw
lines. It stops where the layout ends: at the end of the frame, at a line which is
not legal, or at a line which does not fit. Before that it verifies the order of
the lines up to the next raw line.
-/

namespace DvbMuxLayout
open DvbMuxUnits DvbMux
open DvbFrame (Sliced)

def lastOf : Nat → List Sliced → Nat
  | last, [] => last
  | last, s :: us => lastOf (if 0 < s.line then s.line else last) us

theorem lastOf_append (last : Nat) (us vs : List Sliced) :
    lastOf last (us ++ vs) = lastOf (lastOf last us) vs := by
  induction us generalizing last with
  | nil => rfl
  | cons s us ih => exact ih _

structure Place where
  room : Nat
  pending : Nat

def fieldLine (line : Nat) : Nat := if 313 ≤ line then line - 313 else line

/-- A line which is legal for its service. The samples of a raw line must be in the
image, or left of an unfinished line. -/
def codable (f : FrameData) (pending : Nat) (s : Sliced) : Bool :=
  if s.id = vbiSlicedVbi625 then
    (0 < pending || (samplesPointer f.raw f.sp s.line).isOk) &&
      (7 ≤ fieldLine s.line && fieldLine s.line ≤ 23)
  else
    (service s.id).any fun v => v.legal s.line

def sampleCount (f : FrameData) (pending : Nat) : Nat :=
  if pending = 0 then f.sp.elim 0 fun sp => sp.bytesPerLine.toNat else pending

def lineSize (fixedLength : Bool) (f : FrameData) (pending : Nat) (s : Sliced) : Nat :=
  if s.id = vbiSlicedVbi625 then rawSize fixedLength (sampleCount f pending)
  else (service s.id).elim 0 fun v => v.size fixedLength

def Fits (fixedLength : Bool) (f : FrameData) (c : Place) (s : Sliced) : Prop :=
  if s.id = vbiSlicedVbi625 then RawFits fixedLength c.room (sampleCount f c.pending)
  else lineSize fixedLength f c.pending s ≤ c.room

instance (fixedLength : Bool) (f : FrameData) (c : Place) (s : Sliced) :
    Decidable (Fits fixedLength f c s) :=
  inferInstanceAs (Decidable (if s.id = vbiSlicedVbi625 then
    RawFits fixedLength c.room (sampleCount f c.pending)
    else lineSize fixedLength f c.pending s ≤ c.room))

def place (fixedLength : Bool) (f : FrameData) (c : Place) (s : Sliced) : Option Place :=
  if s.id &&& f.serviceMask = 0 then some c
  else if codable f c.pending s = true ∧ Fits fixedLength f c s then
    some ⟨c.room - lineSize fixedLength f c.pending s,
      if s.id = vbiSlicedVbi625 then 0 else c.pending⟩
  else none

def layOut (fixedLength : Bool) (f : FrameData) (c : Place) (us : List Sliced) : Option Place :=
  us.foldlM (place fixedLength f) c

variable {fixedLength : Bool} {f : FrameData}

theorem layOut_cons (c : Place) (s : Sliced) (us : List Sliced) :
    layOut fixedLength f c (s :: us) =
      (place fixedLength f c s).bind fun c => layOut fixedLength f c us :=
  List.foldlM_cons

theorem place_skip {s : Sliced} (h : s.id &&& f.serviceMask = 0) (c : Place) :
    place fixedLength f c s = some c := if_pos h

end DvbMuxLayout
