import GamePack.Png.Header

/-!
Frames of animated pictures. A picture may give a frame in front of its
data; then the data holds the pixels of that part of the picture alone.
The chunks of frames and of their data are numbered from zero on.
-/
namespace GamePack.Png

/-- A part of a picture. -/
structure Frame where
  x : Nat
  y : Nat
  width : Nat
  height : Nat
  deriving DecidableEq, Repr

namespace Frame

/-- Whether a frame has pixels and lies inside a picture. -/
def fits (f : Frame) (h : Header) : Bool :=
  0 < f.width && 0 < f.height
    && f.x + f.width ≤ h.width && f.y + f.height ≤ h.height

/-- The number that a chunk of an animation starts with. -/
def number (data : Bytes) : Nat := ofBE (data.take 4)

/-- Whether a chunk may have a number, given that of the chunk before
it. -/
def follows (last : Option Nat) (number : Nat) : Bool :=
  number == (match last with
    | none => 0
    | some last => last + 1)

/-- The part of a picture that the data of a chunk gives. Behind it stand
how long the frame is shown, and how it replaces the one before. -/
def ofData? (h : Header) (data : Bytes) : Option Frame :=
  let word (i : Nat) := ofBE ((data.drop i).take 4)
  let frame : Frame := ⟨word 12, word 16, word 4, word 8⟩
  match data[24]?, data[25]? with
  | some disposal, some blend =>
    if disposal ≤ 2 && blend ≤ 1 && frame.fits h then some frame else none
  | _, _ => none

end Frame

end GamePack.Png
