import GamePack.Bytes
import GamePack.Error

/-!
Indexed bitmaps: a palette index per pixel, row after row, and the
colours of the indices where they are known.
-/
namespace GamePack

/-- A colour of a palette. -/
structure Colour where
  red : UInt8
  green : UInt8
  blue : UInt8
  deriving DecidableEq, Repr, Inhabited

/-- Colours by index. -/
abbrev Palette := List Colour

/-- The palette whose index `i` is the grey of brightness `i`. -/
def Palette.grey : Palette :=
  (List.range 256).map fun i =>
    let b := UInt8.ofNat i
    ⟨b, b, b⟩

/-- A bitmap of palette indices. -/
structure Bitmap where
  width : Nat
  height : Nat
  pixels : Array UInt8
  size_eq : pixels.size = width * height
  palette : Option Palette := none
  deriving DecidableEq, Repr

namespace Bitmap

/-- A bitmap of one index. -/
def filled (width height : Nat) (index : UInt8) : Bitmap :=
  { width, height
    pixels := Array.replicate (width * height) index
    size_eq := by simp }

/-- A bitmap of given pixels, when there are as many as its size
needs. -/
def ofPixels? (width height : Nat) (pixels : Array UInt8)
    (palette : Option Palette) : Option Bitmap :=
  if h : pixels.size = width * height then
    some { width, height, pixels, size_eq := h, palette }
  else none

/-- A bitmap of rows, which must have one length. -/
def ofRows (rows : List Bytes) : Except ValueError Bitmap :=
  let width := (rows.head?.getD []).length
  match ofPixels? width rows.length rows.flatten.toArray none with
  | some bitmap =>
    if rows.all (·.length == width) then .ok bitmap
    else .error (.mismatch .equalRows "bitmap")
  | none => .error (.mismatch .equalRows "bitmap")

/-- The index at a column and a row; callers stay inside the bitmap. -/
def get (b : Bitmap) (x y : Nat) : UInt8 :=
  b.pixels[y * b.width + x]?.getD 0

/-- The bitmap with another index at a place. -/
def set (b : Bitmap) (x y : Nat) (index : UInt8) : Bitmap :=
  { b with
    pixels := b.pixels.setIfInBounds (y * b.width + x) index
    size_eq := by simp [b.size_eq] }

/-- The bitmap with a palette. -/
def withPalette (b : Bitmap) (palette : Palette) : Bitmap :=
  { b with palette := some palette }

/-- The indices of one row. -/
def row (b : Bitmap) (y : Nat) : Bytes :=
  (List.range b.width).map fun x => b.get x y

/-- The rows of a bitmap. -/
def rows (b : Bitmap) : List Bytes := (List.range b.height).map b.row

end Bitmap

end GamePack
