import GamePack.Sprite.Bitmap

/-!
Rectangles of a bitmap and the cropping of their transparent edges. A
region also says how far its top left corner lies from the reference
point of the sprite; cropping on the left or at the top moves the corner
and that distance together, so every opaque pixel keeps its place
relative to the reference point.

Sizes and offsets are read as unbounded numbers here. `fitsWords` says
when the offsets fit the 32 bit words that a sprite holds.
-/
namespace GamePack.Sprite

/-- A rectangle of a bitmap with the place of its corner. -/
structure Region where
  x : Nat
  y : Nat
  width : Nat
  height : Nat
  /-- From the reference point to the left edge. -/
  xOffset : Int := 0
  /-- From the reference point to the top edge. -/
  yOffset : Int := 0
  deriving DecidableEq, Repr

namespace Region

/-- Whether a region has no pixels. -/
def isEmpty (r : Region) : Bool := r.width == 0 || r.height == 0

/-- Whether a region lies inside a bitmap. -/
def isInside (r : Region) (b : Bitmap) : Bool :=
  r.x + r.width ≤ b.width && r.y + r.height ≤ b.height

/-- Refuses a region that does not lie inside the bitmap. -/
def checkBounds (r : Region) (b : Bitmap) : Except ValueError Unit :=
  if r.isInside b then .ok ()
  else .error (.regionOutOfBounds r.x r.y r.width r.height b.width b.height)

/-- Whether a number fits a signed 32 bit word. -/
def fitsWord (v : Int) : Bool := -0x80000000 ≤ v && v < 0x80000000

/-- Whether both offsets fit signed 32 bit words. -/
def fitsWords (r : Region) : Bool := fitsWord r.xOffset && fitsWord r.yOffset

-- ========================================================== cropping

/-- How many numbers from `start` on, of `count` at most, have a
property before the first that has not. -/
def leading (p : Nat → Bool) (start : Nat) : Nat → Nat
  | 0 => 0
  | count + 1 => if p start then leading p (start + 1) count + 1 else 0

/-- How many numbers below `start + count`, going down and not below
`start`, have a property before the first that has not. -/
def trailing (p : Nat → Bool) (start : Nat) : Nat → Nat
  | 0 => 0
  | count + 1 => if p (start + count) then trailing p start count + 1 else 0

/-- Whether a column of the region is transparent throughout. -/
def columnClear (r : Region) (b : Bitmap) (transparent : UInt8)
    (x : Nat) : Bool :=
  (List.range' r.y r.height).all fun y => b.get x y == transparent

/-- Whether a row of the region is transparent throughout. -/
def rowClear (r : Region) (b : Bitmap) (transparent : UInt8)
    (y : Nat) : Bool :=
  (List.range' r.x r.width).all fun x => b.get x y == transparent

/-- The region without its transparent columns on the left. -/
def cropLeft (r : Region) (b : Bitmap) (transparent : UInt8) : Region :=
  if r.isEmpty then r
  else
    let n := leading (r.columnClear b transparent) r.x r.width
    { r with x := r.x + n, width := r.width - n, xOffset := r.xOffset + n }

/-- The region without its transparent rows at the top. -/
def cropTop (r : Region) (b : Bitmap) (transparent : UInt8) : Region :=
  if r.isEmpty then r
  else
    let n := leading (r.rowClear b transparent) r.y r.height
    { r with y := r.y + n, height := r.height - n, yOffset := r.yOffset + n }

/-- The region without its transparent columns on the right. -/
def cropRight (r : Region) (b : Bitmap) (transparent : UInt8) : Region :=
  if r.isEmpty then r
  else
    let n := trailing (r.columnClear b transparent) r.x r.width
    { r with width := r.width - n }

/-- The region without its transparent rows at the bottom. -/
def cropBottom (r : Region) (b : Bitmap) (transparent : UInt8) : Region :=
  if r.isEmpty then r
  else
    let n := trailing (r.rowClear b transparent) r.y r.height
    { r with height := r.height - n }

/-- The region without its transparent edges, taken off left, top, right
and bottom in turn. -/
def crop (r : Region) (b : Bitmap) (transparent : UInt8) : Region :=
  (((r.cropLeft b transparent).cropTop b transparent).cropRight b
    transparent).cropBottom b transparent

/-- The indices of one row of a region. -/
def rowOf (r : Region) (b : Bitmap) (y : Nat) : Bytes :=
  (List.range' r.x r.width).map fun x => b.get x y

end Region

end GamePack.Sprite
