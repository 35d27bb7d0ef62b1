import GamePack.Png.Chunk

/-!
The header of a PNG: the size of the picture and the layout of its
pixels.
-/
namespace GamePack.Png

/-- What the samples of a pixel are. -/
inductive ColourType where
  | grey
  | rgb
  | indexed
  | greyAlpha
  | rgba
  deriving DecidableEq, Repr

namespace ColourType

/-- The number that stands for a colour type in the header. -/
def code : ColourType → Nat
  | grey => 0
  | rgb => 2
  | indexed => 3
  | greyAlpha => 4
  | rgba => 6

/-- All colour types. -/
def all : List ColourType := [grey, rgb, indexed, greyAlpha, rgba]

/-- Samples a pixel. -/
def channels : ColourType → Nat
  | grey | indexed => 1
  | greyAlpha => 2
  | rgb => 3
  | rgba => 4

/-- The depths that a colour type allows. -/
def depths : ColourType → List Nat
  | grey => [1, 2, 4, 8, 16]
  | indexed => [1, 2, 4, 8]
  | rgb | greyAlpha | rgba => [8, 16]

/-- The name of a colour type, as messages show it. -/
def name : ColourType → String
  | grey => "Grayscale"
  | rgb => "Rgb"
  | indexed => "Indexed"
  | greyAlpha => "GrayscaleAlpha"
  | rgba => "Rgba"

end ColourType

/-- The size of a picture and the layout of its pixels. -/
structure Header where
  width : Nat
  height : Nat
  /-- Bits a sample. -/
  depth : Nat
  colour : ColourType
  interlaced : Bool
  deriving DecidableEq, Repr

namespace Header

/-- Bits a pixel. -/
def pixelBits (h : Header) : Nat := h.depth * h.colour.channels

/-- Bytes of a row of some pixels. -/
def rowBytes (h : Header) (width : Nat) : Nat :=
  (width * h.pixelBits + 7) / 8

/-- The header that the data of its chunk holds; what follows is left
alone. -/
def ofData? (data : Bytes) : Option Header := do
  let width := ofBE (data.take 4)
  let height := ofBE ((data.drop 4).take 4)
  match ((data.drop 8).take 5).map UInt8.toNat with
  | [depth, code, 0, 0, interlace] =>
    let colour ← ColourType.all.find? (·.code == code)
    if width = 0 ∨ height = 0 ∨ depth ∉ colour.depths ∨ 1 < interlace then
      none
    else some ⟨width, height, depth, colour, interlace == 1⟩
  | _ => none

/-- The data of the chunk of a header. -/
def data (h : Header) : Bytes :=
  beBytes 4 h.width ++ beBytes 4 h.height ++
    [UInt8.ofNat h.depth, UInt8.ofNat h.colour.code, 0, 0,
      if h.interlaced then 1 else 0]

end Header

end GamePack.Png
