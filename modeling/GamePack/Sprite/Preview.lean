import GamePack.Sprite.Image

/-!
Previews: sprites as true colour pictures. Each pixel becomes a square
of the scale's size, in the colour of its index, or fully transparent.
-/
namespace GamePack

/-- A colour with its opacity. -/
structure Rgba where
  red : UInt8
  green : UInt8
  blue : UInt8
  alpha : UInt8
  deriving DecidableEq, Repr, Inhabited

/-- A true colour picture. -/
structure Picture where
  width : Nat
  height : Nat
  /-- The rows from the top; a picture without columns has none. -/
  rows : List (List Rgba)
  deriving DecidableEq, Repr

namespace Palette

/-- The colour of an index; indices past the end are magenta. -/
def colour (palette : Palette) (index : UInt8) : Colour :=
  palette[index.toNat]?.getD ⟨255, 0, 255⟩

end Palette

namespace SpriteImage

/-- How an index looks in a preview. -/
def shade (palette : Palette) (transparent index : UInt8) : Rgba :=
  if index = transparent then ⟨0, 0, 0, 0⟩
  else
    let c := palette.colour index
    ⟨c.red, c.green, c.blue, 255⟩

/-- Each item of a row as many times as the scale says. -/
def stretch {α : Type} (scale : Nat) (items : List α) : List α :=
  items.flatMap fun item => List.replicate scale item

/-- The preview of a sprite; a scale of zero counts as one. The sides of
the picture are products of 32 bit words. -/
def render (image : SpriteImage) (palette : Palette)
    (transparent : UInt8) (scale : Nat) : Except Error Picture := do
  let scale := max scale 1
  let rows ← (image.pixelRows transparent).mapError .read
  if 0x100000000 ≤ image.width * scale ∨
      0x100000000 ≤ image.height * scale then
    throw (.panic "preview size")
  return {
    width := image.width * scale
    height := image.height * scale
    rows := if image.width = 0 then [] else
      stretch scale (rows.map fun row =>
        stretch scale (row.map (shade palette transparent))) }

end SpriteImage

end GamePack
