import GamePack.Disk
import GamePack.Png.Raster
import GamePack.Sprite.Preview

/-!
Bitmaps and previews as PNG files. A sheet must be a picture of palette
indices; where its pixels are packed closer than one to a byte they are
unpacked. Sheets that were loaded are kept by their paths.
-/
namespace GamePack

namespace Bitmap

/-- The index of a pixel in a packed row, most significant bits first. -/
def sample (depth : Nat) (row : Bytes) (x : Nat) : UInt8 :=
  let perByte := 8 / depth
  let byte := (row[x / perByte]?.getD 0).toNat
  UInt8.ofNat (byte >>> (8 - depth * (x % perByte + 1)) % (1 <<< depth))

/-- The indices of a packed row. -/
def unpackRow (depth width : Nat) (row : Bytes) : Bytes :=
  (List.range width).map (sample depth row)

/-- The bitmap of packed rows, when there are as many as its height
needs. -/
def ofPackedRows? (depth width height : Nat) (rows : List Bytes)
    (palette : Option Palette) : Option Bitmap :=
  ofPixels? width height
    ((rows.take height).flatMap (unpackRow depth width)).toArray palette

/-- The failure to decode a PNG. -/
def decodingError (fault : Png.Fault) : Error :=
  .document (.pngDecoding fault.message)

/-- The bitmap of a PNG of palette indices. -/
def decodePng (bytes : Bytes) : Except Error Bitmap := do
  let raster ← (Png.decode bytes).mapError decodingError
  let h := raster.header
  if h.colour ≠ .indexed then
    throw (.value (.mismatch .indexedPng s!"{h.colour.name} bitmap"))
  match ofPackedRows? h.depth h.width h.height raster.rows raster.palette with
  | some bitmap => return bitmap
  | none => throw (decodingError .tooLittleData)

/-- The PNG of a bitmap, eight bits a pixel; a bitmap without a palette
gets the grey ramp. -/
def encodePng (b : Bitmap) : Except Error Bytes :=
  if b.width = 0 ∨ b.height = 0 then
    .error (.document (.pngEncoding "a picture needs pixels"))
  else .ok <| Png.encode {
    header := ⟨b.width, b.height, 8, .indexed, false⟩
    palette := some (b.palette.getD .grey)
    rows := b.rows }

/-- The bitmap of a PNG file. -/
def load (disk : Disk) (path : Path) : Except Error Bitmap :=
  match disk.read path with
  | .error fault =>
    match fault with
    | .isDirectory =>
      .error (.file path (.undecodable IoFault.isDirectory.message))
    | fault => .error (.file path (.system .openBitmap fault))
  | .ok bytes =>
    match decodePng bytes with
    | .error (.document (.pngDecoding detail)) =>
      .error (.file path (.undecodable detail))
    | result => result

end Bitmap

namespace Picture

/-- The samples of a row. -/
def rowBytes (row : List Rgba) : Bytes :=
  row.flatMap fun c => [c.red, c.green, c.blue, c.alpha]

/-- The PNG of a true colour picture. -/
def encodePng (p : Picture) : Bytes :=
  Png.encode {
    header := ⟨p.width, p.height, 8, .rgba, false⟩
    palette := none
    rows := p.rows.map rowBytes }

end Picture

end GamePack
