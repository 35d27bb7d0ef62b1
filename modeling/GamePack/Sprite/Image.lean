import GamePack.Block
import GamePack.Sprite.Region
import GamePack.Sprite.Scanline

/-!
Encoded sprites: the code of each line of a region, with its size and
its place relative to the reference point. A sprite is stored as a block
whose payload can be read back, and its lines can be painted again.
-/
namespace GamePack

/-- What to store for a region without opaque pixels. -/
inductive EmptySprite where
  /-- No block; the reference is zero. -/
  | omitted
  /-- An uncropped sprite whose lines have no data. -/
  | blank
  deriving DecidableEq, Repr, Inhabited

namespace EmptySprite

/-- The word for a mode. -/
def text : EmptySprite → String
  | omitted => "omit"
  | blank => "blank"

/-- The mode of a word. -/
def ofText? : String → Option EmptySprite
  | "omit" => some omitted
  | "blank" => some blank
  | _ => none

end EmptySprite

/-- The palette index that is transparent unless another is given. -/
def defaultTransparent : UInt8 := 0

/-- The version of sprite blocks. -/
def spriteVersion : Nat := 2

/-- An encoded sprite. -/
structure SpriteImage where
  width : Nat
  height : Nat
  xOffset : Int
  yOffset : Int
  lines : ImageLines
  deriving DecidableEq, Repr

namespace SpriteImage

open Sprite

-- ========================================================== encoding

/-- The code of a row; a row without opaque pixels has none. -/
def encodeRow (transparent : UInt8) (row : Bytes) : Option Bytes :=
  let runs := scanLine row transparent
  if runs.isEmpty then none else some (encodeLine runs)

/-- The codes of the rows of a region. -/
def encodeRows (b : Bitmap) (r : Region) (transparent : UInt8) :
    ImageLines :=
  (List.range' r.y r.height).map fun y =>
    encodeRow transparent (r.rowOf b y)

/-- The sprite of a region, cropped first when asked for. A region
without opaque pixels gives no sprite, or an uncropped one without line
data. Cropping moves the offsets in 32 bit words. -/
def encode (b : Bitmap) (r : Region) (crop : Bool) (transparent : UInt8)
    (empty : EmptySprite) : Except Error (Option SpriteImage) := do
  (r.checkBounds b).mapError .value
  let cropped := if crop then r.crop b transparent else r
  if !cropped.fitsWords then throw (.panic "sprite offset")
  let lines := encodeRows b cropped transparent
  if lines.all Option.isNone then
    match empty with
    | .omitted => return none
    | .blank =>
      return some ⟨r.width, r.height, r.xOffset, r.yOffset,
        List.replicate r.height none⟩
  else
    return some ⟨cropped.width, cropped.height, cropped.xOffset,
      cropped.yOffset, lines⟩

/-- Whether no line has data. -/
def isBlank (image : SpriteImage) : Bool := image.lines.all Option.isNone

/-- The fields of a sprite block. -/
def blockFields : List (String × DataType) :=
  [("width", .numeric .uint16), ("height", .numeric .uint16),
    ("x_offset", .numeric .int16), ("y_offset", .numeric .int16),
    ("image_data", .imageData)]

/-- The block of a sprite, whose sizes and offsets must fit the file
format. -/
def toBlock (image : SpriteImage) : Except Error Block := do
  let _ ← (Numeric.uint16.check image.width).mapError .value
  let _ ← (Numeric.uint16.check image.height).mapError .value
  let _ ← (Numeric.int16.check image.xOffset).mapError .value
  let _ ← (Numeric.int16.check image.yOffset).mapError .value
  return {
    magic := .sprite, version := spriteVersion, fields := blockFields
    values := .ofList [("width", .int image.width),
      ("height", .int image.height), ("x_offset", .int image.xOffset),
      ("y_offset", .int image.yOffset), ("image_data", .image image.lines)] }

-- ========================================================== decoding

/-- A word of a width from the front of a payload. -/
def readWord (width : Nat) (bytes : Bytes) :
    Except ReadError (Nat × Bytes) :=
  match readLE width bytes with
  | some result => .ok result
  | none => .error .endOfBytes

/-- A number of line offsets from the front of a payload. -/
def readOffsets : Nat → Bytes → Except ReadError (List Nat)
  | 0, _ => .ok []
  | count + 1, bytes => do
    let (offset, rest) ← readWord 4 bytes
    return offset :: (← readOffsets count rest)

/-- The code of the line at an offset into a table; offset zero is a
line without data. -/
def readLine (table : Bytes) (width offset : Nat) :
    Except ReadError (Option Bytes) :=
  if offset = 0 then .ok none
  else if table.length < offset then
    .error (.corrupt (.lineBeyondEnd offset))
  else
    let data := table.drop offset
    match decodeLine data width with
    | .error cause => .error cause
    | .ok (_, used) => .ok (some (data.take used))

/-- The sprite that the payload of a sprite block holds. -/
def fromPayload (payload : Bytes) : Except ReadError SpriteImage := do
  let (width, rest) ← readWord 2 payload
  let (height, rest) ← readWord 2 rest
  let (xWord, rest) ← readWord 2 rest
  let (yWord, table) ← readWord 2 rest
  let offsets ← readOffsets height table
  let lines ← offsets.mapM (readLine table width)
  return { width, height
           xOffset := intOfWord 2 xWord, yOffset := intOfWord 2 yWord
           lines }

/-- The pixels of one line. -/
def linePixels (transparent : UInt8) (width : Nat) :
    Option Bytes → Except ReadError Bytes
  | none => .ok (List.replicate width transparent)
  | some data =>
    match decodeLine data width with
    | .error cause => .error cause
    | .ok (runs, _) => .ok (paintLine transparent width runs)

/-- The rows of a sprite. -/
def pixelRows (image : SpriteImage) (transparent : UInt8) :
    Except ReadError (List Bytes) :=
  image.lines.mapM (linePixels transparent image.width)

/-- The pixels of a sprite, row after row, with the transparent index
where nothing is drawn. -/
def pixels (image : SpriteImage) (transparent : UInt8) :
    Except ReadError Bytes := do
  return (← image.pixelRows transparent).flatten

end SpriteImage

end GamePack
