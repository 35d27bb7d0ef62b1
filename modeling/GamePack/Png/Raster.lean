import GamePack.Png.File

/-!
The rows of a PNG. The compressed data holds rows of packed pixels, each
behind a byte that says how it was filtered: every byte is stored as its
difference to a guess made from the byte before, the byte above and the
byte before that. An interlaced picture is stored as seven smaller ones
whose pixels are spread over the whole.

Where the data is for a frame, the rows are those of the frame. The rows
of an interlaced frame are spread over rows of the whole picture's
length, and the row of the frame is cut from those in turn.
-/
namespace GamePack.Png

-- =========================================================== filters

/-- Of three neighbours, the one nearest to left plus above minus
corner; the left one wins a tie, then the one above. -/
def nearest (left above corner : Nat) : Nat :=
  let guess : Int := (left : Int) + above - corner
  let toLeft := (guess - left).natAbs
  let toAbove := (guess - above).natAbs
  let toCorner := (guess - corner).natAbs
  if toLeft ≤ toAbove ∧ toLeft ≤ toCorner then left
  else if toAbove ≤ toCorner then above
  else corner

/-- The guess of a filter, when there is such a filter. -/
def guess? (filter : UInt8) : Option (Nat → Nat → Nat → Nat) :=
  match filter.toNat with
  | 0 => some fun _ _ _ => 0
  | 1 => some fun left _ _ => left
  | 2 => some fun _ above _ => above
  | 3 => some fun left above _ => (left + above) / 2
  | 4 => some nearest
  | _ => none

/-- The bytes of a row from its stored bytes and the row above. `step`
is the number of bytes to the neighbour on the left. -/
def unfilterRow (guess : Nat → Nat → Nat → Nat) (step : Nat)
    (above : Array UInt8) (stored : Bytes) : Array UInt8 :=
  stored.foldl (fun row byte =>
    let i := row.size
    let byteAt (bytes : Array UInt8) (i : Nat) : Nat :=
      (bytes[i]?.getD 0).toNat
    let left := if i < step then 0 else byteAt row (i - step)
    let corner := if i < step then 0 else byteAt above (i - step)
    row.push (UInt8.ofNat
      (byte.toNat + guess left (byteAt above i) corner))) #[]

/-- The rows of one picture at the front of the data, and what follows
them. -/
def unfilterRows (size step : Nat) : Nat → Array UInt8 → Bytes →
    Except Fault (List Bytes × Bytes)
  | 0, _, data => .ok ([], data)
  | _ + 1, _, [] => .error .tooLittleData
  | count + 1, above, filter :: data =>
    if data.length < size then .error .tooLittleData
    else match guess? filter with
      | none => .error .badFilter
      | some guess => do
        let row := unfilterRow guess step above (data.take size)
        let (rows, rest) ←
          unfilterRows size step count row (data.drop size)
        return (row.toList :: rows, rest)

-- ====================================================== packed pixels

/-- The bits of a byte, most significant first. -/
def highBits (b : UInt8) : List Bool :=
  (List.range 8).map fun i => b.toNat.testBit (7 - i)

/-- The number that bits spell, most significant first. -/
def ofBits (bits : List Bool) : Nat :=
  bits.foldl (fun n bit => 2 * n + bit.toNat) 0

/-- Bits as bytes, most significant first; the last byte is filled up
with zeros. -/
def packBits (bits : List Bool) : Bytes :=
  match bits with
  | [] => []
  | bit :: rest =>
    let byte := (bit :: rest).take 8
    UInt8.ofNat (ofBits byte <<< (8 - byte.length)) ::
      packBits (rest.drop 7)
termination_by bits.length
decreasing_by
  simp only [List.length_drop, List.length_cons]
  omega

/-- The bits of a pixel in a packed row. -/
def pixelAt (size : Nat) (bits : List Bool) (x : Nat) : List Bool :=
  (bits.drop (x * size)).take size

-- ======================================================= interlacing

/-- One of the pictures that an interlaced one is stored as: where its
pixels start and how far they are apart. -/
structure Pass where
  x : Nat
  y : Nat
  dx : Nat
  dy : Nat

/-- The passes of an interlaced picture, in stored order. -/
def passes : List Pass :=
  [⟨0, 0, 8, 8⟩, ⟨4, 0, 8, 8⟩, ⟨0, 4, 4, 8⟩, ⟨2, 0, 4, 4⟩, ⟨0, 2, 2, 4⟩,
    ⟨1, 0, 2, 2⟩, ⟨0, 1, 1, 2⟩]

/-- How many of `size` places a pass takes that starts at `start` and
goes on in steps. -/
def placesOf (size start step : Nat) : Nat :=
  (size - start + step - 1) / step

/-- The rows of each pass, packed. A pass without pixels has no rows. -/
def unfilterPasses (h : Header) :
    List Pass → Bytes → Except Fault (List (Pass × Array (List Bool)))
  | [], _ => .ok []
  | pass :: rest, data => do
    let width := placesOf h.width pass.x pass.dx
    let height := placesOf h.height pass.y pass.dy
    let size := h.rowBytes width
    let step := max 1 (h.pixelBits / 8)
    let (rows, data) ← unfilterRows size step
      (if width = 0 then 0 else height) #[] data
    let more ← unfilterPasses h rest data
    return (pass, (rows.map fun row => row.flatMap highBits).toArray) :: more

/-- Whether a pass has a pixel at a place. -/
def Pass.covers (p : Pass) (x y : Nat) : Bool :=
  p.x ≤ x && p.y ≤ y && (x - p.x) % p.dx == 0 && (y - p.y) % p.dy == 0

/-- The pixel at a place, from the pass that has it. -/
def spreadPixel (h : Header) (parts : List (Pass × Array (List Bool)))
    (y x : Nat) : List Bool :=
  match parts.find? fun part => part.1.covers x y with
  | none => []
  | some (pass, rows) =>
    pixelAt h.pixelBits (rows[(y - pass.y) / pass.dy]?.getD [])
      ((x - pass.x) / pass.dx)

-- =========================================================== rasters

/-- A decoded picture: rows of packed pixels. -/
structure Raster where
  header : Header
  palette : Option Palette
  rows : List Bytes
  deriving DecidableEq, Repr

/-- The most bytes of a row. -/
def maxRow : Nat := 0x4000000

/-- The rows of a picture from its decompressed data. -/
def rowsOf (h : Header) (data : Bytes) : Except Fault (List Bytes) :=
  if h.interlaced then do
    let parts ← unfilterPasses h passes data
    return (List.range h.height).map fun y =>
      packBits ((List.range h.width).flatMap (spreadPixel h parts y))
  else do
    let (rows, _) ← unfilterRows (h.rowBytes h.width)
      (max 1 (h.pixelBits / 8)) h.height #[] data
    return rows

/-- Rows laid out one behind the other at a distance, and cut anew into
as many rows of a size. -/
def recut (distance size : Nat) (rows : List Bytes) : List Bytes :=
  let rows := (rows.map List.toArray).toArray
  let byteAt (i : Nat) : UInt8 :=
    (rows[i / distance]?.bind fun row => row[i % distance]?).getD 0
  (List.range rows.size).map fun y =>
    (List.range size).map fun x => byteAt (y * size + x)

/-- The rows of a file from its decompressed data. -/
def File.rows (f : File) (data : Bytes) : Except Fault (List Bytes) := do
  let size := f.stored.rowBytes f.stored.width
  let distance := f.header.rowBytes f.header.width
  if maxRow < size then throw .tooWide
  let rows ← rowsOf f.stored data
  return if f.header.interlaced && size != distance then
    recut distance size rows
  else rows

/-- The picture that the bytes of a PNG hold. -/
def decode (bytes : Bytes) : Except Fault Raster := do
  let file ← readFile bytes
  let data ← (Flate.decompress file.data).mapError .flate
  return ⟨file.stored, file.palette, ← file.rows data.toList⟩

/-- The bytes of a PNG that holds a picture, with no row filtered. -/
def encode (r : Raster) : Bytes :=
  let data := r.rows.flatMap fun row => 0 :: row
  writeFile ⟨r.header, r.palette, none, Flate.compress data⟩

end GamePack.Png
