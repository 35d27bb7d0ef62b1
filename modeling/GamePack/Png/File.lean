import GamePack.Png.Annotation
import GamePack.Png.Frame
import GamePack.Sprite.Bitmap

/-!
What a PNG file holds. Reading gathers what is needed to decode the
picture: the header, the palette, the frame and the compressed data. The
data ends where a chunk of another kind starts, and what comes after it
is left alone. A chunk without data says nothing. A wrong checksum is a
fault only where a chunk must be understood, but what other chunks hold
counts all the same.
-/
namespace GamePack.Png

/-- What a PNG holds, with the data still compressed. -/
structure File where
  header : Header
  palette : Option Palette
  /-- The part of the picture that the data is for, if not the whole. -/
  frame : Option Frame := none
  data : Bytes
  deriving DecidableEq, Repr

/-- The layout of the pixels that the data holds. -/
def File.stored (f : File) : Header :=
  match f.frame with
  | none => f.header
  | some frame =>
    { f.header with width := frame.width, height := frame.height }

/-- The colours of palette data; an incomplete last one is left out. -/
def coloursOf : Bytes → Palette
  | r :: g :: b :: rest => ⟨r, g, b⟩ :: coloursOf rest
  | _ => []

-- ========================================================== preamble

/-- What has been read in front of the picture data. -/
structure Preamble where
  header : Header
  palette : Option Palette := none
  transparency : Bool := false
  frame : Option Frame := none
  /-- The number of the last chunk of the animation. -/
  last : Option Nat := none
  /-- The annotations that must not occur again. -/
  seen : List String := []
  deriving Repr

namespace Preamble

/-- Whether transparency data suits a picture. -/
def transparencyFits (p : Preamble) (data : Bytes) : Bool :=
  match p.header.colour with
  | .indexed => p.palette.isSome
  | .grey => 2 ≤ data.length
  | .rgb => 6 ≤ data.length
  | .greyAlpha | .rgba => false

/-- A frame that is given; of several the last counts. -/
def addFrame (p : Preamble) (data : Bytes) : Except Fault Preamble :=
  let number := Frame.number data
  match Frame.ofData? p.header data with
  | none => .error (.badContent "fcTL")
  | some frame =>
    if Frame.follows p.last number then
      .ok { p with frame := some frame, last := some number }
    else .error .outOfOrder

/-- An annotation that is read. -/
def annotate (p : Preamble) (rule : Annotation.Rule) (data : Bytes) :
    Except Fault Preamble :=
  if p.seen.contains rule.kind then .error (.repeated rule.kind)
  else if !rule.accepts data then .error (.badContent rule.kind)
  else .ok (if rule.once then { p with seen := rule.kind :: p.seen } else p)

/-- What is known after a chunk with data. Kinds that are not known say
nothing. -/
def add (p : Preamble) (c : Chunk) : Except Fault Preamble :=
  if c.kind = kindOf "IHDR" then .error (.repeated "IHDR")
  else if c.kind = kindOf "PLTE" then
    if p.palette.isSome then .error (.repeated "PLTE")
    else .ok { p with palette := some (coloursOf c.data) }
  else if c.kind = kindOf "tRNS" then
    if p.transparency then .error (.repeated "tRNS")
    else if !p.transparencyFits c.data then .error (.badContent "tRNS")
    else .ok { p with transparency := true }
  else if c.kind = kindOf "fcTL" then p.addFrame c.data
  else match Annotation.rule? c.kind with
    | some rule => p.annotate rule c.data
    | none => .ok p

/-- The file of a preamble and its data. -/
def file (p : Preamble) (data : Bytes) : File :=
  ⟨p.header, p.palette, p.frame, data⟩

end Preamble

-- =========================================================== reading

/-- The kind of the chunk at the front of the bytes. -/
def kindAt (bytes : Bytes) : Except Fault Bytes :=
  if bytes.length < 8 then .error .truncated
  else .ok ((bytes.drop 4).take 4)

/-- A chunk that is in order as far as its checksum tells. -/
def readSound (bytes : Bytes) : Except Fault (Chunk × Bytes) := do
  let (c, rest) ← readChunk bytes
  if c.isCritical && !c.intact then throw .badChecksum
  return (c, rest)

/-- The data of the chunks of picture data from here on. -/
def readData (fuel : Nat) (bytes : Bytes) : Except Fault Bytes := do
  if (← kindAt bytes) ≠ kindOf "IDAT" then return []
  match fuel with
  | 0 => throw .truncated
  | fuel + 1 =>
    let (c, rest) ← readSound bytes
    return c.data ++ (← readData fuel rest)

/-- The data of the chunks of frame data from here on, each of which
starts with its number. -/
def readFrameData (fuel : Nat) (last : Nat) (bytes : Bytes) :
    Except Fault Bytes := do
  if (← kindAt bytes) ≠ kindOf "fdAT" then return []
  match fuel with
  | 0 => throw .truncated
  | fuel + 1 =>
    let (c, rest) ← readSound bytes
    let number := Frame.number c.data
    if c.data.length < 4 then throw (.badContent "fdAT")
    if !Frame.follows (some last) number then throw .outOfOrder
    return c.data.drop 4 ++ (← readFrameData fuel number rest)

/-- The chunks between the header and the data, and the data. Frame data
needs a frame in front of it. -/
def readPreamble (fuel : Nat) (p : Preamble) (bytes : Bytes) :
    Except Fault File := do
  let kind ← kindAt bytes
  if kind = kindOf "IDAT" then
    return p.file (← readData bytes.length bytes)
  else if kind = kindOf "fdAT" then
    match p.last with
    | none => throw .outOfOrder
    | some last =>
      return p.file (← readFrameData bytes.length last bytes)
  else match fuel with
    | 0 => throw .truncated
    | fuel + 1 =>
      let (c, rest) ← readSound bytes
      if kind = kindOf "IEND" then throw .noData
      readPreamble fuel (← if c.data.isEmpty then pure p else p.add c) rest

/-- The file from its header on, which is the first chunk with data. -/
def readHeader (fuel : Nat) (bytes : Bytes) : Except Fault File := do
  if (← kindAt bytes) ≠ kindOf "IHDR" then throw .badHeader
  match fuel with
  | 0 => throw .truncated
  | fuel + 1 =>
    let (c, rest) ← readSound bytes
    if c.data.isEmpty then readHeader fuel rest
    else match Header.ofData? c.data with
      | none => throw .badHeader
      | some header => readPreamble rest.length { header } rest

/-- The file that bytes hold. -/
def readFile (bytes : Bytes) : Except Fault File :=
  if bytes.take 8 ≠ signature then .error .badSignature
  else readHeader bytes.length (bytes.drop 8)

/-- The bytes of a file. -/
def writeFile (f : File) : Bytes :=
  signature ++ chunk "IHDR" f.header.data ++
    (match f.palette with
      | none => []
      | some colours =>
        chunk "PLTE" (colours.flatMap fun c => [c.red, c.green, c.blue])) ++
    chunk "IDAT" f.data ++ chunk "IEND" []

end GamePack.Png
