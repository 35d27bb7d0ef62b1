import GamePack.Bytes
import GamePack.Error

/-!
The line code of sprites. A line is its runs of opaque pixels, each
stored as a control byte, a count and the pixels. The low seven bits of
the control byte are the gap since the end of the run before; the high
bit marks the last run. Gaps above 127 are bridged by steps without
pixels, runs above 255 pixels are stored in pieces, and decoding joins
the pieces again.

`scanLine` finds the runs of a row, `paintLine` puts runs back on a row,
`encodeLine` and `decodeLine` are the code and its reading, and
`joinRuns` is the form that decoding gives to any ordered runs.
-/
namespace GamePack.Sprite

/-- A horizontal run of pixels from a column on. -/
structure Run where
  start : Nat
  pixels : Bytes
  deriving DecidableEq, Repr

namespace Run

/-- The column after the last pixel. -/
def stop (r : Run) : Nat := r.start + r.pixels.length

end Run

-- ========================================================== scanning

/-- Put a pixel in front of the runs to its right. -/
def addPixel (x : Nat) (pixel : UInt8) : List Run → List Run
  | [] => [⟨x, [pixel]⟩]
  | r :: rest =>
    if r.start = x + 1 then ⟨x, pixel :: r.pixels⟩ :: rest
    else ⟨x, [pixel]⟩ :: r :: rest

/-- The maximal opaque runs of the pixels from column `x` on. -/
def scanFrom (transparent : UInt8) (x : Nat) : Bytes → List Run
  | [] => []
  | pixel :: rest =>
    let runs := scanFrom transparent (x + 1) rest
    if pixel = transparent then runs else addPixel x pixel runs

/-- The maximal opaque runs of a row. -/
def scanLine (pixels : Bytes) (transparent : UInt8) : List Run :=
  scanFrom transparent 0 pixels

/-- The row from column `x` to `width` that shows the runs, with the
transparent index between them. -/
def paintFrom (transparent : UInt8) (width x : Nat) : List Run → Bytes
  | [] => List.replicate (width - x) transparent
  | r :: rest =>
    List.replicate (r.start - x) transparent ++ r.pixels ++
      paintFrom transparent width r.stop rest

/-- The row of a width that shows the runs. -/
def paintLine (transparent : UInt8) (width : Nat) (runs : List Run) :
    Bytes :=
  paintFrom transparent width 0 runs

-- ========================================================== encoding

/-- The widest gap of one step. -/
def maxGap : Nat := 127

/-- The most pixels of one step. -/
def maxRun : Nat := 255

/-- What marks the last run of a line, as a part of the control byte. -/
def lastMark (last : Bool) : Nat := if last then 128 else 0

/-- One step: a control byte, a count and pixels. -/
def encodeStep (last : Bool) (gap : Nat) (pixels : Bytes) : Bytes :=
  UInt8.ofNat (lastMark last + gap) :: UInt8.ofNat pixels.length :: pixels

/-- The steps without pixels that leave a gap of at most 127. -/
def bridge (gap : Nat) : Bytes :=
  (List.replicate ((gap - 1) / maxGap) [127, 0]).flatten

/-- The gap that the bridge leaves. -/
def bridgedGap (gap : Nat) : Nat := gap - (gap - 1) / maxGap * maxGap

/-- The pieces of a run whose gap fits one step. -/
def encodePieces (last : Bool) (gap : Nat) (pixels : Bytes) : Bytes :=
  if maxRun < pixels.length then
    encodeStep false gap (pixels.take maxRun) ++
      encodePieces last 0 (pixels.drop maxRun)
  else encodeStep last gap pixels
termination_by pixels.length
decreasing_by
  simp only [List.length_drop, maxRun] at *
  omega

/-- One run after a gap. -/
def encodeRun (last : Bool) (gap : Nat) (pixels : Bytes) : Bytes :=
  bridge gap ++ encodePieces last (bridgedGap gap) pixels

/-- The runs of a line from column `x` on. -/
def encodeFrom (x : Nat) : List Run → Bytes
  | [] => []
  | r :: rest =>
    encodeRun rest.isEmpty (r.start - x) r.pixels ++ encodeFrom r.stop rest

/-- The code of a line; a line without runs has none. -/
def encodeLine (runs : List Run) : Bytes := encodeFrom 0 runs

-- ========================================================== decoding

/-- Put a run in front of the runs to its right: a run without pixels
leaves no trace, and one that ends where the next starts becomes part of
it. -/
def joinRun (r : Run) (later : List Run) : List Run :=
  if r.pixels.isEmpty then later
  else match later with
    | [] => [r]
    | next :: rest =>
      if next.start = r.stop then ⟨r.start, r.pixels ++ next.pixels⟩ :: rest
      else r :: next :: rest

/-- Runs with empty ones dropped and adjacent ones joined. -/
def joinRuns (runs : List Run) : List Run := runs.foldr joinRun []

/-- The gap in a control byte. -/
def gapOf (control : UInt8) : Nat := control.toNat % 128

/-- Whether a control byte marks the last run. -/
def isLast (control : UInt8) : Bool := 128 ≤ control.toNat

/-- The runs of a line from column `x` on and the number of bytes they
take, up to and including the run marked last. -/
def decodeFrom (width x : Nat) :
    Bytes → Except ReadError (List Run × Nat)
  | control :: count :: rest =>
    let start := x + gapOf control
    let size := count.toNat
    if width < start + size then
      .error (.corrupt (.runBeyondWidth start size width))
    else if rest.length < size then .error (.corrupt .truncatedRun)
    else
      let run : Run := ⟨start, rest.take size⟩
      if isLast control then .ok (joinRun run [], 2 + size)
      else
        match decodeFrom width (start + size) (rest.drop size) with
        | .error cause => .error cause
        | .ok (runs, used) => .ok (joinRun run runs, 2 + size + used)
  | _ => .error (.corrupt .truncatedLine)
termination_by bytes => bytes.length
decreasing_by
  simp only [List.length_drop, List.length_cons]
  omega

/-- The runs of one line of at most `width` pixels, and the number of
bytes read. -/
def decodeLine (bytes : Bytes) (width : Nat) :
    Except ReadError (List Run × Nat) :=
  decodeFrom width 0 bytes

end GamePack.Sprite
