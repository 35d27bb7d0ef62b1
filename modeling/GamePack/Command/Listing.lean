import GamePack.Command.Invocation
import GamePack.Command.Session
import GamePack.Png.Image
import GamePack.Summary
import GamePack.Text.Json

/-!
The command that lists a stored file. Every block is a line, or an
object of a JSON array, and the sprites can be dumped as previews into a
directory, each under the number of its block.
-/
namespace GamePack

namespace SpriteSummary

/-- The lines of a sprite in a JSON listing. -/
def json (s : SpriteSummary) : List String :=
  Text.jsonObject [("width", [toString s.width]),
    ("height", [toString s.height]), ("x_offset", [toString s.xOffset]),
    ("y_offset", [toString s.yOffset])]

end SpriteSummary

namespace BlockSummary

/-- The lines of a block in a JSON listing. -/
def json (b : BlockSummary) : List String :=
  let sprite := match b.sprite with
    | none => []
    | some s => [("sprite", s.json)]
  Text.jsonObject ([("index", [toString b.index]),
    ("magic", [Text.jsonString b.magic.text]),
    ("version", [toString b.version]),
    ("length", [toString b.length])] ++ sprite)

/-- The line of a block. -/
def line (b : BlockSummary) : String :=
  let sprite := match b.sprite with
    | none => ""
    | some s =>
      s!"  {s.width}x{s.height} at ({s.xOffset}, {s.yOffset})"
  Action.alignRight 5 (toString b.index) ++
    s!"  {b.magic.text} v{b.version}  {b.length} bytes" ++ sprite

end BlockSummary

namespace StoredFile

/-- The file at a path. -/
def load (disk : Disk) (path : Path) : Except Error StoredFile := do
  let bytes ← (disk.read path).mapError fun fault =>
    .file path (.system .readContainer fault)
  (parse bytes).mapError .read

end StoredFile

namespace ListingOptions

/-- The palette that colours the previews; a grey ramp unless a bitmap
is given. -/
def loadPalette (o : ListingOptions) : Action Palette := do
  match o.palette with
  | none => return .grey
  | some path =>
    let bitmap ← Action.ofExcept (Bitmap.load (← get).disk path)
    match bitmap.palette with
    | some palette => return palette
    | none => throw (.validation (.noPalette (← Action.shown path)))

/-- Write the preview of a sprite. -/
def writePreview (o : ListingOptions) (palette : Palette) (path : Path)
    (image : SpriteImage) : Action Unit := do
  let picture ←
    Action.ofExcept (image.render palette o.transparent o.scale)
  Action.onDisk fun disk =>
    match disk.write path picture.encodePng with
    | .ok disk => (.ok (), disk)
    | .error fault =>
      (.error (.file path (.system .writePreview fault)), disk)

/-- Write the previews of the sprites among numbered blocks; the number
of previews written. Sprites without pixels have none. -/
def dumpSprites (o : ListingOptions) (palette : Palette)
    (directory : Path) : List (StoredBlock × Nat) → Action Nat
  | [] => return 0
  | (block, number) :: rest => do
    if block.isSprite then
      let image ← Action.ofExcept
        ((SpriteImage.fromPayload block.payload).mapError .read)
      if image.width = 0 ∨ image.height = 0 then
        dumpSprites o palette directory rest
      else
        o.writePreview palette (directory.entry s!"block-{number}.png")
          image
        return (← dumpSprites o palette directory rest) + 1
    else dumpSprites o palette directory rest

/-- Write the previews of all sprites of a file. -/
def dumpFile (o : ListingOptions) (file : StoredFile)
    (directory : Path) : Action Unit := do
  let palette ← o.loadPalette
  Action.onDisk fun disk =>
    match disk.makeDirectories directory with
    | (.ok (), disk) => (.ok (), disk)
    | (.error fault, disk) =>
      (.error (.file directory (.system .makeDumpDirectory fault)), disk)
  let count ← o.dumpSprites palette directory (file.blocks.zipIdx 1)
  let counted := plural count "sprite" "sprites"
  Action.say "Dumped" s!"{counted} to {← Action.shown directory}"

/-- List the file that the options ask for. -/
def inspect (o : ListingOptions) : Action Unit := do
  let file ← Action.ofExcept (StoredFile.load (← get).disk o.file)
  let blocks ← Action.ofExcept (file.summarize.mapError .read)
  if o.json then
    (Text.jsonArray (blocks.map BlockSummary.json)).forM Action.print
  else
    let counted := plural blocks.length "block" "blocks"
    Action.say "Reading" s!"{← Action.shown o.file} ({counted})"
    (blocks.map BlockSummary.line).forM Action.print
  match o.dump with
  | none => return ()
  | some directory => o.dumpFile file directory

end ListingOptions

end GamePack
