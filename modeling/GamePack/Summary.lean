import GamePack.Container.Stored
import GamePack.Sprite.Image

/-!
Summaries: what a listing of a stored file says of each block. Blocks
that hold sprites are listed with their size and place, so every sprite
of the file is read, and one that cannot be read fails the listing.
-/
namespace GamePack

/-- The size and place of a stored sprite. -/
structure SpriteSummary where
  width : Nat
  height : Nat
  xOffset : Int
  yOffset : Int
  deriving DecidableEq, Repr

/-- One block of a listing. -/
structure BlockSummary where
  /-- The number of the block, as references use it. -/
  index : Nat
  magic : Magic
  version : Nat
  length : Nat
  sprite : Option SpriteSummary
  deriving DecidableEq, Repr

/-- Whether a stored block holds a sprite. -/
def StoredBlock.isSprite (b : StoredBlock) : Bool :=
  b.magic == .sprite && b.version == spriteVersion

/-- The size and place of a sprite. -/
def SpriteImage.summary (image : SpriteImage) : SpriteSummary :=
  ⟨image.width, image.height, image.xOffset, image.yOffset⟩

/-- The summary of a block under its number. -/
def StoredBlock.summarize (b : StoredBlock) (index : Nat) :
    Except ReadError BlockSummary := do
  let sprite ← if b.isSprite then
      some <$> SpriteImage.summary <$> SpriteImage.fromPayload b.payload
    else pure none
  return ⟨index, b.magic, b.version, b.payload.length, sprite⟩

/-- The summaries of the blocks of a file, numbered from one. -/
def StoredFile.summarize (f : StoredFile) :
    Except ReadError (List BlockSummary) :=
  f.blocks.zipIdx.mapM fun (block, i) => block.summarize (i + 1)

end GamePack
