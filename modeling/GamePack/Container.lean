import GamePack.Block

/-!
Containers: the blocks of one file, in order, each distinct block once.
A block refers to another by its position, counted from one; adding a
block gives its position, whether it was there before or not.
-/
namespace GamePack

/-- The first bytes of a file. -/
def fileMagic : Bytes := [0x52, 0x43, 0x44, 0x46]

/-- The version of the file layout. -/
def fileVersion : Nat := 1

/-- The header of a file. -/
def fileHeader : Bytes := fileMagic ++ leBytes 4 fileVersion

/-- The distinct blocks of one file. -/
structure Container where
  blocks : List Block := []
  deriving DecidableEq, Repr

namespace Container

/-- Add a block unless an equal one is there, and give its number. No
block takes no place and has no number. -/
def addBlock (c : Container) : Option Block → Option BlockRef × Container
  | none => (none, c)
  | some block =>
    match c.blocks.idxOf? block with
    | some index => (BlockRef.ofNumber? (index + 1), c)
    | none =>
      (BlockRef.ofNumber? (c.blocks.length + 1),
        ⟨c.blocks ++ [block]⟩)

/-- The block that a reference names. -/
def get? (c : Container) (r : BlockRef) : Option Block :=
  c.blocks[r.number - 1]?

/-- The number of blocks. -/
def size (c : Container) : Nat := c.blocks.length

/-- The bytes of the file: the header and the record of each block. -/
def toBytes (c : Container) : Except Error Bytes := do
  let records ← c.blocks.mapM Block.record
  return fileHeader ++ records.flatten

end Container

end GamePack
