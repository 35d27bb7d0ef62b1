import GamePack.Container

/-!
Stored files: the blocks of a file as they lie in its bytes, with their
payloads undecoded. Reading accepts a header and then whole records to
the end of the bytes, and nothing else.
-/
namespace GamePack

/-- A block as stored. -/
structure StoredBlock where
  magic : Magic
  version : Nat
  payload : Bytes
  deriving DecidableEq, Repr

namespace StoredBlock

/-- The record of a stored block. -/
def record (b : StoredBlock) : Bytes :=
  b.magic.bytes ++ leBytes 4 b.version ++ leBytes 4 b.payload.length
    ++ b.payload

/-- A word of four bytes from the front of a file. -/
def readWord (bytes : Bytes) : Except ReadError (Nat × Bytes) :=
  match readLE 4 bytes with
  | some result => .ok result
  | none => .error .endOfBytes

/-- The record at the front of the bytes, as the block of a number, and
what follows it. -/
def read (number : Nat) (bytes : Bytes) :
    Except ReadError (StoredBlock × Bytes) := do
  if bytes.length < 4 then throw .endOfBytes
  let some magic := Magic.ofBytes? (bytes.take 4)
    | throw (.corrupt (.blockMagic number))
  let (version, bytes) ← readWord (bytes.drop 4)
  let (length, bytes) ← readWord bytes
  if bytes.length < length then
    throw (.corrupt (.blockLength number length bytes.length))
  return (⟨magic, version, bytes.take length⟩, bytes.drop length)

/-- The records in the bytes, as the blocks from a number on. A record
takes at least twelve bytes, so as much fuel as there are bytes is
enough. -/
def readAll (fuel number : Nat) (bytes : Bytes) :
    Except ReadError (List StoredBlock) :=
  match fuel, bytes with
  | _, [] => .ok []
  | 0, _ => .error .endOfBytes
  | fuel + 1, bytes => do
    let (block, rest) ← read number bytes
    return block :: (← readAll fuel (number + 1) rest)

end StoredBlock

/-- The blocks of a stored file, in order. -/
structure StoredFile where
  blocks : List StoredBlock
  deriving DecidableEq, Repr

namespace StoredFile

/-- The file that bytes hold. -/
def parse (bytes : Bytes) : Except ReadError StoredFile := do
  if bytes.length < 4 then throw .endOfBytes
  if bytes.take 4 ≠ fileMagic then throw (.invalidMagic (bytes.take 4))
  let (version, rest) ← StoredBlock.readWord (bytes.drop 4)
  if version ≠ fileVersion then throw (.unsupportedVersion version)
  return ⟨← StoredBlock.readAll rest.length 1 rest⟩

/-- The bytes of a stored file. -/
def toBytes (f : StoredFile) : Bytes :=
  fileHeader ++ (f.blocks.map StoredBlock.record).flatten

end StoredFile

end GamePack
