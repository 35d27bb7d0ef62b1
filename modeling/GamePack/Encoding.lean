import GamePack.DataType
import GamePack.Value

/-!
How values are written as their types. Every type gives a value a size
and a row of bytes: numbers are little-endian words, lists carry their
count, structures are their sub-fields one after the other, and image
data starts with a table of line offsets. A value that does not have the
shape of its type has neither.
-/
namespace GamePack

/-- Where each line with data starts, counted from the table's start;
zero marks a line without data. -/
def lineOffsets (start : Nat) :
    ImageLines → Except ConsistencyError (List Nat)
  | [] => .ok []
  | none :: lines => do
    return 0 :: (← lineOffsets start lines)
  | some data :: lines => do
    if 0x100000000 ≤ start then throw (.tooLarge "image_data" start)
    return start :: (← lineOffsets (start + data.length) lines)

/-- The offset table of image data, followed by the lines that have
data. -/
def encodeLines (lines : ImageLines) : Except ConsistencyError Bytes := do
  let offsets ← lineOffsets (4 * lines.length) lines
  let data := (lines.map fun line => line.getD []).flatten
  return (offsets.map (leBytes 4)).flatten ++ data

/-- The size of image data: four bytes a line, and the data. -/
def linesSize (lines : ImageLines) : Nat :=
  total (lines.map fun line => 4 + (line.getD []).length)

namespace DataType

/-- A value without the shape of the type. -/
def shapeError (t : DataType) : ConsistencyError := .valueShape t.name

mutual
/-- The number of bytes a value takes when written as a type. -/
def size : DataType → Value → Except ConsistencyError Nat
  | numeric n, .int _ => .ok n.size
  | enumeration e, .int _ => .ok e.base.size
  | bitSet b, .int _ => .ok b.storage.size
  | reference _, .ref _ => .ok 4
  | text, .ref _ => .ok 4
  | imageData, .image lines => .ok (linesSize lines)
  | list count element, .list items => do
    let sizes ← items.mapM fun item => element.size item
    return count.size + total sizes
  | struct name fields, .struct items =>
    if items.length = fields.length then do
      return total (← fieldSizes fields items)
    else .error (struct name fields).shapeError
  | raw, .raw bytes => .ok bytes.length
  | t, _ => .error t.shapeError

/-- The sizes of values written as a row of sub-fields. -/
def fieldSizes : List (String × DataType) → List Value →
    Except ConsistencyError (List Nat)
  | (_, t) :: fields, item :: items => do
    let size ← t.size item
    return size :: (← fieldSizes fields items)
  | _, _ => .ok []
end

mutual
/-- The bytes of a value written as a type. -/
def encode : DataType → Value → Except Error Bytes
  | numeric n, .int v => (n.encode v).mapError .value
  | enumeration e, .int v => (e.base.encode v).mapError .value
  | bitSet b, .int v => (b.storage.encode v).mapError .value
  | reference _, .ref r => .ok (leBytes 4 (BlockRef.encode r))
  | text, .ref r => .ok (leBytes 4 (BlockRef.encode r))
  | imageData, .image lines => (encodeLines lines).mapError .consistency
  | list count element, .list items => do
    let head ← (count.encode items.length).mapError .value
    let parts ← items.mapM fun item => element.encode item
    return head ++ parts.flatten
  | struct name fields, .struct items =>
    if items.length = fields.length then do
      return (← encodeFields fields items).flatten
    else .error (.consistency (struct name fields).shapeError)
  | raw, .raw bytes => .ok bytes
  | t, _ => .error (.consistency t.shapeError)

/-- The bytes of values written as a row of sub-fields. -/
def encodeFields : List (String × DataType) → List Value →
    Except Error (List Bytes)
  | (_, t) :: fields, item :: items => do
    let bytes ← t.encode item
    return bytes :: (← encodeFields fields items)
  | _, _ => .ok []
end

end DataType

end GamePack
