import GamePack.Sprite.Grid
import GamePack.Strings
import GamePack.Value

/-!
Bound values: what a data file gives a field, before it is converted. A
bound value knows its own shape only; whether it suits the type of its
field is decided when it is converted.
-/
namespace GamePack

/-- A value given to a field by a data file. -/
inductive FieldValue where
  | number (n : Int)
  | symbol (s : String)
  /-- A block that is in the file already, or none. -/
  | block (r : Option BlockRef)
  | struct (items : List (String × FieldValue))
  | list (items : List FieldValue)
  | bits (literal : List (String × List String))
  /-- A region of a sheet, to be encoded as a sprite. -/
  | image (region : SheetRegion)
  /-- A sheet cut into named sprites. -/
  | grid (grid : SheetGrid)
  | text (strings : Strings)
  deriving Repr, Inhabited

namespace FieldValue

/-- The shape of a bound value, as messages show it. -/
def kind : FieldValue → String
  | number _ => "number"
  | symbol _ => "symbol"
  | block _ => "block reference"
  | struct _ => "structure"
  | list _ => "list"
  | bits _ => "bitset"
  | image _ => "image region"
  | grid _ => "sprite grid"
  | text _ => "text"

end FieldValue

end GamePack
