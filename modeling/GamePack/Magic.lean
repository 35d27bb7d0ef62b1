import GamePack.Bytes
import GamePack.Error

/-!
Magics: the four visible ASCII characters that name a kind of block.
-/
namespace GamePack

/-- Whether a byte is an ASCII character that can be seen. -/
def isGraphic (b : UInt8) : Bool := 0x21 ≤ b && b ≤ 0x7e

/-- The name of a kind of block. -/
structure Magic where
  bytes : Bytes
  length_eq : bytes.length = 4
  graphic : bytes.all isGraphic = true
  deriving DecidableEq, Repr

namespace Magic

/-- The magic of four visible bytes. -/
def ofBytes? (bytes : Bytes) : Option Magic :=
  if h : bytes.length = 4 ∧ bytes.all isGraphic = true then
    some ⟨bytes, h.1, h.2⟩
  else none

/-- The characters of a magic. -/
def text (m : Magic) : String :=
  String.ofList (m.bytes.map fun b => Char.ofNat b.toNat)

/-- The magic that a text spells. -/
def parse (text : String) : Except SchemaError Magic :=
  match ofBytes? text.toUTF8.toList with
  | some magic => .ok magic
  | none => .error (.invalidMagic text)

/-- Sprite blocks. -/
def sprite : Magic := ⟨[0x38, 0x50, 0x58, 0x4c], rfl, by decide⟩

/-- Blocks of localized strings. -/
def strings : Magic := ⟨[0x54, 0x45, 0x58, 0x54], rfl, by decide⟩

end Magic

end GamePack
