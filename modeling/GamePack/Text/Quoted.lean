import GamePack.Text.Hidden

/-!
Quoted texts, as messages show names whose characters matter. A text
stands between double quotes; a double quote, a backslash and the common
control characters are written with a backslash, and every other
character that would not be seen by its hexadecimal number.
-/
namespace GamePack.Text

/-- Lower case hexadecimal digits, without leading zeros. -/
def hexDigits (n : Nat) : List Char := Nat.toDigits 16 n

/-- The escape `\u` with the character's number between braces. -/
def numberEscape (c : Char) : List Char :=
  '\\' :: 'u' :: '\x7b' :: (hexDigits c.toNat ++ ['\x7d'])

/-- One character inside quotes. -/
def quotedChar (c : Char) : List Char :=
  match c with
  | '\x00' => ['\\', '0']
  | '\t' => ['\\', 't']
  | '\n' => ['\\', 'n']
  | '\r' => ['\\', 'r']
  | '\"' => ['\\', '\"']
  | '\\' => ['\\', '\\']
  | c =>
    if c.toNat < 0x20 || c.toNat == 0x7f || isHidden c then numberEscape c
    else [c]

/-- A text between double quotes. -/
def quoted (s : String) : String :=
  String.ofList ('\"' :: (s.toList.flatMap quotedChar ++ ['\"']))

end GamePack.Text
