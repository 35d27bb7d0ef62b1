import GamePack.Yaml.Fault
import GamePack.Yaml.Tag

/-!
The tokens of a YAML text, and the character classes that separate them.
Block collections have no marks of their own; tokens for their start and
end stand where the indentation changes.
-/
namespace GamePack.Yaml

/-- How a scalar is written. -/
inductive Style where
  | plain
  | quoted
  /-- A block that keeps its line breaks. -/
  | literal
  /-- A block whose lines are joined. -/
  | folded
  deriving DecidableEq, Repr

/-- A token. -/
inductive Token where
  | version (major minor : Nat)
  | tagDirective (handle : String) (lead : Bytes)
  | documentStart
  | documentEnd
  | streamEnd
  | blockSequenceStart
  | blockMappingStart
  | blockEnd
  | flowSequenceStart
  | flowSequenceEnd
  | flowMappingStart
  | flowMappingEnd
  | blockEntry
  | flowEntry
  | key
  | value
  | alias (name : String)
  | anchor (name : String)
  | tag (handle : String) (suffix : Bytes)
  | scalar (style : Style) (text : String)
  deriving DecidableEq, Repr

-- ======================================================== characters

/-- Whether a character may stand in a text. -/
def isAllowed (c : Char) : Bool :=
  let n := c.toNat
  n == 0x9 || n == 0xa || n == 0xd || (0x20 ≤ n && n ≤ 0x7e) || n == 0x85
    || (0xa0 ≤ n && n ≤ 0xd7ff) || (0xe000 ≤ n && n ≤ 0xfffd)
    || 0x10000 ≤ n

/-- Line breaks. -/
def isBreak (c : Char) : Bool :=
  let n := c.toNat
  n == 0xa || n == 0xd || n == 0x85 || n == 0x2028 || n == 0x2029

/-- The byte order mark. -/
def isOrderMark (c : Char) : Bool := c.toNat == 0xfeff

/-- Blanks inside a line. -/
def isBlank (c : Char) : Bool := c == ' ' || c == '\t'

/-- Whether a text starts with a blank or a line break, or is at its
end. -/
def atGap : List Char → Bool
  | [] => true
  | c :: _ => isBlank c || isBreak c

/-- Whether a text starts with a line break, or is at its end. -/
def atLineEnd : List Char → Bool
  | [] => true
  | c :: _ => isBreak c

/-- Characters of names: ASCII letters and digits, `_` and `-`. -/
def isNameChar (c : Char) : Bool :=
  ('0' ≤ c && c ≤ '9') || ('a' ≤ c && c ≤ 'z') || ('A' ≤ c && c ≤ 'Z')
    || c == '_' || c == '-'

/-- Characters of tags besides those of names. -/
def tagMarks : List Char :=
  [';', '/', '?', ':', '@', '&', '=', '+', '$', '.', '%', '!', '~', '*',
    '\'', '(', ')']

/-- Whether a character may stand in a tag; more may between angle
brackets. -/
def isTagChar (bracketed : Bool) (c : Char) : Bool :=
  isNameChar c || tagMarks.contains c
    || (bracketed && [',', '[', ']'].contains c)

/-- Characters that mean something of their own where a token starts. -/
def indicators : List Char :=
  ['-', '?', ':', ',', '[', ']', '\x7b', '\x7d', '#', '&', '*', '!', '|',
    '>', '\'', '\"', '%', '@', '\x60']

/-- Characters that end a plain scalar inside brackets. -/
def flowMarks : List Char := [',', '[', ']', '\x7b', '\x7d']

end GamePack.Yaml
