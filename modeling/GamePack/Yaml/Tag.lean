import GamePack.Bytes

/-!
Tags, which say what a node of a YAML text is meant to be. A tag is a
row of bytes, as it may be written with escaped bytes that are no text.
A local tag starts with `!`; of all others only those that every
document knows matter.
-/
namespace GamePack.Yaml

/-- The types of scalars that every document knows. -/
inductive CoreType where
  | null
  | bool
  | int
  | float
  deriving DecidableEq, Repr

/-- What a tag says about a node. -/
inductive Tag where
  | core (type : CoreType)
  /-- A local tag; its name follows the first `!`. -/
  | named (name : String)
  /-- A local tag that is no text, which counts as no tag. -/
  | illegible
  /-- Any other tag; its scalars are strings. -/
  | other
  deriving DecidableEq, Repr

namespace CoreType

/-- All types. -/
def all : List CoreType := [null, bool, int, float]

/-- The word for a type at the end of its tag. -/
def word : CoreType → String
  | null => "null"
  | bool => "bool"
  | int => "int"
  | float => "float"

/-- What the tags of these types start with. -/
def lead : Bytes := "tag:yaml.org,2002:".toUTF8.toList

/-- The bytes of the tag of a type. -/
def bytes (type : CoreType) : Bytes := lead ++ type.word.toUTF8.toList

end CoreType

namespace Tag

/-- The tag of some bytes. The tag `!` is its own name. -/
def ofBytes (bytes : Bytes) : Tag :=
  match bytes with
  | 0x21 :: rest =>
    let name := if rest.isEmpty then bytes else rest
    match String.fromUTF8? ⟨name.toArray⟩ with
    | some name => .named name
    | none => .illegible
  | _ =>
    match CoreType.all.find? fun type => type.bytes == bytes with
    | some type => .core type
    | none => .other

/-- The name of a local tag. -/
def name? : Tag → Option String
  | named name => some name
  | _ => none

/-- The name as it is shown and compared: one more `!` at its front makes
no difference, unless it is all there is. -/
def bareName (name : String) : String :=
  match name.toList with
  | '!' :: c :: cs => String.ofList (c :: cs)
  | _ => name

end Tag

end GamePack.Yaml
