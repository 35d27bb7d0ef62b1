import GamePack.Disk
import GamePack.Schema.Document
import GamePack.Sprite.Image

/-!
Data files: which blocks go into which output. A block binds fields of
its schema to values, in a mapping or in a list of mappings; a list
allows a field to be bound more than once, and the last binding counts.
Paths of sheets start from the directory of the data file.
-/
namespace GamePack

open Yaml

/-- The end of the names of data files that are found by scanning. -/
def dataSuffix : String := ".rcd.yaml"

/-- One block to build: the bindings of its fields in the order of the
file. -/
structure BlockSpec where
  magic : Magic
  version : Nat
  fields : List (String × Yaml.Value)
  deriving Repr

namespace BlockSpec

/-- The last binding of a field. -/
def binding? (b : BlockSpec) (name : String) : Option Yaml.Value :=
  b.fields.reverse.lookup name

/-- The bound names in order, with repetitions. -/
def names (b : BlockSpec) : List String := b.fields.map Prod.fst

end BlockSpec

/-- One output to produce. -/
structure OutputSpec where
  target : Path
  emptySprites : Option EmptySprite := none
  blocks : List BlockSpec := []
  deriving Repr

/-- A data file. -/
structure DataFile where
  path : Path := ⟨""⟩
  /-- Where the paths of sheets start. -/
  baseDir : Path
  outputs : List OutputSpec
  deriving Repr

-- ============================================================ reading

/-- The mode of a node: its word, or its word as a tag of nothing. -/
def EmptySprite.ofNode (n : Node) : Except Fault EmptySprite :=
  let known (word : String) := need "omit or blank" (ofText? word)
  match n with
  | .scalar tag style text =>
    match localTag? tag with
    | none => known text
    | some word =>
      if style = .plain && (text.isEmpty || isNull text) then known word
      else .error (.unexpected "nothing after a tag")
  | _ => .error (.unexpected "omit or blank")

/-- The mappings that bind the fields of a block: one mapping, or a list
of them. -/
def bindingMappings : Yaml.Value →
    Except Fault (List (List (Yaml.Value × Yaml.Value)))
  | .mapping entries => .ok [entries]
  | .sequence items => items.mapM fun
      | .mapping entries => .ok entries
      | _ => .error (.unexpected "a mapping")
  | _ => .error (.unexpected "a mapping or a list of mappings")

/-- The fields of a block as written. -/
def mappingsOfNode (n : Node) :
    Except Fault (List (List (Yaml.Value × Yaml.Value))) := do
  let v ← n.choice
  if v.isDistinct then bindingMappings v else throw (.repeatedKey "")

/-- A block as written, its field names still values. -/
structure RawBlockSpec where
  magic : Magic
  version : Nat
  mappings : List (List (Yaml.Value × Yaml.Value))

/-- An output as written. -/
structure RawOutputSpec where
  target : Path
  emptySprites : Option EmptySprite
  blocks : List RawBlockSpec

/-- The block of a node. -/
def RawBlockSpec.ofNode (n : Node) : Except Fault RawBlockSpec := do
  let r ← n.record ["magic", "version", "fields"]
  return {
    magic := ← r.need "magic" Magic.ofNode
    version := ← r.need "version" Node.word
    mappings := (← r.optional "fields" mappingsOfNode).getD [] }

/-- The output of a node. -/
def RawOutputSpec.ofNode (n : Node) : Except Fault RawOutputSpec := do
  let r ← n.record ["target", "empty_sprites", "blocks"]
  return {
    target := ⟨← r.need "target" Node.text⟩
    emptySprites := ← r.optional "empty_sprites" EmptySprite.ofNode
    blocks := ← r.withDefault "blocks" (Node.items RawBlockSpec.ofNode) [] }

/-- The outputs of a node. -/
def rawOutputsOfNode (n : Node) : Except Fault (List RawOutputSpec) := do
  let r ← n.record ["files"]
  r.need "files" (Node.items RawOutputSpec.ofNode)

/-- The name that a key of a block is, which must be a string. -/
def fieldName (magic : Magic) :
    Yaml.Value → Except DocumentError String
  | .string name => .ok name
  | key => .error (.fieldName key.shown magic.text)

/-- The bindings of all mappings in order. -/
def RawBlockSpec.flatten (b : RawBlockSpec) :
    Except DocumentError BlockSpec := do
  let fields ← b.mappings.flatten.mapM fun (key, value) => do
    return (← fieldName b.magic key, value)
  return { magic := b.magic, version := b.version, fields }

/-- The output of an output as written. -/
def RawOutputSpec.flatten (o : RawOutputSpec) :
    Except DocumentError OutputSpec := do
  let blocks ← o.blocks.mapM RawBlockSpec.flatten
  return { target := o.target, emptySprites := o.emptySprites, blocks }

namespace DataFile

/-- The data file of a text. -/
def parse (text : String) (baseDir : Path) : Except Error DataFile := do
  let outputs ← (Node.parse text >>= rawOutputsOfNode).mapError
    fun fault => .document (.data fault.message)
  let outputs ← (outputs.mapM RawOutputSpec.flatten).mapError .document
  return { baseDir, outputs }

/-- The data file at a path. -/
def load (disk : Disk) (path : Path) : Except Error DataFile := do
  let text ← (disk.readText path).mapError fun fault =>
    .file path (.system .readData fault)
  return { ← parse text (path.parent?.getD ⟨""⟩) with path }

end DataFile

end GamePack
