import GamePack.DataFile
import GamePack.Exclusion
import GamePack.Text.Blank

/-!
Manifests: the file that says where a project keeps its schema and its
data, where its output goes, and how its sprites are read. Every setting
has a value of its own, so a manifest may leave out any of them, and a
blank one leaves out all.
-/
namespace GamePack

open Yaml

/-- The settings of a project. -/
structure Manifest where
  /-- The schema file. -/
  schema : Path := ⟨"schema.yaml"⟩
  /-- Data files, and directories that are searched for them. -/
  data : List String := []
  /-- The directory that output is written to. -/
  output : Path := ⟨"dist"⟩
  /-- What is stored for fully transparent sprites. -/
  emptySprites : EmptySprite := .omitted
  /-- The index of transparent pixels. -/
  transparent : UInt8 := defaultTransparent
  /-- Patterns of the paths that a search passes over. -/
  excludes : List String := []
  deriving DecidableEq, Repr

namespace Manifest

/-- The name of the manifest in a project's directory. -/
def fileName : String := "rcdgen.yaml"

/-- The manifest of a node. -/
def ofNode (n : Node) : Except Fault Manifest := do
  let r ← n.record ["schema", "data", "output", "empty_sprites",
    "transparent", "excludes"]
  let path (n : Node) : Except Fault Path := Path.mk <$> n.text
  let byte (n : Node) : Except Fault UInt8 :=
    UInt8.ofNat <$> n.natural 255
  let texts := Node.items Node.text
  let standard : Manifest := {}
  return {
    schema := ← r.withDefault "schema" path standard.schema
    data := ← r.withDefault "data" texts standard.data
    output := ← r.withDefault "output" path standard.output
    emptySprites := ← r.withDefault "empty_sprites" EmptySprite.ofNode
      standard.emptySprites
    transparent := ← r.withDefault "transparent" byte standard.transparent
    excludes := ← r.withDefault "excludes" texts standard.excludes }

/-- The manifest of a text. -/
def parse (text : String) : Except Error Manifest :=
  if Text.isBlankText text then .ok {}
  else (Node.parse text >>= ofNode).mapError
    fun fault => .document (.manifest fault.message)

/-- The manifest in a file. -/
def load (disk : Disk) (path : Path) : Except Error Manifest := do
  let text ← (disk.readText path).mapError fun fault =>
    .file path (.system .readManifest fault)
  parse text

/-- Where data files are looked for: in the project's own directory,
unless the manifest says otherwise. -/
def sources (m : Manifest) : List String :=
  if m.data.isEmpty then ["."] else m.data

/-- Whether a search passes over a path. -/
def excludesPath (m : Manifest) (p : Path) : Bool :=
  m.excludes.any fun pattern =>
    (Exclusion.ofPattern pattern).applies p.text.toList

end Manifest

end GamePack
