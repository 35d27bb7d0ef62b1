import GamePack.Magic
import GamePack.Registry

/-!
Schemas: which kinds of blocks there are and which fields they have. A
kind of block supports a range of versions, and each field may be seen
in a window of versions only. Resolving a version gives its visible
fields in order, and fails when two of them share a name; checking tries
one version for each window edge, since nothing changes in between.
-/
namespace GamePack

/-- A field of a kind of block. -/
structure Field where
  name : String
  type : DataType
  /-- The first version that has the field; none means all earlier
  ones. -/
  minVersion : Option Nat := none
  /-- The last version that has the field; none means all later ones. -/
  maxVersion : Option Nat := none
  deriving DecidableEq, Repr

/-- Whether a version has a field. -/
def Field.isVisible (f : Field) (version : Nat) : Bool :=
  f.minVersion.all (· ≤ version) && f.maxVersion.all (version ≤ ·)

/-- A kind of block. -/
structure BlockDef where
  magic : Magic
  minVersion : Nat
  maxVersion : Nat
  /-- The fields of all versions. -/
  fields : List Field
  deriving DecidableEq, Repr

namespace BlockDef

/-- Whether a version is in the supported range. -/
def supports (b : BlockDef) (version : Nat) : Bool :=
  b.minVersion ≤ version && version ≤ b.maxVersion

/-- Put a number into an ascending row, unless it is there. -/
def insertEdge (n : Nat) : List Nat → List Nat
  | [] => [n]
  | m :: rest =>
    if n < m then n :: m :: rest
    else if n = m then m :: rest
    else m :: insertEdge n rest

/-- The versions at which the window of a field begins or has ended. -/
def windowEdges (f : Field) : List Nat :=
  f.minVersion.toList ++ (f.maxVersion.map (· + 1)).toList

/-- The supported versions at which the visible fields can change,
ascending, the first supported version among them. -/
def edgeVersions (b : BlockDef) : List Nat :=
  ((b.minVersion :: b.fields.flatMap windowEdges).filter
    b.supports).foldl (fun edges v => insertEdge v edges) []

/-- The fields that a version has, whatever their names. -/
def visibleFields (b : BlockDef) (version : Nat) : List Field :=
  b.fields.filter (·.isVisible version)

/-- The first name in a row that stands there a second time. -/
def repeatedName? (seen : List String) : List String → Option String
  | [] => none
  | name :: rest =>
    if seen.contains name then some name
    else repeatedName? (name :: seen) rest

/-- The fields of a version, in order. -/
def fieldsFor (b : BlockDef) (version : Nat) :
    Except SchemaError (List Field) :=
  if !b.supports version then
    .error (.unsupportedVersion b.magic.text version b.minVersion
      b.maxVersion)
  else
    let fields := b.visibleFields version
    match repeatedName? [] (fields.map Field.name) with
    | some name => .error (.duplicateField b.magic.text version name)
    | none => .ok fields

/-- The failures to resolve the versions at the edges. -/
def conflicts (b : BlockDef) : List SchemaError :=
  b.edgeVersions.filterMap fun version =>
    match b.fieldsFor version with
    | .error cause => some cause
    | .ok _ => none

end BlockDef

/-- The types and the kinds of blocks of a game's files. -/
structure Schema where
  registry : Registry
  /-- The kinds of blocks by the texts of their magics. -/
  blocks : Dictionary BlockDef := []
  deriving Repr

namespace Schema

/-- Add a kind of block under a magic that is still free. -/
def addBlock (s : Schema) (b : BlockDef) : Except SchemaError Schema :=
  if s.blocks.contains b.magic.text then
    .error (.duplicateBlock b.magic.text)
  else .ok { s with blocks := s.blocks.insert b.magic.text b }

/-- The kind of block that a magic names. -/
def block? (s : Schema) (magic : Magic) : Option BlockDef :=
  s.blocks.find? magic.text

/-- The fields of a version of a kind of block. -/
def resolve (s : Schema) (magic : Magic) (version : Nat) :
    Except SchemaError (List Field) :=
  match s.block? magic with
  | none => .error (.unknownMagic magic.text)
  | some b => b.fieldsFor version

/-- The failures to resolve any kind of block. -/
def check (s : Schema) : List SchemaError :=
  s.blocks.flatMap fun entry => entry.2.conflicts

end Schema

end GamePack
