import GamePack.Dictionary
import GamePack.Magic
import GamePack.Yaml.Choice
import GamePack.Yaml.Record

/-!
Schema documents: what a schema says before its names are looked up.
Types are expressions: a name, a list of a type, a structure with fields
of its own, or a bitset with bits of its own.
-/
namespace GamePack

open Yaml

/-- A bit field as written. -/
structure BitFieldSpec where
  name : String
  /-- The name of the enumeration that gives the symbols. -/
  source : String
  start : Nat
  min : Nat := 0
  max : Nat := 1
  bitIndex : Bool := false
  deriving DecidableEq, Repr

/-- A type as written. -/
inductive TypeExpr where
  | named (name : String)
  /-- A list, with the name of the type of its count if one is given. -/
  | list (element : TypeExpr) (count : Option String)
  | struct (fields : List (String × TypeExpr))
  | bits (storage : String) (fields : List BitFieldSpec)
  deriving Repr, Inhabited

/-- An enumeration as written; its values are sorted by symbol. -/
structure EnumerationSpec where
  name : String
  base : String
  values : Dictionary Yaml.Value
  deriving Repr

/-- A bitset as written. -/
structure BitSetSpec where
  name : String
  storage : String
  fields : List BitFieldSpec
  deriving DecidableEq, Repr

/-- A structure as written. -/
structure StructSpec where
  name : String
  fields : List (String × TypeExpr)
  deriving Repr

/-- A field of a kind of block as written. -/
structure FieldSpec where
  name : String
  type : TypeExpr
  minVersion : Option Nat
  maxVersion : Option Nat
  deriving Repr

/-- A kind of block as written. -/
structure BlockDefSpec where
  magic : Magic
  minVersion : Nat
  maxVersion : Nat
  fields : List FieldSpec
  deriving Repr

/-- A schema as written. -/
structure SchemaDocument where
  enumerations : List EnumerationSpec := []
  bitSets : List BitSetSpec := []
  structs : List StructSpec := []
  blocks : List BlockDefSpec := []
  deriving Repr

-- ================================================== type expressions

namespace BitFieldSpec

/-- The keys of a bit field. -/
def keys : List String :=
  ["name", "enum", "start", "min", "max", "bit_index"]

/-- The bit field of a node. -/
def ofNode (n : Node) : Except Fault BitFieldSpec := do
  let r ← n.record keys
  return {
    name := ← r.need "name" Node.text
    source := ← r.need "enum" Node.text
    start := ← r.need "start" Node.word
    min := ← r.withDefault "min" Node.word 0
    max := ← r.withDefault "max" Node.word 1
    bitIndex := ← r.withDefault "bit_index" Node.flag false }

/-- The bit field of a value inside a type expression. -/
def ofValue (v : Yaml.Value) : Except Fault BitFieldSpec := do
  let r ← Choice.record keys v
  return {
    name := ← Choice.need r "name" Choice.text
    source := ← Choice.need r "enum" Choice.text
    start := ← Choice.need r "start" Choice.word
    min := ← Choice.withDefault r "min" Choice.word 0
    max := ← Choice.withDefault r "max" Choice.word 1
    bitIndex := ← Choice.withDefault r "bit_index" Choice.flag false }

end BitFieldSpec

namespace TypeExpr

/-- The first reading of several that succeeds. -/
def firstOf {α : Type} : List (Except Fault α) → Except Fault α
  | [] => .error (.unexpected "a type")
  | .ok a :: _ => .ok a
  | .error _ :: rest => firstOf rest

/-- The type of a value, which has at most so many levels. The shapes
are tried in order: a name, a list, a structure, a bitset. -/
def ofValue (levels : Nat) (v : Yaml.Value) : Except Fault TypeExpr :=
  match levels with
  | 0 => .error .tooDeep
  | levels + 1 =>
    let subField (v : Yaml.Value) : Except Fault (String × TypeExpr) := do
      let r ← Choice.record ["name", "type"] v
      return (← Choice.need r "name" Choice.text,
        ← Choice.need r "type" (ofValue levels))
    firstOf [
      named <$> Choice.text v,
      do
        let r ← Choice.shape ["list", "count"] v
        let element ← Choice.need r "list" (ofValue levels)
        return .list element
          (← Choice.withDefault r "count" Choice.optionalText none),
      do
        let r ← Choice.shape ["fields"] v
        return .struct (← Choice.need r "fields" (Choice.items subField)),
      do
        let r ← Choice.shape ["storage", "bits"] v
        return .bits (← Choice.need r "storage" Choice.text)
          (← Choice.need r "bits" (Choice.items BitFieldSpec.ofValue))]

/-- The type of a node. -/
def ofNode (n : Node) : Except Fault TypeExpr := do
  ofValue (Tree.maxDepth + 1) (← n.choice)

end TypeExpr

-- ========================================================== sections

/-- A named type of a node: a sub-field of a structure. -/
def subFieldOfNode (n : Node) : Except Fault (String × TypeExpr) := do
  let r ← n.record ["name", "type"]
  return (← r.need "name" Node.text, ← r.need "type" TypeExpr.ofNode)

/-- The values of an enumeration; the last of one symbol counts. -/
def symbolsOfNode (n : Node) : Except Fault (Dictionary Yaml.Value) := do
  let entries ← (← n.entries).mapM fun (symbol, value) => do
    return (symbol, ← value.value)
  return .ofList entries

/-- The enumeration of a node. -/
def EnumerationSpec.ofNode (n : Node) : Except Fault EnumerationSpec := do
  let r ← n.record ["name", "type", "values"]
  return {
    name := ← r.need "name" Node.text
    base := ← r.need "type" Node.text
    values := ← r.need "values" symbolsOfNode }

/-- The bitset of a node. -/
def BitSetSpec.ofNode (n : Node) : Except Fault BitSetSpec := do
  let r ← n.record ["name", "storage", "fields"]
  return {
    name := ← r.need "name" Node.text
    storage := ← r.need "storage" Node.text
    fields := ← r.need "fields" (Node.items BitFieldSpec.ofNode) }

/-- The structure of a node. -/
def StructSpec.ofNode (n : Node) : Except Fault StructSpec := do
  let r ← n.record ["name", "fields"]
  return {
    name := ← r.need "name" Node.text
    fields := ← r.need "fields" (Node.items subFieldOfNode) }

/-- The field of a node; its description is read and left out. -/
def FieldSpec.ofNode (n : Node) : Except Fault FieldSpec := do
  let r ← n.record
    ["name", "type", "minversion", "maxversion", "description"]
  let _ ← r.optional "description" Node.text
  return {
    name := ← r.need "name" Node.text
    type := ← r.need "type" TypeExpr.ofNode
    minVersion := ← r.optional "minversion" Node.word
    maxVersion := ← r.optional "maxversion" Node.word }

/-- The magic of a node. -/
def Magic.ofNode (n : Node) : Except Fault Magic := do
  match Magic.parse (← n.text) with
  | .ok magic => return magic
  | .error _ => throw (.unexpected "a magic")

/-- The kind of block of a node. -/
def BlockDefSpec.ofNode (n : Node) : Except Fault BlockDefSpec := do
  let r ← n.record ["magic", "minversion", "maxversion", "fields"]
  return {
    magic := ← r.need "magic" Magic.ofNode
    minVersion := ← r.need "minversion" Node.word
    maxVersion := ← r.need "maxversion" Node.word
    fields := ← r.withDefault "fields" (Node.items FieldSpec.ofNode) [] }

namespace SchemaDocument

/-- The schema of a node. -/
def ofNode (n : Node) : Except Fault SchemaDocument := do
  let r ← n.record ["enums", "bitsets", "structs", "blocks"]
  return {
    enumerations :=
      ← r.withDefault "enums" (Node.items EnumerationSpec.ofNode) []
    bitSets := ← r.withDefault "bitsets" (Node.items BitSetSpec.ofNode) []
    structs := ← r.withDefault "structs" (Node.items StructSpec.ofNode) []
    blocks := ← r.withDefault "blocks" (Node.items BlockDefSpec.ofNode) [] }

/-- The schema of a text. -/
def parse (text : String) : Except Fault SchemaDocument := do
  ofNode (← Node.parse text)

end SchemaDocument

end GamePack
