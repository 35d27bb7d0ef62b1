import GamePack.Schema
import GamePack.Schema.Document

/-!
From a schema document to a schema. The named types are registered
first: enumerations, then bitsets, then structures, each of which may
use what was registered before it. Then the type expressions of the
blocks are resolved against all of them. A type without a name of its
own is named after the field or structure it stands in.
-/
namespace GamePack

open Yaml

/-- The count type of a list that names none. -/
def defaultCountType : String := "uint8"

/-- The number type of a name in a definition. -/
def numericNamed (name owner : String) : Except SchemaError Numeric :=
  match Numeric.ofName? name with
  | some n => .ok n
  | none => .error (.invalidDefinition owner (.notNumeric name))

namespace EnumerationSpec

/-- The whole number that stands for a symbol, if any: a number, or a
string that is a literal of the base. -/
def numberOf? (base : Numeric) : Yaml.Value → Except Error (Option Int)
  | .int n => .ok (Numeric.word? n)
  | .string s => Except.toOption <$> Error.caught (base.parse s)
  | _ => .ok none

/-- The number of one symbol of an enumeration. -/
def numbered (owner : String) (base : Numeric)
    (entry : String × Yaml.Value) : Except Error (String × Int) := do
  match ← numberOf? base entry.2 with
  | some n => return (entry.1, n)
  | none =>
    throw (.schema (.invalidDefinition owner (.symbolNotInteger entry.1)))

/-- The enumeration that is meant. -/
def build (e : EnumerationSpec) : Except Error Enumeration := do
  let base ← (numericNamed e.base e.name).mapError .schema
  let values ← e.values.mapM (numbered e.name base)
  (Enumeration.ofValues e.name base values).mapError .schema

end EnumerationSpec

/-- The bitset of a name, a storage and bit fields as written. -/
def buildBitSet (registry : Registry) (name storage : String)
    (fields : List BitFieldSpec) : Except SchemaError BitSet := do
  let storage ← numericNamed storage name
  let fields ← fields.mapM fun f => do
    let source ← registry.getEnumeration f.source
    return {
      name := f.name, source, start := f.start, min := f.min
      max := f.max, bitIndex := f.bitIndex : BitField }
  BitSet.ofFields name storage fields

/-- The structure of a name and sub-fields with distinct names. -/
def buildStruct (name : String) (fields : List (String × DataType)) :
    Except SchemaError DataType :=
  match BlockDef.repeatedName? [] (fields.map Prod.fst) with
  | some field => .error (.invalidDefinition name (.subFieldTwice field))
  | none => .ok (.struct name fields)

namespace TypeExpr

mutual

/-- The type that an expression means; `owner` names a structure or a
bitset without a name. -/
def resolve (registry : Registry) (owner : String) :
    TypeExpr → Except SchemaError DataType
  | named name => registry.get name
  | list element count => do
    let count ← numericNamed (count.getD defaultCountType) owner
    return .list count (← resolve registry owner element)
  | struct fields => do
    buildStruct owner (← resolveFields registry owner fields)
  | bits storage fields => do
    return .bitSet (← buildBitSet registry owner storage fields)

/-- The types that the expressions of sub-fields mean. -/
def resolveFields (registry : Registry) (owner : String) :
    List (String × TypeExpr) → Except SchemaError (List (String × DataType))
  | [] => .ok []
  | (name, e) :: rest => do
    let t ← resolve registry owner e
    return (name, t) :: (← resolveFields registry owner rest)

end

end TypeExpr

/-- Register an enumeration. -/
def Registry.addEnumeration (r : Registry) (e : EnumerationSpec) :
    Except Error Registry := do
  let e ← e.build
  (r.add e.name (.enumeration e)).mapError .schema

/-- Register a bitset. -/
def Registry.addBitSet (r : Registry) (b : BitSetSpec) :
    Except SchemaError Registry := do
  let b ← buildBitSet r b.name b.storage b.fields
  r.add b.name (.bitSet b)

/-- Register a structure. -/
def Registry.addStruct (r : Registry) (s : StructSpec) :
    Except SchemaError Registry := do
  let fields ← TypeExpr.resolveFields r s.name s.fields
  r.add s.name (← buildStruct s.name fields)

/-- A field whose type is looked up; `magic` names its block. -/
def FieldSpec.build (f : FieldSpec) (registry : Registry)
    (magic : Magic) : Except SchemaError Field := do
  let type ← f.type.resolve registry s!"{magic.text}.{f.name}"
  return { name := f.name, type
           minVersion := f.minVersion, maxVersion := f.maxVersion }

/-- A kind of block whose types are looked up. -/
def BlockDefSpec.build (b : BlockDefSpec) (registry : Registry) :
    Except SchemaError BlockDef := do
  if b.maxVersion < b.minVersion then
    throw (.invalidDefinition b.magic.text
      (.versionsInverted b.minVersion b.maxVersion))
  let fields ← b.fields.mapM (·.build registry b.magic)
  return { magic := b.magic, minVersion := b.minVersion
           maxVersion := b.maxVersion, fields }

namespace SchemaDocument

/-- A registry with the bitsets and then the structures of a document. -/
def register (d : SchemaDocument) (r : Registry) :
    Except SchemaError Registry := do
  let r ← d.bitSets.foldlM Registry.addBitSet r
  d.structs.foldlM Registry.addStruct r

/-- A schema of registered types with the blocks of a document. -/
def define (d : SchemaDocument) (registry : Registry) :
    Except SchemaError Schema :=
  d.blocks.foldlM (fun (schema : Schema) b => do
    schema.addBlock (← b.build registry)) { registry }

/-- The registry of the builtin types and those of a document. Only the
numbers of the enumerations can end in a panic. -/
def registry (d : SchemaDocument) : Except Error Registry := do
  let r ← d.enumerations.foldlM Registry.addEnumeration .builtin
  (d.register r).mapError .schema

/-- The schema that a document means. -/
def build (d : SchemaDocument) : Except Error Schema := do
  let registry ← d.registry
  (d.define registry).mapError .schema

end SchemaDocument

namespace Schema

/-- The schema of a text. -/
def parse (text : String) : Except Error Schema := do
  let document ← (SchemaDocument.parse text).mapError fun fault =>
    .document (.schema fault.message)
  document.build

/-- The schema in a file. -/
def load (disk : Disk) (path : Path) : Except Error Schema := do
  let text ← (disk.readText path).mapError fun fault =>
    .file path (.system .readSchema fault)
  parse text

end Schema

end GamePack
