import GamePack.Encoding
import GamePack.Magic

/-!
Blocks: the records of a file. A block has a magic, a version, declared
fields with their types, and values for some of them; its payload is the
values in declared order. Two blocks are equal when all of these agree.
-/
namespace GamePack

/-- One block of a file. -/
structure Block where
  magic : Magic
  version : Nat
  fields : List (String × DataType)
  values : Dictionary Value := []
  deriving DecidableEq, Repr

namespace Block

/-- Whether a field is declared. -/
def declares (b : Block) (name : String) : Bool :=
  b.fields.any (·.1 == name)

/-- Assign a value to a declared field, in place of an earlier one. -/
def set (b : Block) (name : String) (value : Value) :
    Except ConsistencyError Block :=
  if b.declares name then
    .ok { b with values := b.values.insert name value }
  else .error (.unknownField b.magic.text name)

/-- The value of a field. -/
def get? (b : Block) (name : String) : Option Value := b.values.find? name

/-- The declared fields without a value. -/
def missing (b : Block) : List String :=
  (b.fields.map Prod.fst).filter fun name => !b.values.contains name

/-- The value of a declared field, which must have one. -/
def value (b : Block) (name : String) : Except ConsistencyError Value :=
  match b.get? name with
  | some value => .ok value
  | none => .error (.missingValue b.magic.text name)

/-- The sum of the sizes of all values. -/
def payloadSize (b : Block) : Except ConsistencyError Nat := do
  let sizes ← b.fields.mapM fun (name, t) => do t.size (← b.value name)
  return total sizes

/-- The bytes of all values in declared order. -/
def encodeFields (b : Block) : Except Error Bytes := do
  let parts ← b.fields.mapM fun (name, t) => do
    t.encode (← (b.value name).mapError .consistency)
  return parts.flatten

/-- The payload, whose length is the declared size. -/
def payload (b : Block) : Except Error Bytes := do
  let declared ← b.payloadSize.mapError .consistency
  let bytes ← b.encodeFields
  if bytes.length = declared then return bytes
  else throw (.consistency
    (.lengthMismatch b.magic.text declared bytes.length))

/-- The record of a block: magic, version, payload length, payload. -/
def record (b : Block) : Except Error Bytes := do
  let bytes ← b.payload
  if 0x100000000 ≤ bytes.length then
    throw (.consistency (.tooLarge b.magic.text bytes.length))
  return b.magic.bytes ++ leBytes 4 b.version ++ leBytes 4 bytes.length
    ++ bytes

end Block

end GamePack
