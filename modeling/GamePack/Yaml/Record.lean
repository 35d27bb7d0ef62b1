import GamePack.Yaml.Value

/-!
Reading nodes where the shape is known. A text is any scalar, as it is
written; numbers and booleans are plain scalars, or literal ones with the
tag of their type; a record is a mapping whose keys are all known and
occur once. A plain scalar without text stands for an empty list, mapping
or record.
-/
namespace GamePack.Yaml

/-- A field of a record by its name. -/
abbrev Record := List (String × Node)

namespace Node

/-- Whether nothing is written where a node is expected. -/
def isBlank : Node → Bool
  | .scalar _ .plain text => text.isEmpty
  | _ => false

/-- The text of a scalar, whatever its style and tag. -/
def text : Node → Except Fault String
  | .scalar _ _ text => .ok text
  | _ => .error (.unexpected "a string")

/-- The text of a scalar that may be read as a value of a type: a plain
one, or a literal one with the tag of the type. -/
def typedText? (type : CoreType) : Node → Option String
  | .scalar _ .plain text => some text
  | .scalar (some tag) .literal text =>
    if tag = .core type then some text else none
  | _ => none

/-- A whole number of at most 64 bits that does not exceed a limit. -/
def natural (limit : Nat) (n : Node) : Except Fault Nat :=
  match (n.typedText? .int).bind fun text => natural? text.toList with
  | some n =>
    if n ≤ limit then .ok n else .error (.unexpected "a smaller number")
  | none => .error (.unexpected "a whole number")

/-- An unsigned number of 32 bits. -/
def word : Node → Except Fault Nat := natural 0xffffffff

/-- A boolean. -/
def flag (n : Node) : Except Fault Bool :=
  Yaml.need "a boolean" ((n.typedText? .bool).bind bool?)

/-- A value that may be null. -/
def optional {α : Type} (read : Node → Except Fault α) (n : Node) :
    Except Fault (Option α) :=
  match n with
  | .scalar none .plain text =>
    if text.isEmpty || isNull text then .ok none else some <$> read n
  | .scalar (some tag) .plain text =>
    if tag = .core .null then
      if isNull text then .ok none else .error (.unexpected "null")
    else some <$> read n
  | _ => some <$> read n

/-- A list. -/
def items {α : Type} (read : Node → Except Fault α) (n : Node) :
    Except Fault (List α) :=
  match n with
  | .sequence _ items => items.mapM read
  | n => if n.isBlank then .ok [] else .error (.unexpected "a sequence")

/-- The entries of a mapping whose keys are texts. -/
def entries (n : Node) : Except Fault (List (String × Node)) :=
  match n with
  | .mapping _ entries => entries.mapM fun (key, value) => do
    return (← key.text, value)
  | n => if n.isBlank then .ok [] else .error (.unexpected "a mapping")

/-- The fields of a record, each of them known and given once. -/
def record (known : List String) (n : Node) : Except Fault Record := do
  let fields ← n.entries
  fields.foldlM (fun earlier (key, value) =>
    if !known.contains key then throw (.unknownKey key)
    else if earlier.any (·.1 == key) then throw (.repeatedKey key)
    else return earlier ++ [(key, value)]) []

end Node

namespace Record

/-- A field that must be there. -/
def need {α : Type} (r : Record) (name : String)
    (read : Node → Except Fault α) : Except Fault α :=
  match r.lookup name with
  | some n => read n
  | none => .error (.missingKey name)

/-- A field that has a value when it is left out. -/
def withDefault {α : Type} (r : Record) (name : String)
    (read : Node → Except Fault α) (value : α) : Except Fault α :=
  match r.lookup name with
  | some n => read n
  | none => .ok value

/-- A field that may be null or left out. -/
def optional {α : Type} (r : Record) (name : String)
    (read : Node → Except Fault α) : Except Fault (Option α) :=
  r.withDefault name (Node.optional read) none

end Record

end GamePack.Yaml
