import GamePack.Yaml.Value

/-!
Reading values in places that accept several shapes. The value is typed
first, so texts are strings only, and numbers and booleans are never
read from strings. A record may also be given as a row of its fields in
order, and a field by its position.
-/
namespace GamePack.Yaml.Choice

/-- A string. -/
def text : Value → Except Fault String
  | .string s => .ok s
  | _ => .error (.unexpected "a string")

/-- A string or null. -/
def optionalText : Value → Except Fault (Option String)
  | .null => .ok none
  | v => some <$> text v

/-- An unsigned number of 32 bits. -/
def word : Value → Except Fault Nat
  | .int n =>
    if 0 ≤ n ∧ n < 0x100000000 then .ok n.toNat
    else .error (.unexpected "an unsigned number of 32 bits")
  | _ => .error (.unexpected "a number")

/-- A boolean. -/
def flag : Value → Except Fault Bool
  | .bool b => .ok b
  | _ => .error (.unexpected "a boolean")

/-- A list. -/
def items {α : Type} (read : Value → Except Fault α) :
    Value → Except Fault (List α)
  | .sequence items => items.mapM read
  | _ => .error (.unexpected "a sequence")

/-- The fields of a record by their names. -/
abbrev Fields := List (String × Value)

/-- The field that a key means, by name or by position, if there is such
a field. -/
def fieldOf (names : List String) : Value → Except Fault (Option String)
  | .string s => .ok (names.find? (· == s))
  | .int n =>
    if 0 ≤ n then .ok names[n.toNat]?
    else .error (.unexpected "a field name")
  | _ => .error (.unexpected "a field name")

/-- The fields among the entries of a mapping; a field must not be given
twice, and what is no field is refused or left out. -/
def fieldsOf (names : List String) (strict : Bool) :
    List (Value × Value) → Except Fault Fields
  | [] => .ok []
  | (key, value) :: rest => do
    let fields ← fieldsOf names strict rest
    match ← fieldOf names key with
    | none =>
      if strict then throw (.unknownKey key.shown) else return fields
    | some name =>
      if fields.any (·.1 == name) then throw (.repeatedKey name)
      return (name, value) :: fields

/-- The fields of one of several shapes; other keys are left out. -/
def shape (names : List String) : Value → Except Fault Fields
  | .mapping entries => fieldsOf names false entries
  | _ => .error (.unexpected "a mapping")

/-- The fields of a record, given by name or in order. -/
def record (names : List String) : Value → Except Fault Fields
  | .mapping entries => fieldsOf names true entries
  | .sequence items =>
    if names.length < items.length then .error (.unexpected "fewer fields")
    else .ok (names.zip items)
  | _ => .error (.unexpected "a record")

/-- A field that must be there. -/
def need {α : Type} (fields : Fields) (name : String)
    (read : Value → Except Fault α) : Except Fault α :=
  match fields.lookup name with
  | some v => read v
  | none => .error (.missingKey name)

/-- A field that has a value when it is left out. -/
def withDefault {α : Type} (fields : Fields) (name : String)
    (read : Value → Except Fault α) (value : α) : Except Fault α :=
  match fields.lookup name with
  | some v => read v
  | none => .ok value

end GamePack.Yaml.Choice
