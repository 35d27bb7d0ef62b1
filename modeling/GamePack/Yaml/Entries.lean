import GamePack.Yaml.Choice

/-!
Reading records and lists from values that were read before their shape
was known. Tags make no difference except where null is expected; texts
are strings only, and floating point numbers are no whole numbers.
-/
namespace GamePack.Yaml.Value

/-- The value under its tags. -/
def untagged : Value → Value
  | .tagged _ value => untagged value
  | v => v

/-- Whether a tag occurs anywhere in a value. -/
def hasTag : Value → Bool
  | .tagged _ _ => true
  | .sequence items => anyTag items
  | .mapping entries => anyEntryTag entries
  | _ => false
where
  /-- Whether a tag occurs anywhere in a row of values. -/
  anyTag : List Value → Bool
    | [] => false
    | item :: items => hasTag item || anyTag items
  /-- Whether a tag occurs anywhere in the entries of a mapping. -/
  anyEntryTag : List (Value × Value) → Bool
    | [] => false
    | (key, value) :: rest => hasTag key || hasTag value || anyEntryTag rest

/-- A string. -/
def text (v : Value) : Except Fault String :=
  match v.untagged with
  | .string s => .ok s
  | _ => .error (.unexpected "a string")

/-- A whole number between two bounds. -/
def number (low high : Int) (v : Value) : Except Fault Int :=
  match v.untagged with
  | .int n =>
    if low ≤ n ∧ n ≤ high then .ok n
    else .error (.unexpected "a number in range")
  | _ => .error (.unexpected "a number")

/-- An unsigned number of 32 bits. -/
def word (v : Value) : Except Fault Nat :=
  Int.toNat <$> number 0 0xffffffff v

/-- A signed number of 32 bits. -/
def signedWord (v : Value) : Except Fault Int :=
  number (-0x80000000) 0x7fffffff v

/-- A boolean. -/
def flag (v : Value) : Except Fault Bool :=
  match v.untagged with
  | .bool b => .ok b
  | _ => .error (.unexpected "a boolean")

/-- A value that may be null. -/
def optional {α : Type} (read : Value → Except Fault α) :
    Value → Except Fault (Option α)
  | .null => .ok none
  | v => some <$> read v

/-- A list; null stands for an empty one. -/
def items {α : Type} (read : Value → Except Fault α) (v : Value) :
    Except Fault (List α) :=
  match v.untagged with
  | .sequence items => items.mapM read
  | .null => .ok []
  | _ => .error (.unexpected "a sequence")

/-- The fields of a record, each of them known and given once. -/
def record (known : List String) (entries : List (Value × Value)) :
    Except Fault Choice.Fields :=
  entries.foldlM (fun earlier (key, value) => do
    let name ← key.text
    if !known.contains name then throw (.unknownKey name)
    else if earlier.any (·.1 == name) then throw (.repeatedKey name)
    else return earlier ++ [(name, value)]) []

/-- One string, or a list of strings. -/
def oneOrMany (v : Value) : Except Fault (List String) :=
  if v.hasTag then .error (.unexpected "no tag")
  else match v with
    | .string s => .ok [s]
    | v => Choice.items Choice.text v

end GamePack.Yaml.Value
