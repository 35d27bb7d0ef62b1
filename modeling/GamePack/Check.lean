import GamePack.Diagnostic
import GamePack.Schema

/-!
Checks that report everything they find: whether a block sets the fields
its schema asks for, and whether every version of every kind of block
can be resolved.
-/
namespace GamePack

/-- An error for a field that is not set. -/
def missingField (magic : Magic) (version : Nat) (f : Field) :
    Diagnostic :=
  { severity := .error
    code := "rcdgen::validate::missing-field"
    message :=
      s!"Field '{f.name}' of block '{magic.text}' version {version} is " ++
        "not set"
    help := some s!"Add a value of type {f.type.name}" }

/-- A warning for a name that is no field. -/
def unusedField (magic : Magic) (version : Nat) (name : String) :
    Diagnostic :=
  { severity := .warning
    code := "rcdgen::validate::unused-field"
    message :=
      s!"Field '{name}' is not used by block '{magic.text}' version " ++
        s!"{version}"
    help := some <|
      "Check the field name and its version window in the schema" }

/-- A warning for a name that is bound again. -/
def redefinedField (magic : Magic) (name : String) : Diagnostic :=
  { severity := .warning
    code := "rcdgen::validate::redefined-field"
    message :=
      s!"Field '{name}' of block '{magic.text}' is set more than once, " ++
        "the last value is used"
    help := none }

/-- The warnings about bound names, given the names before them: one
where an unknown name stands first, and one where a name stands for the
second time. -/
def nameWarnings (magic : Magic) (version : Nat) (known : List String)
    (before : List String) : List String → Diagnostics
  | [] => []
  | name :: rest =>
    let here :=
      match before.count name with
      | 0 => if known.contains name then []
        else [unusedField magic version name]
      | 1 => [redefinedField magic name]
      | _ => []
    here ++ nameWarnings magic version known (name :: before) rest

/-- What is wrong with the names that a block binds: fields that are not
set, then names that are no fields or are bound again. -/
def checkBindings (magic : Magic) (version : Nat) (fields : List Field)
    (bound : List String) : Diagnostics :=
  (fields.filter fun f => !bound.contains f.name).map
      (missingField magic version) ++
    nameWarnings magic version (fields.map Field.name) [] bound

/-- An error for each conflict of a schema. -/
def checkSchema (schema : Schema) : Diagnostics :=
  schema.check.map fun cause =>
    { severity := .error
      code := "rcdgen::validate::schema"
      message := cause.message
      help := some distinctFieldsHelp }

end GamePack
