import GamePack.DataType

/-!
Types by name. A registry starts with the builtin types; a name can be
registered once, and what a schema declares is added under its own name.
-/
namespace GamePack

/-- Types by their names. -/
structure Registry where
  types : Dictionary DataType
  deriving Repr

namespace Registry

/-- The builtin types. -/
def builtins : List (String × DataType) :=
  Numeric.all.map (fun n => (n.name, .numeric n)) ++
    [("sprite", .reference .sprite), ("block", .reference .block),
      ("text", .text), ("image_data", .imageData)]

/-- The registry of the builtin types. -/
def builtin : Registry := ⟨.ofList builtins⟩

/-- Register a type under a name that is still free. -/
def add (r : Registry) (name : String) (t : DataType) :
    Except SchemaError Registry :=
  if r.types.contains name then .error (.duplicateType name)
  else .ok ⟨r.types.insert name t⟩

/-- The type of a name. -/
def get (r : Registry) (name : String) : Except SchemaError DataType :=
  match r.types.find? name with
  | some t => .ok t
  | none => .error (.unknownType name)

/-- The enumeration of a name. -/
def getEnumeration (r : Registry) (name : String) :
    Except SchemaError Enumeration :=
  match r.get name with
  | .error cause => .error cause
  | .ok (.enumeration e) => .ok e
  | .ok other =>
    .error (.invalidDefinition name (.notEnumeration other.name))

/-- The registered names, ascending. -/
def names (r : Registry) : List String := r.types.names

end Registry

end GamePack
