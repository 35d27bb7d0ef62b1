import GamePack.Dictionary
import GamePack.Numeric

/-!
Enumerations: symbols that stand for numbers of one number type. A
symbol is defined once, and its value lies in the range of the base, so
a known symbol can always be stored.
-/
namespace GamePack

/-- A named enumeration. -/
structure Enumeration where
  name : String
  /-- The number type that values are stored in. -/
  base : Numeric
  values : Dictionary Int
  deriving DecidableEq, Repr, Inhabited

namespace Enumeration

/-- Add one symbol to the values of an enumeration. -/
def addSymbol (name : String) (base : Numeric) (values : Dictionary Int)
    (symbol : String) (value : Int) :
    Except SchemaError (Dictionary Int) :=
  match base.check value with
  | .error cause =>
    .error (.invalidDefinition name (.symbolValue symbol cause))
  | .ok value =>
    if values.contains symbol then
      .error (.invalidDefinition name (.symbolTwice symbol))
    else .ok (values.insert symbol value)

/-- An enumeration of numbers in range under distinct symbols. -/
def ofValues (name : String) (base : Numeric)
    (entries : List (String × Int)) : Except SchemaError Enumeration := do
  let values ← entries.foldlM
    (fun values entry => addSymbol name base values entry.1 entry.2) []
  return { name, base, values }

/-- An enumeration of literals, which the base reads before any symbol
is added. -/
def ofTexts (name : String) (base : Numeric)
    (entries : List (String × String)) : Except Error Enumeration := do
  let parsed ← entries.mapM fun (symbol, text) =>
    match base.parse text with
    | .ok value => .ok (symbol, value)
    | .error (.value cause) =>
      .error (.schema (.invalidDefinition name (.symbolValue symbol cause)))
    | .error e => .error e
  (ofValues name base parsed).mapError .schema

/-- The value of a symbol. -/
def lookup (e : Enumeration) (symbol : String) : Except ValueError Int :=
  match e.values.find? symbol with
  | some value => .ok value
  | none => .error (.unknownSymbol symbol e.name)

end Enumeration

end GamePack
