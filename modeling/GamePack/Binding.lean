import GamePack.DataType
import GamePack.Error
import GamePack.FieldValue
import GamePack.Yaml.Entries

/-!
From the values of a data file to bound values. A scalar is bound by its
own shape. Mappings look alike, so they are read as the declared type
asks: a region of a sheet, a grid, localized strings, a bitset, or a
structure. A structure may also be given as a grid, unless it has a
sub-field of the name that marks grids.
-/
namespace GamePack

open Yaml

/-- A bound value that does not suit its type. -/
def mismatch (expected : Expectation) (t : DataType) : Error :=
  .value (.mismatch expected t.name)

/-- The name that a key is, which must be a string. -/
def keyName : Yaml.Value → Except Error String
  | .string name => .ok name
  | key => .error (.document (.nameExpected key.shown))

-- =================================================== regions and grids

/-- The region of a sheet that a record describes. -/
def regionOf (baseDir : Path) (entries : List (Yaml.Value × Yaml.Value)) :
    Except Fault SheetRegion := do
  let r ← Yaml.Value.record ["sheet", "x", "y", "width", "height",
    "x_offset", "y_offset", "crop"] entries
  return {
    sheet := baseDir.join ⟨← Choice.need r "sheet" Value.text⟩
    x := ← Choice.withDefault r "x" Value.word 0
    y := ← Choice.withDefault r "y" Value.word 0
    width :=
      ← Choice.withDefault r "width" (Value.optional Value.word) none
    height :=
      ← Choice.withDefault r "height" (Value.optional Value.word) none
    xOffset := ← Choice.withDefault r "x_offset" Value.signedWord 0
    yOffset := ← Choice.withDefault r "y_offset" Value.signedWord 0
    crop := ← Choice.withDefault r "crop" Value.flag true }

/-- The grid that a record describes. -/
def gridOf (baseDir : Path) (entries : List (Yaml.Value × Yaml.Value)) :
    Except Fault SheetGrid := do
  let r ← Yaml.Value.record ["sheet", "cell_width", "cell_height",
    "x_offset", "y_offset", "layout"] entries
  return {
    sheet := baseDir.join ⟨← Choice.need r "sheet" Value.text⟩
    cellWidth :=
      ← Choice.withDefault r "cell_width" (Value.optional Value.word) none
    cellHeight :=
      ← Choice.withDefault r "cell_height" (Value.optional Value.word) none
    xOffset := ← Choice.withDefault r "x_offset" Value.signedWord 0
    yOffset := ← Choice.withDefault r "y_offset" Value.signedWord 0
    layout := ← Choice.need r "layout" (Value.items (Value.items Value.text)) }

/-- Bind a region. -/
def bindRegion (baseDir : Path)
    (entries : List (Yaml.Value × Yaml.Value)) : Except Error FieldValue :=
  match regionOf baseDir entries with
  | .ok region => .ok (.image region)
  | .error fault => .error (.document (.region fault.message))

/-- Bind a grid. -/
def bindGrid (baseDir : Path)
    (entries : List (Yaml.Value × Yaml.Value)) : Except Error FieldValue :=
  match gridOf baseDir entries with
  | .ok grid => .ok (.grid grid)
  | .error fault => .error (.document (.grid fault.message))

/-- The key that marks a grid. -/
def layoutKey : String := "layout"

-- ================================================== symbols and texts

/-- Bind the symbols of a bitset. -/
def bindBits (t : DataType) (entries : List (Yaml.Value × Yaml.Value)) :
    Except Error FieldValue := do
  let literal ← entries.mapM fun (key, value) => do
    let symbols ← value.oneOrMany.mapError fun _ =>
      mismatch .symbolsPerBitField t
    return (← keyName key, symbols)
  return .bits literal

/-- Add the texts of one string in all its languages. -/
def addLanguages (strings : Strings) (name : String)
    (languages : List (Yaml.Value × Yaml.Value)) : Except Error Strings :=
  languages.foldlM (fun strings (language, forms) => do
    let forms ← forms.oneOrMany.mapError fun _ =>
      .value (.text (.needsForms name))
    let language ← keyName language
    (strings.add name language forms).mapError .value) strings

/-- Bind localized strings. -/
def bindStrings (entries : List (Yaml.Value × Yaml.Value)) :
    Except Error FieldValue := do
  let strings ← entries.foldlM (fun strings (key, languages) => do
    let name ← keyName key
    match languages.untagged with
    | .mapping languages => addLanguages strings name languages
    | _ => throw (.value (.text (.needsLanguages name)))) ({} : Strings)
  return .text strings

-- ============================================================ binding

/-- The type of a sub-field. -/
def subFieldType (record : String) (fields : List (String × DataType))
    (name : String) : Except Error DataType :=
  match fields.lookup name with
  | some t => .ok t
  | none => .error (.value (.mismatch (.subFieldOf record name) record))

/-- Whether the entries given for a structure describe a grid. -/
def meansGrid (fields : List (String × DataType))
    (entries : List (Yaml.Value × Yaml.Value)) : Bool :=
  (Yaml.Value.get? entries layoutKey).isSome &&
    !fields.any (·.1 == layoutKey)

mutual

/-- Bind a value to a field of a type; paths start from a directory. -/
def bind (baseDir : Path) :
    Yaml.Value → DataType → Except Error FieldValue
  | .null, _ => .ok (.block none)
  | .int n, t =>
    match Numeric.word? n with
    | some n => .ok (.number n)
    | none => .error (.value (.unreadable (toString n) t.name))
  | .float f, t => .error (.value (.unreadable f.text t.name))
  | .string s, _ => .ok (.symbol s)
  | .sequence items, t =>
    match t with
    | .list _ element => do
      return .list (← bindItems baseDir element items)
    | t => .error (mismatch .scalarOrMapping t)
  | .mapping entries, t =>
    match t with
    | .reference _ | .imageData => bindRegion baseDir entries
    | .text => bindStrings entries
    | .bitSet _ => bindBits t entries
    | .list _ _ => bindGrid baseDir entries
    | .struct name fields =>
      if meansGrid fields entries then bindGrid baseDir entries
      else do
        return .struct (← bindFields baseDir name fields entries)
    | t => .error (mismatch .scalar t)
  | .tagged _ value, t => bind baseDir value t
  | .bool _, t => .error (mismatch .numberSymbolOrMapping t)

/-- Bind the items of a list. -/
def bindItems (baseDir : Path) (element : DataType) :
    List Yaml.Value → Except Error (List FieldValue)
  | [] => .ok []
  | item :: items => do
    let bound ← bind baseDir item element
    return bound :: (← bindItems baseDir element items)

/-- Bind the sub-fields of a structure, in the order of the file. -/
def bindFields (baseDir : Path) (record : String)
    (fields : List (String × DataType)) :
    List (Yaml.Value × Yaml.Value) →
      Except Error (List (String × FieldValue))
  | [] => .ok []
  | (key, value) :: rest => do
    let name ← keyName key
    let t ← subFieldType record fields name
    let bound ← (bind baseDir value t).mapError (.field record name)
    return (name, bound) :: (← bindFields baseDir record fields rest)

end

end GamePack
