/-!
JSON texts as lists of lines. A value is given by its lines; arrays and
objects indent what they hold by two blanks, put a comma after every
part but the last, and stand on one line when they hold nothing.
-/
namespace GamePack.Text

/-- Lines with a comma after the last. -/
def withComma : List String → List String
  | [] => []
  | [line] => [line ++ ","]
  | line :: rest => line :: withComma rest

/-- The lines of several values, with commas between them. -/
def separated : List (List String) → List String
  | [] => []
  | [lines] => lines
  | lines :: rest => withComma lines ++ separated rest

/-- Values between brackets. -/
def bracketed (opening closing : String) (values : List (List String)) :
    List String :=
  if values.isEmpty then [opening ++ closing]
  else opening :: (separated values).map ("  " ++ ·) ++ [closing]

/-- A JSON array. -/
def jsonArray : List (List String) → List String := bracketed "[" "]"

/-- A JSON string of visible characters. -/
def jsonString (text : String) : String :=
  let escape (c : Char) : List Char :=
    if c = '\"' || c = '\\' then ['\\', c] else [c]
  String.ofList ('\"' :: text.toList.flatMap escape ++ ['\"'])

/-- A value under its key. -/
def jsonField (key : String) : List String → List String
  | [] => []
  | line :: rest => (jsonString key ++ ": " ++ line) :: rest

/-- A JSON object. -/
def jsonObject (fields : List (String × List String)) : List String :=
  bracketed "\x7b" "\x7d" (fields.map fun (key, value) => jsonField key value)

end GamePack.Text
