import GamePack.Diagnostic
import GamePack.Disk
import GamePack.Error

/-!
Sessions: the disk that a command works on and the lines it has said. A
step of a command may fail, and what was written and said before stays.
Progress goes to the error output, as a verb that ends in a fixed column
and a message; the standard output is left for what was asked for.
-/
namespace GamePack

/-- What a command works on. -/
structure Session where
  disk : Disk
  /-- Whether details are said. -/
  verbose : Bool := false
  /-- The lines of the standard output. -/
  output : List String := []
  /-- The lines of the error output. -/
  progress : List String := []

/-- Steps of a command. -/
abbrev Action := ExceptT Error (StateM Session)

namespace Action

/-- A result that may be an error. -/
def ofExcept {α : Type} (result : Except Error α) : Action α :=
  match result with
  | .ok a => return a
  | .error e => throw e

/-- A step on the disk, which may change it and fail all the same. -/
def onDisk {α : Type} (step : Disk → Except Error α × Disk) :
    Action α := do
  let (result, disk) := step (← get).disk
  modify fun s => { s with disk }
  ofExcept result

/-- A line on the standard output. -/
def print (line : String) : Action Unit :=
  modify fun s => { s with output := s.output ++ [line] }

/-- A line on the error output. -/
def printProgress (line : String) : Action Unit :=
  modify fun s => { s with progress := s.progress ++ [line] }

/-- The column that verbs end in. -/
def verbWidth : Nat := 12

/-- A text with blanks in front, up to a width. -/
def alignRight (width : Nat) (text : String) : String :=
  String.ofList (List.replicate (width - text.length) ' ') ++ text

/-- What is done, and to what. -/
def say (verb message : String) : Action Unit :=
  printProgress (alignRight verbWidth verb ++ " " ++ message)

/-- What is said when details are wanted. -/
def sayDetail (verb message : String) : Action Unit := do
  if (← get).verbose then say verb message

/-- The lines of a diagnostic. -/
def diagnosticLines (d : Diagnostic) : List String :=
  d.text :: match d.help with
    | some help => ["  help: " ++ help]
    | none => []

/-- All lines of diagnostics. -/
def sayDiagnostics (ds : Diagnostics) : Action Unit :=
  (ds.flatMap diagnosticLines).forM printProgress

/-- How a path is shown: below the working directory without it. -/
def shown (p : Path) : Action String := do
  return Path.shown (← get).disk.workPath p

end Action

end GamePack
