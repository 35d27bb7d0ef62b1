/-!
Diagnostics: problems that are reported without ending the work. They
are kept in the order they were found, so reports can be compared and
appended to one another.
-/
namespace GamePack

/-- How serious a diagnostic is; errors stop a block from being built. -/
inductive Severity where
  | warning
  | error
  deriving DecidableEq, Repr

namespace Severity

/-- The word for a severity. -/
def text : Severity → String
  | warning => "warning"
  | error => "error"

/-- The more serious of two severities. -/
def max : Severity → Severity → Severity
  | error, _ => error
  | warning, other => other

end Severity

/-- One reported problem. -/
structure Diagnostic where
  severity : Severity
  /-- The name of the check that found it. -/
  code : String
  message : String
  help : Option String
  deriving DecidableEq, Repr

/-- A diagnostic on one line. -/
def Diagnostic.text (d : Diagnostic) : String :=
  s!"{d.severity.text}[{d.code}]: {d.message}"

/-- Diagnostics in the order they were reported. -/
abbrev Diagnostics := List Diagnostic

namespace Diagnostics

/-- The diagnostics of one severity. -/
def ofSeverity (ds : Diagnostics) (severity : Severity) : Diagnostics :=
  ds.filter (·.severity == severity)

/-- How many diagnostics have one severity. -/
def count (ds : Diagnostics) (severity : Severity) : Nat :=
  (ds.ofSeverity severity).length

/-- Whether any diagnostic is an error. -/
def hasErrors (ds : Diagnostics) : Bool := ds.any (·.severity == .error)

/-- The highest severity reported. -/
def worst? (ds : Diagnostics) : Option Severity :=
  ds.foldl (fun worst d =>
    some (match worst with
      | none => d.severity
      | some s => s.max d.severity)) none

/-- The outcome in a few words. -/
def summary (ds : Diagnostics) : String :=
  let errors := ds.count .error
  let warnings := ds.count .warning
  if 0 < errors then s!"failed: {errors} error(s), {warnings} warning(s)"
  else if 0 < warnings then s!"passed ({warnings} warning(s))"
  else "passed"

end Diagnostics

end GamePack
