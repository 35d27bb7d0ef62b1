import GamePack.Path

/-!
Exclusions: which paths a search for data files passes over. A pattern
is one of three rules: `dir/*` and `**/dir/*` stand for what lies in a
directory, `*end` without a slash for an ending, and every other text
for a part that occurs anywhere. The rules look at the text of a path,
with the directory that the search started from in front.
-/
namespace GamePack

/-- A rule that passes over paths. -/
inductive Exclusion where
  /-- Paths with the directory in them, or in front. -/
  | inside (directory : List Char)
  /-- Paths with an ending. -/
  | ending (text : List Char)
  /-- Paths with a part. -/
  | part (text : List Char)
  deriving DecidableEq, Repr

namespace Exclusion

/-- Whether a part occurs in a text. -/
def hasPart (part : List Char) : List Char → Bool
  | [] => part.isEmpty
  | c :: cs => part.isPrefixOf (c :: cs) || hasPart part cs

/-- A text without an ending it has. -/
def dropEnding? (ending cs : List Char) : Option (List Char) :=
  if ending.isSuffixOf cs then some (cs.take (cs.length - ending.length))
  else none

/-- The rule of a pattern that does not start with `**/`. -/
def ofBarePattern (cs : List Char) : Exclusion :=
  match cs with
  | '*' :: rest =>
    if cs.contains '/' then ofDirectoryPattern cs else .ending rest
  | _ => ofDirectoryPattern cs
where
  /-- The rule of a pattern that may end in `/*`. -/
  ofDirectoryPattern (cs : List Char) : Exclusion :=
    match dropEnding? ['/', '*'] cs with
    | some directory => .inside directory
    | none => .part cs

/-- The rule of a pattern. -/
def ofPattern (pattern : String) : Exclusion :=
  match pattern.toList with
  | '*' :: '*' :: '/' :: rest => ofBarePattern.ofDirectoryPattern rest
  | cs => ofBarePattern cs

/-- Whether a rule passes over a text. -/
def applies : Exclusion → List Char → Bool
  | .inside directory, cs =>
    (directory ++ ['/']).isPrefixOf cs ||
      hasPart ('/' :: (directory ++ ['/'])) cs
  | .ending text, cs => text.isSuffixOf cs
  | .part text, cs => hasPart text cs

end Exclusion

end GamePack
