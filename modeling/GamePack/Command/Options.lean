import GamePack.Path

/-!
Options on a command line. A word that starts with two dashes names an
option, a word that starts with one names several by their letters, and
every other word is an operand; after a word of two dashes only operands
follow. The value of an option stands after `=`, right after its letter,
or in the next word, which then must not look like an option itself.
-/
namespace GamePack

/-- An option that a command knows. -/
structure OptionSpec where
  name : String
  letter : Option Char := none
  /-- Whether a value belongs to it. -/
  takesValue : Bool := true
  deriving DecidableEq, Repr

/-- A word or pair of words of a command line. -/
inductive Argument where
  | option (name : String) (value : Option String)
  | operand (text : String)
  deriving DecidableEq, Repr

namespace Argument

/-- What one word says: arguments, and the name of an option whose value
is still to come. -/
structure Word where
  arguments : List Argument
  awaited : Option String := none

/-- A word that names an option, without its dashes. -/
def readName (known : List OptionSpec) (cs : List Char) : Option Word := do
  let name := String.ofList (cs.takeWhile (· != '='))
  let spec ← known.find? (·.name == name)
  match cs.dropWhile (· != '='), spec.takesValue with
  | [], true => return ⟨[], some name⟩
  | [], false => return ⟨[.option name none], none⟩
  | _ :: value, true =>
    return ⟨[.option name (some (String.ofList value))], none⟩
  | _, false => none

/-- A word of option letters, without its dash. -/
def readLetters (known : List OptionSpec) : List Char → Option Word
  | [] => some ⟨[], none⟩
  | c :: rest => do
    let spec ← known.find? (·.letter == some c)
    if spec.takesValue then
      match rest with
      | [] => return ⟨[], some spec.name⟩
      | '=' :: value =>
        return ⟨[.option spec.name (some (String.ofList value))], none⟩
      | value =>
        return ⟨[.option spec.name (some (String.ofList value))], none⟩
    else
      let word ← readLetters known rest
      return { word with
        arguments := .option spec.name none :: word.arguments }

/-- Whether a word looks like an option; a dash alone does not. -/
def looksLikeOption (word : String) : Bool :=
  match word.toList with
  | '-' :: _ :: _ => true
  | _ => false

/-- What one word says. -/
def readWord (known : List OptionSpec) (word : String) : Option Word :=
  match word.toList with
  | '-' :: '-' :: name => readName known name
  | '-' :: c :: letters => readLetters known (c :: letters)
  | _ => some ⟨[.operand word], none⟩

/-- The arguments that words say; none if an option is unknown, lacks
its value or has one it does not take. -/
def readAll (known : List OptionSpec) : List String → Option (List Argument)
  | [] => some []
  | "--" :: rest => some (rest.map .operand)
  | word :: rest => do
    let read ← readWord known word
    match read.awaited, rest with
    | none, rest => return read.arguments ++ (← readAll known rest)
    | some name, value :: rest =>
      if looksLikeOption value then none
      else
        return read.arguments ++
          .option name (some value) :: (← readAll known rest)
    | some _, [] => none

/-- The operands in order. -/
def operands (arguments : List Argument) : List String :=
  arguments.filterMap fun
    | .operand text => some text
    | .option .. => none

/-- The values of an option, one for each time it is given. -/
def given (arguments : List Argument) (name : String) :
    List (Option String) :=
  arguments.filterMap fun
    | .option given value => if given = name then some value else none
    | .operand _ => none

/-- Whether an option without a value is given; giving it twice is
refused. -/
def flag? (arguments : List Argument) (name : String) : Option Bool :=
  match given arguments name with
  | [] => some false
  | [_] => some true
  | _ => none

/-- The value of an option that may be left out; giving it twice is
refused, and so is a value that cannot be read. -/
def value? {α : Type} (arguments : List Argument) (name : String)
    (read : String → Option α) : Option (Option α) :=
  match given arguments name with
  | [] => some none
  | [some text] => (read text).map some
  | _ => none

end Argument

end GamePack
