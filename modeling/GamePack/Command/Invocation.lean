import GamePack.Command.Options
import GamePack.Numeric
import GamePack.Sprite.Image

/-!
Invocations: what a command line asks for. The first operand names the
command, and the words after it are read with the options of that
command. A command line that does not fit is refused as a whole.
-/
namespace GamePack

/-- Options of the commands that work on a project. -/
structure ProjectOptions where
  /-- Data files and directories; those of the project if empty. -/
  data : List Path := []
  project : Path := ⟨"."⟩
  schema : Option Path := none
  emptySprites : Option EmptySprite := none
  transparent : Option UInt8 := none
  deriving DecidableEq, Repr

/-- Options of the listing of a file. -/
structure ListingOptions where
  file : Path
  json : Bool := false
  /-- The directory that previews of the sprites go to. -/
  dump : Option Path := none
  /-- A bitmap whose palette colours the previews. -/
  palette : Option Path := none
  scale : Nat := 1
  transparent : UInt8 := defaultTransparent
  deriving DecidableEq, Repr

/-- What is to be done. -/
inductive Command where
  | build (options : ProjectOptions) (output : Option Path)
  | validate (options : ProjectOptions)
  | inspect (options : ListingOptions)
  deriving DecidableEq, Repr

/-- A command and how much it says. -/
structure Invocation where
  verbose : Bool
  command : Command
  deriving DecidableEq, Repr

-- ============================================================= values

/-- A path on a command line, which is not empty. -/
def Path.ofArgument? (text : String) : Option Path :=
  if text.isEmpty then none else some ⟨text⟩

/-- A number up to a limit on a command line. -/
def numberArgument? (limit : Nat) (text : String) : Option Nat :=
  match Numeric.signedWord? 10 text.toList with
  | some (.ofNat n) => if n ≤ limit then some n else none
  | _ => none

/-- A palette index on a command line. -/
def indexArgument? (text : String) : Option UInt8 :=
  (numberArgument? 255 text).map UInt8.ofNat

-- ============================================================ options

/-- The option that every command has. -/
def verboseOption : OptionSpec :=
  { name := "verbose", letter := some 'v', takesValue := false }

/-- The options of the commands that work on a project. -/
def projectOptions : List OptionSpec :=
  [verboseOption,
    { name := "project", letter := some 'C' },
    { name := "schema" },
    { name := "empty-sprites" },
    { name := "transparent" }]

/-- The options of a build. -/
def buildOptions : List OptionSpec :=
  { name := "output", letter := some 'o' } :: projectOptions

/-- The options of a listing. -/
def listingOptions : List OptionSpec :=
  [verboseOption,
    { name := "json", takesValue := false },
    { name := "dump" },
    { name := "palette" },
    { name := "scale" },
    { name := "transparent" }]

-- =========================================================== commands

/-- The project options among arguments. -/
def ProjectOptions.ofArguments? (arguments : List Argument) :
    Option ProjectOptions := do
  let path := Path.ofArgument?
  return {
    data := ← (Argument.operands arguments).mapM path
    project := (← Argument.value? arguments "project" path).getD ⟨"."⟩
    schema := ← Argument.value? arguments "schema" path
    emptySprites :=
      ← Argument.value? arguments "empty-sprites" EmptySprite.ofText?
    transparent :=
      ← Argument.value? arguments "transparent" indexArgument? }

/-- The listing options among arguments. -/
def ListingOptions.ofArguments? (arguments : List Argument) :
    Option ListingOptions := do
  let path := Path.ofArgument?
  let [file] := Argument.operands arguments | none
  let scale ←
    Argument.value? arguments "scale" (numberArgument? 0xffffffff)
  let transparent ←
    Argument.value? arguments "transparent" indexArgument?
  return {
    file := ← path file
    json := ← Argument.flag? arguments "json"
    dump := ← Argument.value? arguments "dump" path
    palette := ← Argument.value? arguments "palette" path
    scale := scale.getD 1
    transparent := transparent.getD defaultTransparent }

/-- The command of a name with the words after it, and whether they ask
for details. -/
def Command.ofWords? (name : String) (words : List String) :
    Option (Command × Bool) := do
  let known ← match name with
    | "build" => some buildOptions
    | "validate" => some projectOptions
    | "inspect" => some listingOptions
    | _ => none
  let arguments ← Argument.readAll known words
  let verbose ← Argument.flag? arguments "verbose"
  let command ← match name with
    | "build" => do
      let options ← ProjectOptions.ofArguments? arguments
      let output ← Argument.value? arguments "output" Path.ofArgument?
      pure (Command.build options output)
    | "validate" =>
      Command.validate <$> ProjectOptions.ofArguments? arguments
    | _ => Command.inspect <$> ListingOptions.ofArguments? arguments
  return (command, verbose)

/-- The words of a command line. Options in front of the command may ask
for details, and so may those after it. -/
def Invocation.ofWords? (words : List String) : Option Invocation := do
  let front := words.takeWhile Argument.looksLikeOption
  let name :: rest := words.drop front.length | none
  let arguments ←
    if front.contains "--" then none
    else Argument.readAll [verboseOption] front
  let verbose ← Argument.flag? arguments "verbose"
  let (command, details) ← Command.ofWords? name rest
  return { verbose := verbose || details, command }

end GamePack
