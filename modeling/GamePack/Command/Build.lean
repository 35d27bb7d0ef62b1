import GamePack.Command.Invocation
import GamePack.Command.Session
import GamePack.Compiler
import GamePack.Discovery
import GamePack.Png.Image
import GamePack.Schema.Loading

/-!
The commands that work on a project. Building compiles the data files in
order and writes what each gives before the next one is read; the first
error ends it. Validating compiles every data file, writes nothing, and
fails at the end if any file did.
-/
namespace GamePack

/-- A project with what the command line changes. -/
structure ProjectSetup where
  schema : Path
  outputDir : Path
  manifest : Manifest
  dataFiles : List Path
  deriving Repr

namespace ProjectOptions

/-- The project that the options ask for. -/
def setUp (o : ProjectOptions) (disk : Disk) :
    Except Error ProjectSetup := do
  let project ← Project.discover disk o.project
  let manifest := project.manifest
  return {
    schema := o.schema.getD project.schemaPath
    outputDir := project.outputDir
    dataFiles :=
      if o.data.isEmpty then project.dataFiles
      else manifest.filesOfSources disk ⟨""⟩ (o.data.map Path.text)
    manifest := { manifest with
      emptySprites := o.emptySprites.getD manifest.emptySprites
      transparent := o.transparent.getD manifest.transparent } }

end ProjectOptions

namespace ProjectSetup

/-- The settings of all outputs, which go to a directory. -/
def buildOptions (setup : ProjectSetup) (outputDir : Path) :
    BuildOptions :=
  { outputDir
    emptySprites := setup.manifest.emptySprites
    transparent := setup.manifest.transparent }

end ProjectSetup

/-- Load a data file of a disk and compile its outputs. -/
def Compiler.compileFile (c : Compiler) (disk : Disk) (path : Path) :
    Except Error (List CompiledFile) × Compiler :=
  match DataFile.load disk path with
  | .error e => (.error e, c)
  | .ok data => c.compileData (Bitmap.load disk) data

namespace Action

-- ============================================================= schema

/-- The schema in a file, which must not have conflicts. -/
def loadSchema (path : Path) : Action Schema := do
  let schema ← ofExcept (Schema.load (← get).disk path)
  let shownPath ← shown path
  let counted :=
    plural schema.blocks.length "block definition" "block definitions"
  sayDetail "Loaded" s!"{counted} from {shownPath}"
  let checks := checkSchema schema
  sayDiagnostics checks
  if checks.hasErrors then
    throw (.validation (.schemaConflicts shownPath (checks.count .error)))
  return schema

-- =========================================================== building

/-- What is said of a sprite. -/
def describeSprite (r : SpriteReport) : String :=
  let sheet := r.sheet.text
  match r.reference with
  | none => s!"{sheet} (empty, omitted)"
  | some reference =>
    s!"{sheet} {r.width}x{r.height} at ({r.xOffset}, {r.yOffset}) " ++
      s!"as block {reference.number}"

/-- Write a compiled file. -/
def writeFile (f : CompiledFile) : Action Unit := do
  f.sprites.forM fun sprite => sayDetail "Encoded" (describeSprite sprite)
  onDisk f.write
  let counted := plural f.container.size "block" "blocks"
  say "Writing" s!"{← shown f.target} ({counted})"

/-- Load and compile a data file, and say the diagnostics. The compiler
is kept when this fails; a panic ends the command at once. -/
def compileFile (c : Compiler) (path : Path) :
    Action (Except Error (List CompiledFile) × Diagnostics × Compiler) := do
  let (result, c) := c.compileFile (← get).disk path
  let result ← ofExcept (Error.caught result)
  let (diagnostics, c) := c.takeDiagnostics
  sayDiagnostics diagnostics
  return (result, diagnostics, c)

/-- Compile data files and write their outputs; the number of files
written, on top of those before. -/
def buildFiles (c : Compiler) (written : Nat) : List Path → Action Nat
  | [] => return written
  | path :: paths => do
    say "Compiling" (← shown path)
    let (result, _, c) ← compileFile c path
    let files ← ofExcept result
    files.forM writeFile
    buildFiles c (written + files.length) paths

/-- Build the project that the options ask for. -/
def build (o : ProjectOptions) (output : Option Path) : Action Unit := do
  let setup ← ofExcept (o.setUp (← get).disk)
  let schema ← loadSchema setup.schema
  if setup.dataFiles.isEmpty then
    say "Skipping" "no data files found"
  else
    let outputDir := output.getD setup.outputDir
    let options := setup.buildOptions outputDir
    let written ← buildFiles { schema, options } 0 setup.dataFiles
    let counted := plural written "RCD file" "RCD files"
    say "Finished" s!"{counted} in {← shown outputDir}"

-- ========================================================= validating

/-- Compile data files without writing anything; the number of those
that fail, and all diagnostics. -/
def validateFiles (c : Compiler) :
    List Path → Action (Nat × Diagnostics)
  | [] => return (0, [])
  | path :: paths => do
    say "Checking" (← shown path)
    let (result, diagnostics, c) ← compileFile c path
    let failed ← match result with
      | .ok files => do
        let blocks := total (files.map (·.container.size))
        let outputs := plural files.length "output file" "output files"
        let counted := plural blocks "block" "blocks"
        sayDetail "Checked" s!"{outputs} into {counted}"
        pure 0
      | .error e => do
        say "Failed" s!"{← shown path}: {e.message}"
        pure 1
    let (more, rest) ← validateFiles c paths
    return (failed + more, diagnostics ++ rest)

/-- Validate the project that the options ask for. -/
def validate (o : ProjectOptions) : Action Unit := do
  let setup ← ofExcept (o.setUp (← get).disk)
  let schema ← loadSchema setup.schema
  let options := setup.buildOptions setup.outputDir
  let files := setup.dataFiles.length
  let (failed, diagnostics) ←
    validateFiles { schema, options } setup.dataFiles
  let summary := diagnostics.summary
  if 0 < failed then
    throw (.validation (.filesFailed failed files summary))
  let counted := plural files "data file" "data files"
  say "Validated" s!"{counted}, {summary}"

end Action

end GamePack
