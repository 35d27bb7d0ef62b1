import GamePack.Binding
import GamePack.Check
import GamePack.Conversion
import GamePack.DataFile

/-!
Compiling data files. For every block of an output the fields of its
version are looked up in the schema and compared with what is bound;
then each value is bound and converted, and the block is added to the
file. Sprites and texts met on the way come before the block that
refers to them. A compiler keeps the sheets it loaded and collects
diagnostics from one output to the next.
-/
namespace GamePack

/-- Settings of all outputs of a build. -/
structure BuildOptions where
  /-- The directory that relative targets start from. -/
  outputDir : Path := ⟨"."⟩
  /-- The mode for empty sprites when an output chooses none. -/
  emptySprites : EmptySprite := .omitted
  transparent : UInt8 := defaultTransparent
  deriving DecidableEq, Repr

/-- A file that is ready to be written. -/
structure CompiledFile where
  target : Path
  container : Container
  sprites : List SpriteReport
  deriving Repr

/-- A compiler for one schema. -/
structure Compiler where
  schema : Schema
  options : BuildOptions := {}
  sheets : SheetCache := {}
  diagnostics : Diagnostics := []

namespace Compiler

/-- Report what is wrong with the bindings of a block and fail if fields
are missing. -/
def checkBlock (spec : BlockSpec) (fields : List Field) :
    Conversion Unit := do
  let checks := checkBindings spec.magic spec.version fields spec.names
  modify fun s => { s with diagnostics := s.diagnostics ++ checks }
  let failed := checks.count .error
  if 0 < failed then
    throw (.validation
      (.fieldErrors failed spec.magic.text spec.version))

/-- The stored value of a binding. -/
def compileValue (settings : ConversionSettings) (baseDir : Path)
    (t : DataType) (binding : Yaml.Value) : Conversion Value := do
  let bound ← Conversion.ofExcept (bind baseDir binding t)
  Conversion.convert settings t bound

/-- Give the fields of a block their values. -/
def compileFields (settings : ConversionSettings) (baseDir : Path)
    (spec : BlockSpec) : List Field → Block → Conversion Block
  | [], block => return block
  | f :: fields, block => do
    match spec.binding? f.name with
    | none => compileFields settings baseDir spec fields block
    | some binding =>
      let value ← Conversion.inField spec.magic.text f.name
        (compileValue settings baseDir f.type binding)
      let block ← Conversion.ofExcept
        ((block.set f.name value).mapError .consistency)
      compileFields settings baseDir spec fields block

/-- The block that a data file asks for. -/
def compileBlock (schema : Schema) (settings : ConversionSettings)
    (baseDir : Path) (spec : BlockSpec) : Conversion Block := do
  let fields ← Conversion.ofExcept
    ((schema.resolve spec.magic spec.version).mapError .schema)
  checkBlock spec fields
  compileFields settings baseDir spec fields
    { magic := spec.magic, version := spec.version
      fields := fields.map fun f => (f.name, f.type) }

/-- Compile blocks and add each to the file. -/
def compileBlocks (schema : Schema) (settings : ConversionSettings)
    (baseDir : Path) (specs : List BlockSpec) : Conversion Unit :=
  specs.forM fun spec => do
    let block ← compileBlock schema settings baseDir spec
    let _ ← Conversion.addBlock (some block)

/-- Where an output is written. -/
def targetOf (options : BuildOptions) (target : Path) : Path :=
  options.outputDir.join target

/-- What the conversions of an output depend on. -/
def settingsOf (c : Compiler) (load : Path → Except Error Bitmap)
    (output : OutputSpec) : ConversionSettings :=
  { load
    emptySprites := output.emptySprites.getD c.options.emptySprites
    transparent := c.options.transparent }

/-- Compile one output; paths of sheets start from a directory. -/
def compileOutput (c : Compiler) (load : Path → Except Error Bitmap)
    (baseDir : Path) (output : OutputSpec) :
    Except Error CompiledFile × Compiler :=
  let start : ConversionState :=
    { sheets := c.sheets, diagnostics := c.diagnostics }
  let (result, s) := (compileBlocks c.schema (c.settingsOf load output)
    baseDir output.blocks).run.run start
  let c := { c with sheets := s.sheets, diagnostics := s.diagnostics }
  match result with
  | .error e => (.error e, c)
  | .ok () =>
    (.ok ⟨targetOf c.options output.target, s.container, s.sprites⟩, c)

/-- Compile outputs until one fails. -/
def compileOutputs (load : Path → Except Error Bitmap) (baseDir : Path) :
    List OutputSpec → Compiler →
      Except Error (List CompiledFile) × Compiler
  | [], c => (.ok [], c)
  | output :: rest, c =>
    match c.compileOutput load baseDir output with
    | (.error e, c) => (.error e, c)
    | (.ok file, c) =>
      match compileOutputs load baseDir rest c with
      | (.error e, c) => (.error e, c)
      | (.ok files, c) => (.ok (file :: files), c)

/-- Compile every output of a data file. -/
def compileData (c : Compiler) (load : Path → Except Error Bitmap)
    (data : DataFile) : Except Error (List CompiledFile) × Compiler :=
  compileOutputs load data.baseDir data.outputs c

/-- The collected diagnostics, and the compiler without them. -/
def takeDiagnostics (c : Compiler) : Diagnostics × Compiler :=
  (c.diagnostics, { c with diagnostics := [] })

end Compiler

namespace CompiledFile

/-- Write the file to its target. The bytes are made first, so a file
that has none touches nothing on the disk. -/
def write (f : CompiledFile) (disk : Disk) :
    Except Error Unit × Disk :=
  match f.container.toBytes with
  | .error e => (.error e, disk)
  | .ok bytes =>
    match makeParent disk with
    | (.error e, disk) => (.error e, disk)
    | (.ok (), disk) =>
      match disk.write f.target bytes with
      | .error fault =>
        (.error (.file f.target (.system .writeContainer fault)), disk)
      | .ok disk => (.ok (), disk)
where
  /-- Make the directory of the target. -/
  makeParent (disk : Disk) : Except Error Unit × Disk :=
    match f.target.parent? with
    | none => (.ok (), disk)
    | some parent =>
      if parent.text.isEmpty then (.ok (), disk)
      else match disk.makeDirectories parent with
        | (.ok (), disk) => (.ok (), disk)
        | (.error fault, disk) =>
          (.error (.file parent (.system .makeOutputDirectory fault)), disk)

end CompiledFile

end GamePack
