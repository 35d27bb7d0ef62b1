import GamePack.Disk
import GamePack.Text.Quoted

/-!
What can go wrong, as causes. Each stage of the work has its own type of
causes with a function that gives the words for them; `Error` gathers
them and adds the failures of files and documents. A cause also has a
code that names it for good, and some have advice.

One way to end is no failure of a stage: a step of machine arithmetic
that leaves its word ends the program there and then. `Error.panic` is
this outcome. What deals with failures lets it pass: `within` gives it no
field, and `caught` does not catch it.
-/
namespace GamePack

-- ============================================================ values

/-- What a value was expected to be. -/
inductive Expectation where
  | equalRows
  | indexedPng
  | scalar
  | scalarOrMapping
  | numberSymbolOrMapping
  | symbolsPerBitField
  | integer
  | enumerationSymbol
  | reference
  | stringsToLanguages
  | spriteRegion
  | listOrGrid
  | subFieldsOrGrid
  | bitFieldsToSymbols
  | encodedBytes
  /-- A sub-field of a structure, where the name given is not one. -/
  | subFieldOf (record name : String)
  /-- A value for a sub-field that has none. -/
  | valueFor (subField : String)
  deriving DecidableEq, Repr

/-- The words for an expectation. -/
def Expectation.message : Expectation → String
  | .equalRows => "rows of equal length"
  | .indexedPng => "an indexed (palette) PNG"
  | .scalar => "a scalar"
  | .scalarOrMapping => "a scalar or mapping"
  | .numberSymbolOrMapping => "a number, symbol or mapping"
  | .symbolsPerBitField => "a symbol or list of symbols per bitfield"
  | .integer => "an integer"
  | .enumerationSymbol => "an enumeration symbol"
  | .reference => "a sprite region, block number or null"
  | .stringsToLanguages => "a mapping of strings to languages"
  | .spriteRegion => "a sprite region"
  | .listOrGrid => "a list or sprite grid"
  | .subFieldsOrGrid => "a mapping of sub-fields or sprite grid"
  | .bitFieldsToSymbols => "a mapping of bitfields to symbols"
  | .encodedBytes => "pre-encoded bytes"
  | .subFieldOf record name => s!"a sub-field of {record} (not '{name}')"
  | .valueFor subField => s!"a value for sub-field '{subField}'"

/-- What is wrong with localized strings. -/
inductive TextFlaw where
  /-- A string name or language that is empty, too long or holds NUL. -/
  | badName (what name : String)
  | formCount (name language : String) (count : Nat)
  | nulInForm (form : String)
  | noStrings
  | missingLanguage (name language : String)
  | tooLong (name : String) (size : Nat)
  | needsLanguages (name : String)
  | needsForms (name : String)
  deriving DecidableEq, Repr

/-- The words for a flaw in localized strings. -/
def TextFlaw.message : TextFlaw → String
  | .badName what name =>
    s!"{what} {Text.quoted name} must be 1..255 bytes without NUL"
  | .formCount name language count =>
    s!"'{name}' in {language} needs 1..=255 plural forms, got {count}"
  | .nulInForm form => s!"{Text.quoted form} contains a NUL byte"
  | .noStrings => "no strings defined"
  | .missingLanguage name language =>
    s!"string '{name}' has no {language} text"
  | .tooLong name size => s!"string '{name}' is too long ({size} bytes)"
  | .needsLanguages name => s!"'{name}' needs a mapping of languages"
  | .needsForms name =>
    s!"'{name}' needs a string or list of plural forms"

/-- What is wrong with a sprite grid. -/
inductive GridFlaw where
  | noCells
  | raggedRow (row cells expected : Nat)
  | noFit (columns rows sheetWidth sheetHeight : Nat)
  | exceeds (columns rows width height sheetWidth sheetHeight : Nat)
  | namedTwice (name : String)
  | listElement (typeName : String)
  | subFieldType (name record typeName : String)
  | unknownCell (record name : String)
  | missingCell (name : String)
  deriving DecidableEq, Repr

/-- The words for a flaw in a sprite grid. -/
def GridFlaw.message : GridFlaw → String
  | .noCells => "layout has no cells"
  | .raggedRow row cells expected =>
    s!"row {row} has {cells} cells, expected {expected}"
  | .noFit columns rows sheetWidth sheetHeight =>
    s!"{columns}x{rows} cells do not fit a {sheetWidth}x{sheetHeight} sheet"
  | .exceeds columns rows width height sheetWidth sheetHeight =>
    s!"{columns}x{rows} cells of {width}x{height} exceed the " ++
      s!"{sheetWidth}x{sheetHeight} sheet"
  | .namedTwice name => s!"cell '{name}' is named twice"
  | .listElement typeName =>
    s!"a grid fills lists of sprites, not of {typeName}"
  | .subFieldType name record typeName =>
    s!"sub-field '{name}' of {record} is {typeName}, not a sprite"
  | .unknownCell record name => s!"{record} has no sub-field '{name}'"
  | .missingCell name => s!"no cell named '{name}'"

/-- Why a value does not fit its declared type. -/
inductive ValueError where
  | unreadable (text typeName : String)
  | outOfRange (value : Int) (typeName : String) (min max : Int)
  | unknownSymbol (symbol enumeration : String)
  | occurrenceCount (field : String) (count min max : Nat)
  | unknownBitField (bitset field : String)
  | mismatch (expected : Expectation) (typeName : String)
  | regionOutOfBounds (x y width height imageWidth imageHeight : Nat)
  | danglingReference (reference blocks : Nat)
  | text (flaw : TextFlaw)
  | grid (flaw : GridFlaw)
  deriving DecidableEq, Repr

/-- The words for a value error. -/
def ValueError.message : ValueError → String
  | .unreadable shown typeName => s!"Cannot parse '{shown}' as {typeName}"
  | .outOfRange value typeName min max =>
    s!"Value {value} is out of range for {typeName} ({min}..={max})"
  | .unknownSymbol symbol enumeration =>
    s!"Unknown symbol '{symbol}' for enumeration '{enumeration}'"
  | .occurrenceCount field count min max =>
    s!"Bitfield '{field}' occurs {count} time(s), expected {min}..={max}"
  | .unknownBitField bitset field =>
    s!"Bitset '{bitset}' has no bitfield named '{field}'"
  | .mismatch expected typeName =>
    s!"Expected {expected.message} for a field of type {typeName}"
  | .regionOutOfBounds x y width height imageWidth imageHeight =>
    s!"Sprite region {x},{y} {width}x{height} lies outside the " ++
      s!"{imageWidth}x{imageHeight} bitmap"
  | .danglingReference reference blocks =>
    s!"Block {reference} does not exist, the file holds {blocks} " ++
      "block(s) so far"
  | .text flaw => s!"Invalid text: {flaw.message}"
  | .grid flaw => s!"Invalid sprite grid: {flaw.message}"

/-- The code of a value error. -/
def ValueError.code : ValueError → String
  | .unreadable .. => "rcdgen::value::parse"
  | .outOfRange .. => "rcdgen::value::range"
  | .unknownSymbol .. => "rcdgen::value::symbol"
  | .occurrenceCount .. => "rcdgen::value::occurrence"
  | .unknownBitField .. => "rcdgen::value::bitfield"
  | .mismatch .. => "rcdgen::value::shape"
  | .regionOutOfBounds .. => "rcdgen::value::region"
  | .danglingReference .. => "rcdgen::value::reference"
  | .text .. => "rcdgen::value::text"
  | .grid .. => "rcdgen::value::grid"

/-- Advice on a value error. -/
def ValueError.help? : ValueError → Option String
  | .danglingReference .. =>
    some <| "A block can only refer to blocks listed before it in the " ++
      "same output file"
  | _ => none

-- =========================================================== schemas

/-- What is wrong with a definition in a schema. -/
inductive DefinitionFlaw where
  | symbolValue (symbol : String) (cause : ValueError)
  | symbolTwice (symbol : String)
  | symbolNotInteger (symbol : String)
  | startBeyond (field : String) (start : Nat) (storage : String)
  | minAboveMax (field : String) (min max : Nat)
  | bitFieldTwice (field : String)
  | notNumeric (typeName : String)
  | notEnumeration (typeName : String)
  | subFieldTwice (field : String)
  | versionsInverted (minVersion maxVersion : Nat)
  deriving DecidableEq, Repr

/-- The words for a flaw in a definition. -/
def DefinitionFlaw.message : DefinitionFlaw → String
  | .symbolValue symbol cause => s!"symbol '{symbol}': {cause.message}"
  | .symbolTwice symbol => s!"symbol '{symbol}' is defined more than once"
  | .symbolNotInteger symbol => s!"symbol '{symbol}' has no integer value"
  | .startBeyond field start storage =>
    s!"bitfield '{field}' starts at bit {start} beyond {storage} storage"
  | .minAboveMax field min max =>
    s!"bitfield '{field}' has min {min} above max {max}"
  | .bitFieldTwice field =>
    s!"bitfield '{field}' is declared more than once"
  | .notNumeric typeName => s!"'{typeName}' is not a numeric type"
  | .notEnumeration typeName => s!"'{typeName}' is not an enumeration"
  | .subFieldTwice field =>
    s!"sub-field '{field}' is declared more than once"
  | .versionsInverted minVersion maxVersion =>
    s!"minversion {minVersion} is above maxversion {maxVersion}"

/-- Why a schema cannot be loaded or resolved. -/
inductive SchemaError where
  | unknownMagic (magic : String)
  | unsupportedVersion (magic : String) (version min max : Nat)
  | duplicateField (magic : String) (version : Nat) (field : String)
  | unknownType (name : String)
  | duplicateType (name : String)
  | duplicateBlock (magic : String)
  | invalidMagic (text : String)
  | invalidDefinition (name : String) (flaw : DefinitionFlaw)
  deriving DecidableEq, Repr

/-- The words for a schema error. -/
def SchemaError.message : SchemaError → String
  | .unknownMagic magic => s!"Block '{magic}' is not defined in the schema"
  | .unsupportedVersion magic version min max =>
    s!"Version {version} of block '{magic}' is not supported " ++
      s!"(schema allows {min}..={max})"
  | .duplicateField magic version field =>
    s!"Field '{field}' appears more than once in version {version} of " ++
      s!"block '{magic}'"
  | .unknownType name => s!"Unknown type '{name}'"
  | .duplicateType name => s!"Type '{name}' is already registered"
  | .duplicateBlock magic => s!"Block '{magic}' is defined more than once"
  | .invalidMagic text =>
    s!"Invalid magic '{text}': expected exactly 4 ASCII characters"
  | .invalidDefinition name flaw =>
    s!"Invalid definition of '{name}': {flaw.message}"

/-- The code of a schema error. -/
def SchemaError.code : SchemaError → String
  | .unknownMagic .. => "rcdgen::schema::unknown_magic"
  | .unsupportedVersion .. => "rcdgen::schema::version"
  | .duplicateField .. => "rcdgen::schema::duplicate_field"
  | .unknownType .. => "rcdgen::schema::unknown_type"
  | .duplicateType .. => "rcdgen::schema::duplicate_type"
  | .duplicateBlock .. => "rcdgen::schema::duplicate_block"
  | .invalidMagic .. => "rcdgen::schema::magic"
  | .invalidDefinition .. => "rcdgen::schema::definition"

/-- Advice on two visible fields of one name. -/
def distinctFieldsHelp : String :=
  "Give the fields distinct names or non-overlapping version windows"

/-- Advice on a schema error. -/
def SchemaError.help? : SchemaError → Option String
  | .duplicateField .. => some distinctFieldsHelp
  | .unknownType .. =>
    some <| "Use a builtin type (int8..uint32, sprite, block, text, " ++
      "image_data) or declare it first"
  | _ => none

-- =========================================== blocks and stored files

/-- How a block's fields and its values disagree. -/
inductive ConsistencyError where
  | missingValue (magic field : String)
  | unknownField (magic field : String)
  | valueShape (typeName : String)
  | lengthMismatch (magic : String) (declared written : Nat)
  | tooLarge (magic : String) (size : Nat)
  deriving DecidableEq, Repr

/-- The words for a consistency error. -/
def ConsistencyError.message : ConsistencyError → String
  | .missingValue magic field =>
    s!"Field '{field}' of block '{magic}' has no value"
  | .unknownField magic field =>
    s!"Block '{magic}' does not declare a field named '{field}'"
  | .valueShape typeName =>
    s!"Value does not match its declared type {typeName}"
  | .lengthMismatch magic declared written =>
    s!"Block '{magic}' wrote {written} bytes but declared {declared}"
  | .tooLarge magic size =>
    s!"Block '{magic}' payload of {size} bytes does not fit a 32 bit length"

/-- The code of a consistency error. -/
def ConsistencyError.code : ConsistencyError → String
  | .missingValue .. => "rcdgen::consistency::missing_value"
  | .unknownField .. => "rcdgen::consistency::unknown_field"
  | .valueShape .. => "rcdgen::consistency::shape"
  | .lengthMismatch .. => "rcdgen::consistency::length"
  | .tooLarge .. => "rcdgen::consistency::too_large"

/-- What is corrupt in stored bytes. -/
inductive Corruption where
  | truncatedLine
  | truncatedRun
  | runBeyondWidth (x count width : Nat)
  | lineBeyondEnd (offset : Nat)
  | blockMagic (number : Nat)
  | blockLength (number claimed left : Nat)
  deriving DecidableEq, Repr

/-- The words for a corruption. -/
def Corruption.message : Corruption → String
  | .truncatedLine => "truncated sprite line"
  | .truncatedRun => "truncated sprite run"
  | .runBeyondWidth x count width =>
    s!"run at x={x} of {count} pixels exceeds sprite width {width}"
  | .lineBeyondEnd offset => s!"line offset {offset} is past the block end"
  | .blockMagic number => s!"block {number} has a non-ASCII magic"
  | .blockLength number claimed left =>
    s!"block {number} claims {claimed} bytes, {left} left"

/-- Why stored bytes cannot be read. -/
inductive ReadError where
  | invalidMagic (found : Bytes)
  | unsupportedVersion (version : Nat)
  | corrupt (cause : Corruption)
  /-- The bytes end where more are needed. -/
  | endOfBytes
  deriving DecidableEq, Repr

/-- The words for a read error. -/
def ReadError.message : ReadError → String
  | .invalidMagic found =>
    let shown := String.intercalate ", " (found.map fun b => toString b.toNat)
    s!"Invalid file magic [{shown}]"
  | .unsupportedVersion version => s!"Unsupported file version: {version}"
  | .corrupt cause => s!"Corrupt data: {cause.message}"
  | .endOfBytes => "IO error: failed to fill whole buffer"

/-- The code of a read error. -/
def ReadError.code : ReadError → String
  | .invalidMagic .. => "rcdgen::read::magic"
  | .unsupportedVersion .. => "rcdgen::read::version"
  | .corrupt .. => "rcdgen::read::corrupt"
  | .endOfBytes => "rcdgen::read::io"

-- =============================================== files and documents

/-- What a file was wanted for. -/
inductive FileTask where
  | readSchema
  | readData
  | readManifest
  | readContainer
  | openBitmap
  | makeOutputDirectory
  | writeContainer
  | makeDumpDirectory
  | writePreview
  deriving DecidableEq, Repr

/-- The words for a task that failed. -/
def FileTask.message : FileTask → String
  | .readSchema => "Failed to read schema"
  | .readData => "Failed to read data file"
  | .readManifest => "Failed to read manifest"
  | .readContainer => "Failed to read RCD file"
  | .openBitmap => "Failed to open bitmap"
  | .makeOutputDirectory => "Failed to create output directory"
  | .writeContainer => "Failed to write RCD file"
  | .makeDumpDirectory => "Failed to create dump directory"
  | .writePreview => "Failed to write PNG"

/-- Why a path could not be used. -/
inductive FileError where
  | system (task : FileTask) (fault : IoFault)
  /-- A sheet is not a PNG that can be decoded. -/
  | undecodable (detail : String)
  | emptyPreview
  deriving DecidableEq, Repr

/-- The words for a file error. -/
def FileError.message : FileError → String
  | .system task fault => s!"{task.message}: {fault.message}"
  | .undecodable detail => s!"Failed to decode PNG: {detail}"
  | .emptyPreview => "Cannot write a preview of a zero-sized sprite"

/-- A document that could not be read. -/
inductive DocumentError where
  | schema (detail : String)
  | data (detail : String)
  | manifest (detail : String)
  | region (detail : String)
  | grid (detail : String)
  | pngDecoding (detail : String)
  | pngEncoding (detail : String)
  /-- A key that should be a name; `found` shows it. -/
  | nameExpected (found : String)
  /-- A field name of a block that is no string. -/
  | fieldName (found magic : String)
  deriving DecidableEq, Repr

/-- The words for a document error. -/
def DocumentError.message : DocumentError → String
  | .schema detail => s!"Invalid schema: {detail}"
  | .data detail => s!"Invalid data file: {detail}"
  | .manifest detail => s!"Invalid manifest: {detail}"
  | .region detail => s!"Invalid sprite region: {detail}"
  | .grid detail => s!"Invalid sprite grid: {detail}"
  | .pngDecoding detail => s!"Failed to decode PNG: {detail}"
  | .pngEncoding detail => s!"Failed to encode PNG: {detail}"
  | .nameExpected found => s!"Expected a name, found {found}"
  | .fieldName found magic =>
    s!"Field name {found} in block '{magic}' is not a string"

/-- Advice on a document error. -/
def DocumentError.help? : DocumentError → Option String
  | .schema _ => some "Check the enums/bitsets/structs/blocks sections"
  | .data _ =>
    some "Expected a 'files' list of \x7b target, blocks \x7d"
  | .manifest _ => some "Check rcdgen.yaml syntax"
  | _ => none

/-- A count and what is counted. -/
def plural (n : Nat) (one many : String) : String :=
  s!"{n} {if n == 1 then one else many}"

/-- What a check of the whole found. -/
inductive ValidationError where
  | fieldErrors (count : Nat) (magic : String) (version : Nat)
  | schemaConflicts (path : String) (count : Nat)
  | filesFailed (failed files : Nat) (summary : String)
  | noPalette (path : String)
  deriving DecidableEq, Repr

/-- The words for a failed check. -/
def ValidationError.message : ValidationError → String
  | .fieldErrors count magic version =>
    let counted := plural count "field error" "field errors"
    s!"{counted} in block '{magic}' version {version}"
  | .schemaConflicts path count =>
    let counted := plural count "conflict" "conflicts"
    s!"schema {path} has {counted}"
  | .filesFailed failed files _ =>
    let counted := plural files "data file" "data files"
    s!"{failed} of {counted} failed"
  | .noPalette path => s!"{path} has no palette"

/-- Advice on a failed check. -/
def ValidationError.help? : ValidationError → Option String
  | .fieldErrors .. =>
    some "Set every field the schema defines for this version"
  | .schemaConflicts .. => none
  | .filesFailed _ _ summary => some s!"diagnostics {summary}"
  | .noPalette _ => some "Pass an indexed (palette) PNG"

-- ======================================================== all errors

/-- Why an operation failed. -/
inductive Error where
  | schema (cause : SchemaError)
  | value (cause : ValueError)
  | consistency (cause : ConsistencyError)
  | read (cause : ReadError)
  | file (path : Path) (cause : FileError)
  | document (cause : DocumentError)
  | validation (cause : ValidationError)
  /-- An error inside a field of a block or structure. -/
  | field (owner field : String) (source : Error)
  /-- The end of the program in a step of machine arithmetic whose result
  has no room in its word. -/
  | panic (step : String)
  deriving DecidableEq, Repr

namespace Error

/-- The words for an error. -/
def message : Error → String
  | .schema cause => cause.message
  | .value cause => cause.message
  | .consistency cause => cause.message
  | .read cause => cause.message
  | .file path cause => s!"IO error with {path.text}: {cause.message}"
  | .document cause => s!"Parse error: {cause.message}"
  | .validation cause => s!"Validation error: {cause.message}"
  | .field owner name source =>
    s!"In block '{owner}', field '{name}': {source.message}"
  | .panic step => s!"Arithmetic overflow in {step}"

/-- The code of an error. -/
def code : Error → String
  | .schema cause => cause.code
  | .value cause => cause.code
  | .consistency cause => cause.code
  | .read cause => cause.code
  | .file .. => "rcdgen::io"
  | .document _ => "rcdgen::parse"
  | .validation _ => "rcdgen::validate"
  | .field .. => "rcdgen::field"
  | .panic _ => "panic"

/-- Advice on an error. -/
def help? : Error → Option String
  | .schema cause => cause.help?
  | .value cause => cause.help?
  | .document cause => cause.help?
  | .validation cause => cause.help?
  | _ => none

-- =========================================================== handling

/-- An error with the field that it arose in; a panic is left as it
is. -/
def within (owner name : String) : Error → Error
  | .panic step => .panic step
  | source => .field owner name source

/-- A result whose failure is at hand for what comes next. A panic is not
caught: nothing comes next. -/
def caught {α : Type} : Except Error α → Except Error (Except Error α)
  | .error (.panic step) => .error (.panic step)
  | result => .ok result

/-- An error is given its field, unless it is a panic. -/
theorem within_cases (owner name : String) (e : Error) :
    (∃ step, e = .panic step ∧ e.within owner name = .panic step) ∨
      e.within owner name = .field owner name e := by
  cases e with
  | panic step => exact .inl ⟨step, rfl, rfl⟩
  | _ => exact .inr rfl

/-- What is caught is the result itself, which is no panic. -/
theorem caught_eq_ok_iff {α : Type} {x r : Except Error α} :
    caught x = .ok r ↔ r = x ∧ ∀ step, x ≠ .error (.panic step) := by
  cases x with
  | ok a => simp [caught, eq_comm]
  | error e => cases e <;> simp [caught, eq_comm]

/-- What is not caught is a panic. -/
theorem caught_eq_error_iff {α : Type} {x : Except Error α} {e : Error} :
    caught x = .error e ↔ ∃ step, e = .panic step ∧ x = .error e := by
  constructor
  · intro h
    cases x with
    | ok a => cases h
    | error cause =>
      cases cause with
      | panic step =>
        cases h
        exact ⟨step, rfl, rfl⟩
      | _ => cases h
  · rintro ⟨step, rfl, rfl⟩
    rfl

end Error

end GamePack
