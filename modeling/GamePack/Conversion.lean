import GamePack.Container
import GamePack.FieldValue
import GamePack.Sprite.Image

/-!
From bound values to stored values. What a value turns into depends on
its shape and on the type of its field. Regions of sheets and localized
strings become blocks of their own, which are added to the file that is
being built; the field then holds a reference to them.

A conversion works on a state: the file, the sheets loaded so far, the
diagnostics and the list of encoded sprites. The state is kept when a
conversion fails, with everything that was added before.
-/
namespace GamePack

/-- What is said of an encoded sprite. -/
structure SpriteReport where
  sheet : Path
  width : Nat
  height : Nat
  xOffset : Int
  yOffset : Int
  /-- The block of the sprite; none when it was omitted. -/
  reference : Option BlockRef
  deriving DecidableEq, Repr

/-- Sheets that were loaded, by paths. -/
structure SheetCache where
  sheets : List (Path × Bitmap) := []
  deriving Repr

namespace SheetCache

/-- The sheet of a path; paths with the same components are one. -/
def find? (c : SheetCache) (path : Path) : Option Bitmap :=
  (c.sheets.find? fun entry => entry.1.same path).map Prod.snd

/-- Keep a sheet under its path, in place of an earlier one. -/
def insert (c : SheetCache) (path : Path) (b : Bitmap) : SheetCache :=
  ⟨c.sheets.filter (fun entry => !entry.1.same path) ++ [(path, b)]⟩

/-- The number of sheets. -/
def size (c : SheetCache) : Nat := c.sheets.length

end SheetCache

/-- What conversions of one file depend on. -/
structure ConversionSettings where
  /-- The contents of the sheets. -/
  load : Path → Except Error Bitmap
  emptySprites : EmptySprite
  transparent : UInt8

/-- What conversions of one file work on. -/
structure ConversionState where
  container : Container := {}
  sheets : SheetCache := {}
  diagnostics : Diagnostics := []
  sprites : List SpriteReport := []

/-- Steps of a conversion; a step that fails keeps the state. -/
abbrev Conversion := ExceptT Error (StateM ConversionState)

namespace Conversion

/-- A result that does not touch the state. -/
def ofExcept {α : Type} : Except Error α → Conversion α
  | .ok a => pure a
  | .error e => throw e

/-- A result that fails for a value. -/
def ofValue {α : Type} (r : Except ValueError α) : Conversion α :=
  ofExcept (r.mapError .value)

/-- A sheet, loaded unless it was before. -/
def sheet (settings : ConversionSettings) (path : Path) :
    Conversion Bitmap := do
  match (← get).sheets.find? path with
  | some b => return b
  | none =>
    let b ← ofExcept (settings.load path)
    modify fun s => { s with sheets := s.sheets.insert path b }
    return b

/-- Add a block to the file. -/
def addBlock (block : Option Block) : Conversion (Option BlockRef) := do
  let s ← get
  let (reference, container) := s.container.addBlock block
  set { s with container }
  return reference

-- ============================================================ sprites

/-- The sprite of a region of a sheet. -/
def encodeRegion (settings : ConversionSettings) (empty : EmptySprite)
    (region : SheetRegion) : Conversion (Option SpriteImage) := do
  let b ← sheet settings region.sheet
  ofExcept (SpriteImage.encode b (region.onBitmap b) region.crop
    settings.transparent empty)

/-- The report of a sprite, or of a region that was omitted. -/
def reportOf (region : SheetRegion) (image : Option SpriteImage)
    (reference : Option BlockRef) : SpriteReport :=
  match image with
  | some image => ⟨region.sheet, image.width, image.height, image.xOffset,
      image.yOffset, reference⟩
  | none => ⟨region.sheet, 0, 0, region.xOffset, region.yOffset, reference⟩

/-- Encode a region and add its block; an omitted sprite has none. -/
def sprite (settings : ConversionSettings) (region : SheetRegion) :
    Conversion (Option BlockRef) := do
  let image ← encodeRegion settings settings.emptySprites region
  let block ← match image with
    | some image => some <$> ofExcept image.toBlock
    | none => pure none
  let reference ← addBlock block
  modify fun s =>
    { s with sprites := s.sprites ++ [reportOf region image reference] }
  return reference

/-- References to the sprites of regions. -/
def spriteRefs (settings : ConversionSettings)
    (regions : List SheetRegion) : Conversion (List Value) :=
  regions.mapM fun region => do
    return .ref (← sprite settings region)

-- ============================================================== grids

/-- The cells of a grid; unused parts of its sheet are reported. -/
def gridCells (settings : ConversionSettings) (grid : SheetGrid) :
    Conversion (List (String × SheetRegion)) := do
  let b ← sheet settings grid.sheet
  modify fun s => { s with
    diagnostics :=
      s.diagnostics ++ (grid.coverageWarning? b.width b.height).toList }
  ofValue (grid.cells b.width b.height)

/-- A list of sprites from the cells of a grid. -/
def listGrid (settings : ConversionSettings) (count : Numeric)
    (element : DataType) (grid : SheetGrid) : Conversion Value := do
  if !element.isReference then
    throw (.value (.grid (.listElement element.name)))
  let cells ← gridCells settings grid
  let _ ← ofValue (count.check cells.length)
  return .list (← spriteRefs settings (cells.map Prod.snd))

/-- A list without the entry at an index, whose place the last entry
takes. -/
def swapRemove {α : Type} (l : List α) (index : Nat) : List α :=
  match l.getLast? with
  | none => []
  | some last => (l.set index last).dropLast

/-- The sub-fields of a structure from the cells of their names. Every
cell is used once. -/
def cellRefs (settings : ConversionSettings) :
    List (String × DataType) → List (String × SheetRegion) →
      Conversion (List Value)
  | [], _ => return []
  | (name, _) :: fields, cells => do
    match cells.lookup name with
    | none => throw (.value (.grid (.missingCell name)))
    | some region =>
      let others := swapRemove cells (cells.findIdx (·.1 == name))
      let reference ← sprite settings region
      return .ref reference :: (← cellRefs settings fields others)

/-- A structure of sprites from the cells of a grid. -/
def structGrid (settings : ConversionSettings) (record : String)
    (fields : List (String × DataType)) (grid : SheetGrid) :
    Conversion Value := do
  match fields.find? (!·.2.isReference) with
  | some (name, t) =>
    throw (.value (.grid (.subFieldType name record t.name)))
  | none =>
    let cells ← gridCells settings grid
    match cells.find? fun cell => !fields.any (·.1 == cell.1) with
    | some (name, _) => throw (.value (.grid (.unknownCell record name)))
    | none => return .struct (← cellRefs settings fields cells)

-- ============================================================= values

/-- What a value for a type should have been. -/
def expected : DataType → Expectation
  | .numeric _ => .integer
  | .enumeration _ => .enumerationSymbol
  | .reference _ => .reference
  | .text => .stringsToLanguages
  | .imageData => .spriteRegion
  | .list _ _ => .listOrGrid
  | .struct _ _ => .subFieldsOrGrid
  | .bitSet _ => .bitFieldsToSymbols
  | .raw => .encodedBytes

/-- The failure to convert a value of another shape. -/
def unsuitable {α : Type} (t : DataType) (v : FieldValue) :
    Conversion α :=
  throw (.value (.mismatch (expected t) s!"{t.name} (got a {v.kind})"))

/-- A reference to a block by its number; it must be there already. -/
def blockNumber (n : Int) : Conversion Value := do
  let n ← ofValue (Numeric.uint32.check n)
  let blocks := (← get).container.size
  if blocks < n.toNat then
    throw (.value (.danglingReference n.toNat blocks))
  return .ref (BlockRef.ofNumber? n.toNat)

/-- A stored number of an enumeration. -/
def symbolValue (e : Enumeration) (symbol : String) :
    Except ValueError Int := do
  e.base.check (← e.lookup symbol)

/-- The lines of a region that is stored in place. -/
def imageLines (settings : ConversionSettings) (region : SheetRegion) :
    Conversion Value := do
  let image ← encodeRegion settings .blank region
  return .image ((image.map SpriteImage.lines).getD [])

/-- The last value given for a sub-field. -/
def subFieldValue (record name : String)
    (items : List (String × FieldValue)) : Conversion FieldValue :=
  match items.reverse.lookup name with
  | some item => return item
  | none => throw (.value (.mismatch (.valueFor name) record))

/-- Give failures the field they arose in. -/
def inField {α : Type} (owner name : String) (c : Conversion α) :
    Conversion α :=
  tryCatch c fun e => throw (e.within owner name)

mutual

/-- The stored value of a bound value for a field of a type. -/
def convert (settings : ConversionSettings) :
    DataType → FieldValue → Conversion Value
  | .numeric n, .number v => return .int (← ofValue (n.check v))
  | .numeric n, .symbol text => return .int (← ofExcept (n.parse text))
  | .enumeration e, .symbol symbol =>
    return .int (← ofValue (symbolValue e symbol))
  | .bitSet b, .bits literal => return .int (← ofExcept (b.pack literal))
  | .reference _, .block r => return .ref r
  | .text, .block r => return .ref r
  | .reference _, .number n => blockNumber n
  | .reference _, .image region => return .ref (← sprite settings region)
  | .text, .text strings => do
    let block ← ofValue strings.toBlock
    return .ref (← addBlock (some block))
  | .imageData, .image region => imageLines settings region
  | .list count element, .list items => do
    let _ ← ofValue (count.check items.length)
    return .list (← items.mapM (convert settings element))
  | .list count element, .grid grid => listGrid settings count element grid
  | .struct name fields, .struct items =>
    return .struct (← convertFields settings name items fields)
  | .struct name fields, .grid grid => structGrid settings name fields grid
  | t, v => unsuitable t v

/-- The stored values of the sub-fields of a structure. -/
def convertFields (settings : ConversionSettings) (record : String)
    (items : List (String × FieldValue)) :
    List (String × DataType) → Conversion (List Value)
  | [] => return []
  | (name, t) :: fields => do
    let item ← subFieldValue record name items
    let value ← inField record name (convert settings t item)
    return value :: (← convertFields settings record items fields)

end

end Conversion

end GamePack
