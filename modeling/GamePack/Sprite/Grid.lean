import GamePack.Diagnostic
import GamePack.Sprite.Region

/-!
Regions of sheets as data files write them, and grids: sheets cut into
equal cells that are named row by row. A grid stands for the regions of
its cells; cells named `_` produce none. The cell size is given, or the
size of the sheet shared out among the columns and rows.
-/
namespace GamePack

/-- A region of a sheet. -/
structure SheetRegion where
  sheet : Path
  x : Nat := 0
  y : Nat := 0
  /-- The width; none extends to the right edge of the sheet. -/
  width : Option Nat := none
  /-- The height; none extends to the bottom edge of the sheet. -/
  height : Option Nat := none
  xOffset : Int := 0
  yOffset : Int := 0
  /-- Take transparent edges off before encoding. -/
  crop : Bool := true
  deriving DecidableEq, Repr

/-- The rectangle of a region on a sheet. -/
def SheetRegion.onBitmap (r : SheetRegion) (b : Bitmap) : Sprite.Region :=
  { x := r.x, y := r.y
    width := r.width.getD (b.width - r.x)
    height := r.height.getD (b.height - r.y)
    xOffset := r.xOffset, yOffset := r.yOffset }

/-- A sheet cut into named cells. -/
structure SheetGrid where
  sheet : Path
  cellWidth : Option Nat := none
  cellHeight : Option Nat := none
  /-- The offsets of every cell before cropping. -/
  xOffset : Int := 0
  yOffset : Int := 0
  layout : List (List String)
  deriving DecidableEq, Repr

namespace SheetGrid

/-- The name of a cell that produces no sprite. -/
def skipCell : String := "_"

/-- The first row that has not the given number of cells, counted from
one, and its number of cells. -/
def raggedRow? (columns : Nat) (layout : List (List String)) :
    Option (Nat × Nat) :=
  (layout.findIdx? (·.length != columns)).map fun i =>
    (i + 1, (layout[i]?.getD []).length)

/-- The numbers of columns and rows. -/
def dimensions (g : SheetGrid) : Except ValueError (Nat × Nat) :=
  let columns := (g.layout.head?.getD []).length
  if columns = 0 then .error (.grid .noCells)
  else match raggedRow? columns g.layout with
    | some (row, cells) => .error (.grid (.raggedRow row cells columns))
    | none => .ok (columns, g.layout.length)

/-- The size of one cell on a sheet. -/
def cellSize (g : SheetGrid) (sheetWidth sheetHeight : Nat) :
    Except ValueError (Nat × Nat) := do
  let (columns, rows) ← g.dimensions
  let width := g.cellWidth.getD (sheetWidth / columns)
  let height := g.cellHeight.getD (sheetHeight / rows)
  if width = 0 ∨ height = 0 then
    throw (.grid (.noFit columns rows sheetWidth sheetHeight))
  if sheetWidth < width * columns ∨ sheetHeight < height * rows then
    throw (.grid
      (.exceeds columns rows width height sheetWidth sheetHeight))
  return (width, height)

/-- The names of the cells, row by row, without skipped ones. -/
def names (g : SheetGrid) : List String :=
  g.layout.flatten.filter (· != skipCell)

/-- The named cells with their columns and rows, row by row. -/
def positions (g : SheetGrid) : List (String × Nat × Nat) :=
  (g.layout.zipIdx.flatMap fun (names, row) =>
    names.zipIdx.map fun (name, column) => (name, column, row)).filter
      fun cell => cell.1 != skipCell

/-- The first name that occurs a second time. -/
def repeated? (seen : List String) : List String → Option String
  | [] => none
  | name :: rest =>
    if seen.contains name then some name else repeated? (name :: seen) rest

/-- The region of the cell in a column and a row. -/
def cellRegion (g : SheetGrid) (width height column row : Nat) :
    SheetRegion :=
  { sheet := g.sheet
    x := column * width, y := row * height
    width := some width, height := some height
    xOffset := g.xOffset, yOffset := g.yOffset }

/-- The named regions of a grid on a sheet, row by row. -/
def cells (g : SheetGrid) (sheetWidth sheetHeight : Nat) :
    Except ValueError (List (String × SheetRegion)) := do
  let (width, height) ← g.cellSize sheetWidth sheetHeight
  match repeated? [] g.names with
  | some name => throw (.grid (.namedTwice name))
  | none => return g.positions.map fun (name, column, row) =>
      (name, g.cellRegion width height column row)

/-- A warning when the cells leave a part of the sheet unused. -/
def coverageWarning? (g : SheetGrid) (sheetWidth sheetHeight : Nat) :
    Option Diagnostic :=
  match g.dimensions, g.cellSize sheetWidth sheetHeight with
  | .ok (columns, rows), .ok (width, height) =>
    let usedWidth := columns * width
    let usedHeight := rows * height
    if usedWidth = sheetWidth ∧ usedHeight = sheetHeight then none
    else some {
      severity := .warning
      code := "rcdgen::grid::coverage"
      message :=
        s!"grid of {g.sheet.text} covers {usedWidth}x{usedHeight} of the " ++
          s!"{sheetWidth}x{sheetHeight} sheet"
      help := some "Set cell_width/cell_height or adjust the layout" }
  | _, _ => none

end SheetGrid

end GamePack
