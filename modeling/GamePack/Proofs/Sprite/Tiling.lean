import GamePack.Proofs.Sprite.Tight
import GamePack.Proofs.Words
import GamePack.Sprite.Grid

/-!
How the cells of a grid lie on its sheet. A pixel has a column and a row
of cells that it would belong to, its coordinates divided by the cell
size (`holds_cell_iff`). So cells of different places have no pixel in
common, and the places of a layout have all pixels of a sheet exactly when
columns and rows of cells together are as wide and as high as the sheet.

The cells are computed again in machine words, name by name in the order
of the layout: whatever a grid is and whatever size the sheet has, no
product fails, for the sizes have been compared with the sheet before.
-/
namespace GamePack

namespace SheetGrid

variable {g : SheetGrid} {sheetWidth sheetHeight width height : Nat}
  {cells : List (String × SheetRegion)}

-- ================================================== places of a layout

/-- The name in a column and a row of the layout. -/
def nameAt? (g : SheetGrid) (column row : Nat) : Option String :=
  (g.layout[row]?).bind fun names => names[column]?

/-- The names of one row with their columns. -/
def placesOf (line : List String × Nat) : List (String × Nat × Nat) :=
  line.1.zipIdx.map fun cell => (cell.1, cell.2, line.2)

/-- All names of the layout with their columns and rows, row by row. -/
def places (g : SheetGrid) : List (String × Nat × Nat) :=
  g.layout.zipIdx.flatMap placesOf

/-- The cells are at the places whose name does not say to skip them. -/
theorem positions_eq (g : SheetGrid) :
    g.positions = g.places.filter fun cell => cell.1 != skipCell :=
  rfl

/-- A name is at its column and row of the layout. -/
theorem mem_places {cell : String × Nat × Nat} :
    cell ∈ g.places ↔ g.nameAt? cell.2.1 cell.2.2 = some cell.1 := by
  obtain ⟨name, column, row⟩ := cell
  simp only [places, placesOf, nameAt?, List.mem_flatMap, List.mem_map,
    List.mem_zipIdx_iff_getElem?, Option.bind_eq_some_iff, Prod.exists,
    Prod.mk.injEq]
  constructor
  · rintro ⟨names, row, hrow, name, column, hname, rfl, rfl, rfl⟩
    exact ⟨names, hrow, hname⟩
  · rintro ⟨names, hrow, hname⟩
    exact ⟨names, row, hrow, name, column, hname, rfl, rfl, rfl⟩

/-- The names of the places of a layout are its names. -/
theorem map_fst_places (g : SheetGrid) :
    g.places.map Prod.fst = g.layout.flatten := by
  have hline : ∀ line, (placesOf line).map Prod.fst = line.1 := by
    intro line
    rw [placesOf, List.map_map]
    exact List.zipIdx_map_fst 0 line.1
  rw [places, List.map_flatMap]
  simp only [hline]
  rw [List.flatMap_def, List.zipIdx_map_fst]

/-- The names of the named places are the names of the grid. -/
theorem map_fst_positions (g : SheetGrid) :
    g.positions.map Prod.fst = g.names := by
  rw [names, ← map_fst_places, List.filter_map, positions_eq]
  rfl

/-- No name occurs a second time, nor among those seen before. -/
theorem repeated?_eq_none {seen names : List String} :
    repeated? seen names = none ↔
      names.Nodup ∧ ∀ name ∈ names, name ∉ seen := by
  induction names generalizing seen with
  | nil => simp [repeated?]
  | cons name names ih =>
      unfold repeated?
      by_cases h : name ∈ seen
      · simp [h]
      · rw [if_neg (by rw [List.contains_iff_mem]; exact h), ih,
          List.nodup_cons, List.forall_mem_cons]
        simp only [List.mem_cons, not_or]
        constructor
        · rintro ⟨hnodup, hnew⟩
          exact ⟨⟨fun hname => (hnew name hname).1 rfl, hnodup⟩, h,
            fun other hother => (hnew other hother).2⟩
        · rintro ⟨⟨hname, hnodup⟩, -, hnew⟩
          refine ⟨hnodup, fun other hother => ⟨?_, hnew other hother⟩⟩
          rintro rfl
          exact hname hother

-- ======================================================== sizes of cells

/-- A layout that is not ragged has as many names in each row. -/
structure HasSize (g : SheetGrid) (columns rows : Nat) : Prop where
  columns_pos : 0 < columns
  rows_pos : 0 < rows
  rows_eq : g.layout.length = rows
  columns_eq : ∀ names ∈ g.layout, names.length = columns

/-- The dimensions are found for layouts that have a size, and are that
size. -/
theorem hasSize_of_dimensions {columns rows : Nat}
    (h : g.dimensions = .ok (columns, rows)) : g.HasSize columns rows := by
  unfold dimensions at h
  dsimp only at h
  split at h
  · cases h
  next hcolumns =>
    split at h
    · cases h
    next hragged =>
      obtain ⟨rfl, rfl⟩ := Prod.mk.inj (Except.ok.inj h)
      rw [raggedRow?, Option.map_eq_none_iff, List.findIdx?_eq_none_iff]
        at hragged
      refine ⟨Nat.pos_of_ne_zero hcolumns, ?_, rfl, ?_⟩
      · rw [List.length_pos_iff]
        intro hlayout
        rw [hlayout] at hcolumns
        exact hcolumns rfl
      · intro names hnames
        simpa using hragged names hnames

/-- A place has a name exactly when it is inside the layout. -/
theorem HasSize.exists_nameAt? {columns rows column row : Nat}
    (h : g.HasSize columns rows) :
    (∃ name, g.nameAt? column row = some name) ↔
      column < columns ∧ row < rows := by
  unfold nameAt?
  simp only [Option.bind_eq_some_iff]
  constructor
  · rintro ⟨name, names, hrow, hname⟩
    obtain ⟨hrows, rfl⟩ := List.getElem?_eq_some_iff.1 hrow
    obtain ⟨hcolumns, -⟩ := List.getElem?_eq_some_iff.1 hname
    rw [h.columns_eq _ (List.getElem_mem hrows)] at hcolumns
    exact ⟨hcolumns, h.rows_eq ▸ hrows⟩
  · rintro ⟨hcolumn, hrow⟩
    have hrows : row < g.layout.length := h.rows_eq.symm ▸ hrow
    have hcolumns : column < g.layout[row].length := by
      rw [h.columns_eq _ (List.getElem_mem hrows)]
      exact hcolumn
    exact ⟨g.layout[row][column], g.layout[row],
      List.getElem?_eq_getElem hrows, List.getElem?_eq_getElem hcolumns⟩

/-- The cells have a size, and together they are not larger than the
sheet. -/
theorem cellSize_ok_iff {size : Nat × Nat} :
    g.cellSize sheetWidth sheetHeight = .ok size ↔
      ∃ columns rows, g.dimensions = .ok (columns, rows) ∧
        size = (g.cellWidth.getD (sheetWidth / columns),
          g.cellHeight.getD (sheetHeight / rows)) ∧
        (size.1 ≠ 0 ∧ size.2 ≠ 0) ∧
        size.1 * columns ≤ sheetWidth ∧ size.2 * rows ≤ sheetHeight := by
  unfold cellSize
  simp only [bind_eq_ok, Prod.exists, guard_eq_ok, pure_ok_iff, not_or,
    Nat.not_lt]
  constructor
  · rintro ⟨columns, rows, hdimensions, hpos, hle, rfl⟩
    exact ⟨columns, rows, hdimensions, rfl, hpos, hle⟩
  · rintro ⟨columns, rows, hdimensions, rfl, hpos, hle⟩
    exact ⟨columns, rows, hdimensions, hpos, hle, rfl⟩

/-- The cells of a size, unless a name is repeated. -/
theorem cells_eq (g : SheetGrid) (sheetWidth sheetHeight : Nat) :
    g.cells sheetWidth sheetHeight =
      g.cellSize sheetWidth sheetHeight >>= fun size =>
        (repeated? [] g.names).elim
          (.ok (g.positions.map fun place => (place.1,
            g.cellRegion size.1 size.2 place.2.1 place.2.2)))
          fun name => .error (.grid (.namedTwice name)) := by
  unfold SheetGrid.cells
  cases repeated? [] g.names <;> rfl

/-- A sheet is cut into cells when they have a size and no name is given
twice. -/
theorem cells_ok_iff :
    g.cells sheetWidth sheetHeight = .ok cells ↔
      ∃ width height,
        g.cellSize sheetWidth sheetHeight = .ok (width, height) ∧
        g.names.Nodup ∧
        cells = g.positions.map fun place =>
          (place.1, g.cellRegion width height place.2.1 place.2.2) := by
  have hnodup : repeated? [] g.names = none ↔ g.names.Nodup := by
    rw [repeated?_eq_none]
    simp
  rw [cells_eq]
  simp only [bind_eq_ok, Prod.exists]
  cases hrepeated : repeated? [] g.names with
  | some name =>
      rw [hrepeated] at hnodup
      simp [← hnodup]
  | none =>
      rw [hrepeated] at hnodup
      simp [hnodup.1 rfl, eq_comm]

-- =================================================== rectangles of cells

/-- The rectangle of the cell in a column and a row. -/
def cellRectangle (g : SheetGrid) (width height column row : Nat) :
    Sprite.Region :=
  ⟨column * width, row * height, width, height, g.xOffset, g.yOffset⟩

/-- The region of a cell has all its numbers, so nothing of it is taken
from the bitmap. -/
theorem onBitmap_cellRegion (b : Bitmap) (column row : Nat) :
    (g.cellRegion width height column row).onBitmap b =
      g.cellRectangle width height column row :=
  rfl

/-- A pixel belongs to the cell in the column and the row that its
coordinates divided by the cell size are. -/
theorem holds_cell_iff {column row x y : Nat} (hwidth : 0 < width)
    (hheight : 0 < height) :
    (g.cellRectangle width height column row).Holds x y ↔
      x / width = column ∧ y / height = row := by
  unfold Sprite.Region.Holds cellRectangle
  rw [Nat.div_eq_iff hwidth, Nat.div_eq_iff hheight]
  dsimp only
  omega

/-- The cells of a layout that is not larger than the sheet lie inside
it. -/
theorem isInside_cell {b : Bitmap} {columns rows column row : Nat}
    (hcolumn : column < columns) (hrow : row < rows)
    (hwidth : width * columns ≤ b.width)
    (hheight : height * rows ≤ b.height) :
    (g.cellRectangle width height column row).isInside b = true := by
  have hright := Nat.mul_le_mul_left width (Nat.succ_le_of_lt hcolumn)
  have hbottom := Nat.mul_le_mul_left height (Nat.succ_le_of_lt hrow)
  rw [Nat.mul_succ] at hright hbottom
  simp only [Sprite.Region.isInside, Bool.and_eq_true, decide_eq_true_eq]
  dsimp only [cellRectangle]
  rw [Nat.mul_comm column, Nat.mul_comm row]
  omega

/-- The cells of a layout have all pixels of a sheet when they are
together as wide and as high as the sheet. -/
theorem HasSize.covers_iff {columns rows : Nat}
    (h : g.HasSize columns rows) (hwidth : 0 < width)
    (hheight : 0 < height) (hfits : width * columns ≤ sheetWidth)
    (hfits' : height * rows ≤ sheetHeight) :
    (columns * width = sheetWidth ∧ rows * height = sheetHeight) ↔
      ∀ x y, x < sheetWidth → y < sheetHeight →
        ∃ column row name, g.nameAt? column row = some name ∧
          (g.cellRectangle width height column row).Holds x y := by
  have hcell : ∀ x y, (∃ column row name,
      g.nameAt? column row = some name ∧
        (g.cellRectangle width height column row).Holds x y) ↔
      x < columns * width ∧ y < rows * height := by
    intro x y
    rw [← Nat.div_lt_iff_lt_mul hwidth, ← Nat.div_lt_iff_lt_mul hheight,
      ← h.exists_nameAt?]
    simp only [holds_cell_iff hwidth hheight]
    constructor
    · rintro ⟨column, row, name, hname, rfl, rfl⟩
      exact ⟨name, hname⟩
    · rintro ⟨name, hname⟩
      exact ⟨_, _, name, hname, rfl, rfl⟩
  simp only [hcell]
  rw [Nat.mul_comm width] at hfits
  rw [Nat.mul_comm height] at hfits'
  constructor
  · rintro ⟨rfl, rfl⟩ x y hx hy
    exact ⟨hx, hy⟩
  · intro hall
    have hcolumns := Nat.mul_pos h.columns_pos hwidth
    have hrows := Nat.mul_pos h.rows_pos hheight
    -- the last pixel of the sheet is in a cell
    obtain ⟨hx, hy⟩ := hall (sheetWidth - 1) (sheetHeight - 1) (by omega)
      (by omega)
    omega

/-- There is no warning when the cells are together as wide and as high
as the sheet. -/
theorem coverageWarning?_eq_none {columns rows : Nat}
    (hdimensions : g.dimensions = .ok (columns, rows))
    (hsize : g.cellSize sheetWidth sheetHeight = .ok (width, height)) :
    g.coverageWarning? sheetWidth sheetHeight = none ↔
      columns * width = sheetWidth ∧ rows * height = sheetHeight := by
  unfold coverageWarning?
  rw [hdimensions, hsize]
  dsimp only
  by_cases hused : columns * width = sheetWidth ∧ rows * height = sheetHeight
  · simp [hused]
  · simp [hused]

-- ============================================================== tilings

/-- Cells that lie on a sheet as a layout says: an entry for each name
that is not skipped, row by row; every entry where its name stands in the
layout; all inside the sheet and apart from each other; and a warning
unless the places of the layout, skipped ones too, have all pixels of the
sheet. -/
structure Tiles (g : SheetGrid) (cells : List (String × SheetRegion))
    (sheetWidth sheetHeight width height : Nat) : Prop where
  names_eq : cells.map Prod.fst =
    g.layout.flatten.filter fun name => name != skipCell
  nodup : (cells.map Prod.fst).Nodup
  placed : ∀ cell ∈ cells, ∃ column row,
    g.nameAt? column row = some cell.1 ∧
      cell.2 = g.cellRegion width height column row
  inside : ∀ b : Bitmap, b.width = sheetWidth → b.height = sheetHeight →
    ∀ cell ∈ cells, (cell.2.onBitmap b).checkBounds b = .ok ()
  apart : ∀ b : Bitmap, b.width = sheetWidth → b.height = sheetHeight →
    cells.Pairwise fun cell other => ∀ x y,
      ¬ ((cell.2.onBitmap b).Holds x y ∧ (other.2.onBitmap b).Holds x y)
  covers_iff : g.coverageWarning? sheetWidth sheetHeight = none ↔
    ∀ x y, x < sheetWidth → y < sheetHeight →
      ∃ column row name, g.nameAt? column row = some name ∧
        (g.cellRectangle width height column row).Holds x y

/-- The cells that are found tile the sheet. -/
theorem tiles_of_cells (h : g.cells sheetWidth sheetHeight = .ok cells) :
    ∃ width height,
      g.cellSize sheetWidth sheetHeight = .ok (width, height) ∧
        g.Tiles cells sheetWidth sheetHeight width height := by
  obtain ⟨width, height, hsize, hnodup, rfl⟩ := cells_ok_iff.1 h
  obtain ⟨columns, rows, hdimensions, -, hpos, hfits, hfits'⟩ :=
    cellSize_ok_iff.1 hsize
  have hlayout := hasSize_of_dimensions hdimensions
  have hwidth : 0 < width := Nat.pos_of_ne_zero hpos.1
  have hheight : 0 < height := Nat.pos_of_ne_zero hpos.2
  have hnames : (g.positions.map fun cell =>
      (cell.1, g.cellRegion width height cell.2.1 cell.2.2)).map Prod.fst =
      g.names := by
    rw [List.map_map]
    exact g.map_fst_positions
  have hplaced : ∀ cell ∈ g.positions.map fun cell =>
      (cell.1, g.cellRegion width height cell.2.1 cell.2.2),
      ∃ column row, g.nameAt? column row = some cell.1 ∧
        cell.2 = g.cellRegion width height column row := by
    intro cell hcell
    obtain ⟨place, hplace, rfl⟩ := List.mem_map.1 hcell
    rw [positions_eq, List.mem_filter, mem_places] at hplace
    exact ⟨place.2.1, place.2.2, hplace.1, rfl⟩
  refine ⟨width, height, hsize, hnames, by rw [hnames]; exact hnodup,
    hplaced, ?_, ?_, ?_⟩
  · intro b hb hb' cell hcell
    obtain ⟨column, row, hname, hregion⟩ := hplaced cell hcell
    obtain ⟨hcolumn, hrow⟩ := hlayout.exists_nameAt?.1 ⟨_, hname⟩
    rw [hregion, onBitmap_cellRegion, Sprite.Region.checkBounds_ok_iff]
    exact isInside_cell hcolumn hrow (hb.symm ▸ hfits) (hb'.symm ▸ hfits')
  · intro b _ _
    -- a pixel of two cells is in one column and row, and so of one name
    have hdistinct := hnodup
    rw [← hnames, List.Nodup, List.pairwise_map] at hdistinct
    refine hdistinct.imp_of_mem ?_
    rintro cell other hcell hother hne x y ⟨hx, hy⟩
    obtain ⟨column, row, hname, hregion⟩ := hplaced cell hcell
    obtain ⟨column', row', hname', hregion'⟩ := hplaced other hother
    rw [hregion, onBitmap_cellRegion, holds_cell_iff hwidth hheight] at hx
    rw [hregion', onBitmap_cellRegion, holds_cell_iff hwidth hheight] at hy
    obtain ⟨rfl, rfl⟩ := hx
    obtain ⟨rfl, rfl⟩ := hy
    exact hne (Option.some.inj (hname.symm.trans hname'))
  · rw [coverageWarning?_eq_none hdimensions hsize]
    exact hlayout.covers_iff hwidth hheight hfits hfits'

-- ======================================================= cells in words

/-- A grid whose cell sizes are words, with columns and rows that words
count. -/
structure FitsWords (g : SheetGrid) : Prop where
  cellWidth : ∀ size, g.cellWidth = some size → size < 0x100000000
  cellHeight : ∀ size, g.cellHeight = some size → size < 0x100000000
  rows : g.layout.length < 0x100000000
  columns : ∀ names ∈ g.layout, names.length < 0x100000000

/-- A size that is given, or else another. -/
def sizeOr (given : Option Nat) (size : UInt32) : UInt32 :=
  (given.map UInt32.ofNat).getD size

/-- The size of one cell. The share of a column and of a row is taken
also where a size is given. The products that are compared with the sheet
are words of 64 bits, which have room for any of them. -/
def cellSizeWords (g : SheetGrid) (sheetWidth sheetHeight : UInt32) :
    Except Error (UInt32 × UInt32) := do
  let size ← g.dimensions.mapError .value
  let columns := UInt32.ofNat size.1
  let rows := UInt32.ofNat size.2
  let width := sizeOr g.cellWidth
    (← divWords "column width" sheetWidth columns)
  let height := sizeOr g.cellHeight
    (← divWords "row height" sheetHeight rows)
  if width.toNat = 0 ∨ height.toNat = 0 then
    .error (.value (.grid (.noFit columns.toNat rows.toNat
      sheetWidth.toNat sheetHeight.toNat)))
  else if sheetWidth.toNat < width.toNat * columns.toNat ∨
      sheetHeight.toNat < height.toNat * rows.toNat then
    .error (.value (.grid (.exceeds columns.toNat rows.toNat width.toNat
      height.toNat sheetWidth.toNat sheetHeight.toNat)))
  else .ok (width, height)

/-- The cells so far with the cell of a name. -/
def addCell (g : SheetGrid) (width height : UInt32)
    (cells : List (String × SheetRegion)) (place : String × Nat × Nat) :
    Except Error (List (String × SheetRegion)) := do
  if place.1 == skipCell then return cells
  if cells.any (·.1 == place.1) then
    throw (.value (.grid (.namedTwice place.1)))
  let x ← mulWords "cell column" (.ofNat place.2.1) width
  let y ← mulWords "cell row" (.ofNat place.2.2) height
  return cells ++ [(place.1, {
    sheet := g.sheet, x := x.toNat, y := y.toNat
    width := some width.toNat, height := some height.toNat
    xOffset := g.xOffset, yOffset := g.yOffset })]

/-- The named regions of a grid on a sheet, name by name. -/
def cellsWords (g : SheetGrid) (sheetWidth sheetHeight : UInt32) :
    Except Error (List (String × SheetRegion)) := do
  let size ← g.cellSizeWords sheetWidth sheetHeight
  g.places.foldlM (g.addCell size.1 size.2) []

/-- The warning about unused parts of a sheet. A grid without columns or
without a cell size has none; a step that fails is not such a grid. -/
def coverageWords (g : SheetGrid) (sheetWidth sheetHeight : UInt32) :
    Except Error (Option Diagnostic) :=
  match g.dimensions, g.cellSizeWords sheetWidth sheetHeight with
  | _, .error (.panic step) => .error (.panic step)
  | .ok count, .ok size => do
    let wide ← mulWords "used width" (.ofNat count.1) size.1
    let high ← mulWords "used height" (.ofNat count.2) size.2
    if wide = sheetWidth ∧ high = sheetHeight then return none
    return some {
      severity := .warning
      code := "rcdgen::grid::coverage"
      message :=
        s!"grid of {g.sheet.text} covers {wide.toNat}x{high.toNat} of the " ++
          s!"{sheetWidth.toNat}x{sheetHeight.toNat} sheet"
      help := some "Set cell_width/cell_height or adjust the layout" }
  | _, _ => .ok none

/-- A given size is taken as it is, and else the one from the sheet. -/
theorem toNat_sizeOr {given : Option Nat}
    (h : ∀ size, given = some size → size < 0x100000000)
    (size : UInt32) : (sizeOr given size).toNat = given.getD size.toNat := by
  cases given with
  | none => rfl
  | some own => exact UInt32.toNat_ofNat_of_lt' (h own rfl)

/-- A count times a size, when they and the product are words. -/
theorem mulWords_ofNat_ok (step : String) {count : Nat} {size : UInt32}
    (hcount : count < 0x100000000)
    (h : count * size.toNat < 0x100000000) :
    ∃ c, mulWords step (.ofNat count) size = .ok c ∧
      c.toNat = count * size.toNat := by
  have hword := UInt32.toNat_ofNat_of_lt' hcount
  obtain ⟨c, hc, hproduct⟩ := mulWords_ok step (a := .ofNat count)
    (b := size) (by rw [hword]; exact h)
  exact ⟨c, hc, by rw [hproduct, hword]⟩

/-- A layout of a grid that fits words has columns and rows that words
count. -/
theorem FitsWords.counts (hg : g.FitsWords) {columns rows : Nat}
    (h : g.HasSize columns rows) :
    columns < 0x100000000 ∧ rows < 0x100000000 := by
  obtain ⟨name, hname⟩ := h.exists_nameAt?.2 ⟨h.columns_pos, h.rows_pos⟩
  obtain ⟨names, hnames, -⟩ := Option.bind_eq_some_iff.1 hname
  have hcolumns := hg.columns names (List.mem_of_getElem? hnames)
  rw [h.columns_eq names (List.mem_of_getElem? hnames)] at hcolumns
  exact ⟨hcolumns, h.rows_eq ▸ hg.rows⟩

/-- The size of a cell is found out without a failing step. -/
theorem map_cellSizeWords (hg : g.FitsWords)
    (sheetWidth sheetHeight : UInt32) :
    Prod.map UInt32.toNat UInt32.toNat <$>
        g.cellSizeWords sheetWidth sheetHeight =
      (g.cellSize sheetWidth.toNat sheetHeight.toNat).mapError .value := by
  unfold cellSizeWords cellSize
  rcases hdimensions : g.dimensions with e | ⟨columns, rows⟩
  · rfl
  · have hsize := hasSize_of_dimensions hdimensions
    obtain ⟨hcolumns, hrows⟩ := hg.counts hsize
    have hcolumnsWord := UInt32.toNat_ofNat_of_lt' hcolumns
    have hrowsWord := UInt32.toNat_ofNat_of_lt' hrows
    have hcolumnsPos := hsize.columns_pos
    have hrowsPos := hsize.rows_pos
    obtain ⟨wide, hwide, hwideWord⟩ := divWords_ok "column width"
      sheetWidth (b := .ofNat columns) (by omega)
    obtain ⟨high, hhigh, hhighWord⟩ := divWords_ok "row height"
      sheetHeight (b := .ofNat rows) (by omega)
    have hwidth := toNat_sizeOr hg.cellWidth wide
    have hheight := toNat_sizeOr hg.cellHeight high
    rw [hwideWord, hcolumnsWord] at hwidth
    rw [hhighWord, hrowsWord] at hheight
    rw [ok_bind, mapError_ok, ok_bind]
    dsimp only
    rw [hwide, ok_bind, hhigh, ok_bind]
    simp only [hwidth, hheight, hcolumnsWord, hrowsWord]
    split
    · rfl
    split
    · rfl
    · exact congrArg Except.ok (Prod.ext hwidth hheight)

/-- The columns and rows of cells that have a size are together words. -/
theorem fits_of_cellSizeWords (hg : g.FitsWords)
    {sheetWidth sheetHeight : UInt32} {size : UInt32 × UInt32}
    (h : g.cellSizeWords sheetWidth sheetHeight = .ok size) :
    ∃ columns rows, g.dimensions = .ok (columns, rows) ∧
      (columns < 0x100000000 ∧ rows < 0x100000000) ∧
        columns * size.1.toNat < 0x100000000 ∧
          rows * size.2.toNat < 0x100000000 := by
  have hsize := map_cellSizeWords hg sheetWidth sheetHeight
  rw [h] at hsize
  obtain ⟨columns, rows, hdimensions, -, -, hfits, hfits'⟩ :=
    cellSize_ok_iff.1 (mapError_ok_iff.1 hsize.symm)
  have hwidth := sheetWidth.toNat_lt
  have hheight := sheetHeight.toNat_lt
  dsimp only [Prod.map] at hfits hfits'
  rw [Nat.mul_comm] at hfits hfits'
  exact ⟨columns, rows, hdimensions,
    hg.counts (hasSize_of_dimensions hdimensions), by omega, by omega⟩

/-- A place whose corner is a word adds its cell, unless it is skipped or
its name has a cell already. -/
theorem addCell_eq {size : UInt32 × UInt32} {place : String × Nat × Nat}
    (hcolumn : place.2.1 < 0x100000000) (hrow : place.2.2 < 0x100000000)
    (hx : place.2.1 * size.1.toNat < 0x100000000)
    (hy : place.2.2 * size.2.toNat < 0x100000000) :
    g.addCell size.1 size.2 cells place =
      if place.1 = skipCell then .ok cells
      else if place.1 ∈ cells.map Prod.fst then
        .error (.value (.grid (.namedTwice place.1)))
      else .ok (cells ++ [(place.1, g.cellRegion size.1.toNat size.2.toNat
        place.2.1 place.2.2)]) := by
  obtain ⟨x, hx, hxWord⟩ := mulWords_ofNat_ok "cell column" hcolumn hx
  obtain ⟨y, hy, hyWord⟩ := mulWords_ofNat_ok "cell row" hrow hy
  have hany : (cells.any fun cell => cell.1 == place.1) = true ↔
      place.1 ∈ cells.map Prod.fst := by
    simp only [List.any_eq_true, beq_iff_eq, List.mem_map]
  unfold addCell
  simp only [beq_iff_eq, hany]
  split
  · rfl
  split
  · rfl
  · rw [hx, ok_bind, hy, ok_bind, hxWord, hyWord]
    rfl

/-- Adding the cells of places, name by name, gives the cells of those
that are not skipped, or refuses the first name that is repeated. -/
theorem foldlM_addCell {size : UInt32 × UInt32}
    {places : List (String × Nat × Nat)} {seen : List String}
    (hplaces : ∀ place ∈ places,
      (place.2.1 < 0x100000000 ∧ place.2.2 < 0x100000000) ∧
        place.2.1 * size.1.toNat < 0x100000000 ∧
          place.2.2 * size.2.toNat < 0x100000000)
    (hseen : ∀ name, name ∈ seen ↔ name ∈ cells.map Prod.fst) :
    places.foldlM (g.addCell size.1 size.2) cells =
      (repeated? seen ((places.filter fun place =>
          place.1 != skipCell).map Prod.fst)).elim
        (.ok (cells ++ (places.filter fun place =>
          place.1 != skipCell).map fun place =>
            (place.1, g.cellRegion size.1.toNat size.2.toNat place.2.1
              place.2.2)))
        fun name => .error (.value (.grid (.namedTwice name))) := by
  induction places generalizing cells seen with
  | nil => simp [repeated?]
  | cons place places ih =>
      obtain ⟨⟨hcolumn, hrow⟩, hx, hy⟩ := hplaces place List.mem_cons_self
      have hrest := fun other hother =>
        hplaces other (List.mem_cons_of_mem place hother)
      rw [List.foldlM_cons, addCell_eq hcolumn hrow hx hy]
      by_cases hskip : place.1 = skipCell
      · rw [if_pos hskip, ok_bind, List.filter_cons_of_neg (by simp [hskip])]
        exact ih hrest hseen
      · rw [if_neg hskip, List.filter_cons_of_pos (by simpa using hskip),
          List.map_cons, repeated?]
        by_cases hname : place.1 ∈ cells.map Prod.fst
        · rw [if_pos hname, if_pos (by simpa using (hseen _).2 hname)]
          rfl
        · have hnew : ¬ seen.contains place.1 = true := by
            rw [List.contains_iff_mem, hseen]
            exact hname
          have hseen' : ∀ name, name ∈ place.1 :: seen ↔
              name ∈ (cells ++ [(place.1, g.cellRegion size.1.toNat
                size.2.toNat place.2.1 place.2.2)]).map Prod.fst := by
            intro name
            rw [List.mem_cons, hseen, List.map_append, List.mem_append,
              or_comm]
            simp
          rw [if_neg hname, ok_bind, if_neg hnew, ih hrest hseen',
            List.append_assoc, List.map_cons]
          rfl

/-- The cells of a grid are found without a failing step. -/
theorem cellsWords_eq (hg : g.FitsWords) (sheetWidth sheetHeight : UInt32) :
    g.cellsWords sheetWidth sheetHeight =
      (g.cells sheetWidth.toNat sheetHeight.toNat).mapError .value := by
  have hsize := map_cellSizeWords hg sheetWidth sheetHeight
  rw [cells_eq]
  unfold cellsWords
  rcases hwords : g.cellSizeWords sheetWidth sheetHeight with e | size
  · rw [hwords] at hsize
    obtain ⟨cause, hcause, rfl⟩ := mapError_error_iff.1 hsize.symm
    rw [hcause]
    rfl
  · rw [hwords] at hsize
    rw [mapError_ok_iff.1 hsize.symm]
    obtain ⟨columns, rows, hdimensions, ⟨hcolumns, hrows⟩, hwidth, hheight⟩ :=
      fits_of_cellSizeWords hg hwords
    have hseen : ∀ name, name ∈ ([] : List String) ↔
        name ∈ ([] : List (String × SheetRegion)).map Prod.fst := by
      simp
    rw [ok_bind, foldlM_addCell ?_ hseen, ← positions_eq,
      map_fst_positions]
    · rw [ok_bind]
      cases repeated? [] g.names <;> rfl
    · intro place hplace
      obtain ⟨hcolumn, hrow⟩ := (hasSize_of_dimensions
        hdimensions).exists_nameAt?.1 ⟨_, mem_places.1 hplace⟩
      have hx := Nat.mul_le_mul_right size.1.toNat (Nat.le_of_lt hcolumn)
      have hy := Nat.mul_le_mul_right size.2.toNat (Nat.le_of_lt hrow)
      omega

/-- A cell size is refused for a flaw of the grid. -/
theorem grid_of_cellSize_error {e : ValueError}
    (h : g.cellSize sheetWidth sheetHeight = .error e) :
    ∃ flaw, e = .grid flaw := by
  unfold cellSize dimensions at h
  dsimp only at h
  simp only [bind_eq_error, Prod.exists, guard_eq_error, pure_ne_error,
    and_false, or_false] at h
  rcases h with h | ⟨columns, rows, -, ⟨-, rfl⟩ | ⟨-, -, rfl⟩⟩
  · split at h
    · cases h
      exact ⟨_, rfl⟩
    · split at h
      · cases h
        exact ⟨_, rfl⟩
      · cases h
  · exact ⟨_, rfl⟩
  · exact ⟨_, rfl⟩

/-- The warning about unused parts is found without a failing step. -/
theorem coverageWords_eq (hg : g.FitsWords)
    (sheetWidth sheetHeight : UInt32) :
    g.coverageWords sheetWidth sheetHeight =
      .ok (g.coverageWarning? sheetWidth.toNat sheetHeight.toNat) := by
  have hsize := map_cellSizeWords hg sheetWidth sheetHeight
  unfold coverageWords coverageWarning?
  rcases hwords : g.cellSizeWords sheetWidth sheetHeight with e | size
  · rw [hwords] at hsize
    obtain ⟨cause, hcause, rfl⟩ := mapError_error_iff.1 hsize.symm
    obtain ⟨flaw, rfl⟩ := grid_of_cellSize_error hcause
    rw [hcause]
    cases g.dimensions <;> rfl
  · have hnumbers : g.cellSize sheetWidth.toNat sheetHeight.toNat =
        .ok (size.1.toNat, size.2.toNat) := by
      rw [hwords] at hsize
      exact mapError_ok_iff.1 hsize.symm
    obtain ⟨columns, rows, hdimensions, ⟨hcolumns, hrows⟩, hwidth, hheight⟩ :=
      fits_of_cellSizeWords hg hwords
    obtain ⟨wide, hwide, hwideWord⟩ :=
      mulWords_ofNat_ok "used width" hcolumns hwidth
    obtain ⟨high, hhigh, hhighWord⟩ :=
      mulWords_ofNat_ok "used height" hrows hheight
    rw [hdimensions, hnumbers]
    dsimp only
    rw [hwide, ok_bind, hhigh, ok_bind]
    simp only [← UInt32.toNat_inj, hwideWord, hhighWord]
    split <;> rfl

-- ============================================================== grids

/-- The cells of a grid tile the sheet as its layout says, and they and
the warning about unused parts are found in words without a failing
step. -/
theorem cells_tile (hg : g.FitsWords) {sheetWidth sheetHeight : UInt32}
    (h : g.cells sheetWidth.toNat sheetHeight.toNat = .ok cells) :
    (∃ width height,
      g.cellSize sheetWidth.toNat sheetHeight.toNat = .ok (width, height) ∧
        g.Tiles cells sheetWidth.toNat sheetHeight.toNat width height) ∧
      g.cellsWords sheetWidth sheetHeight = .ok cells ∧
      g.coverageWords sheetWidth sheetHeight =
        .ok (g.coverageWarning? sheetWidth.toNat sheetHeight.toNat) := by
  refine ⟨tiles_of_cells h, ?_, coverageWords_eq hg _ _⟩
  rw [cellsWords_eq hg, h, mapError_ok]

/-- A grid with a cell that produces no sprite. -/
def yard : SheetGrid where
  sheet := ⟨"yard.png"⟩
  cellWidth := some 10
  layout := [["north", "_"], ["south", "west"]]

/-- The cells of the grid. -/
def yardCells : List (String × SheetRegion) :=
  [("north", yard.cellRegion 10 8 0 0), ("south", yard.cellRegion 10 8 0 1),
    ("west", yard.cellRegion 10 8 1 1)]

/-- The three cells tile the sheet, found with words as with numbers; the
layout covers the sheet, so there is no warning. -/
theorem cells_tile_yard :
    yard.FitsWords ∧ yard.cells 20 16 = .ok yardCells ∧
      yard.Tiles yardCells 20 16 10 8 ∧
      yard.cellsWords 20 16 = .ok yardCells ∧
      yard.coverageWords 20 16 = .ok none := by
  have hfits : yard.FitsWords := by
    refine ⟨?_, ?_, by decide, by decide⟩
    · rintro size ⟨⟩
      decide
    · rintro size ⟨⟩
  have hcells : yard.cells (20 : UInt32).toNat (16 : UInt32).toNat =
      .ok yardCells := by
    decide
  obtain ⟨⟨width, height, hsize, htiles⟩, hwords, hcoverage⟩ :=
    cells_tile hfits hcells
  have hsize' : yard.cellSize 20 16 = .ok (10, 8) := by
    decide
  obtain ⟨rfl, rfl⟩ := Prod.mk.inj (Except.ok.inj
    (hsize'.symm.trans hsize))
  exact ⟨hfits, hcells, htiles, hwords, hcoverage⟩

end SheetGrid

end GamePack
