import GamePack.Proofs.Conversion.Running

/-!
The sheets of a conversion. A cache looked at together with what loading
gives is one function from paths to sheets; asking for a sheet gives what
this function says, and afterwards the function is the same but for the
other spellings of the path, which now give that sheet as well.

`DataType.sheets` collects the paths that a bound value names for a type;
these are the only ones that its conversion asks for.
-/
namespace GamePack

-- ================================================= cached and loaded

namespace SheetCache

variable {c : SheetCache} {load : Path → Except Error Bitmap}
  {p q : Path} {b : Bitmap}

/-- The sheet of a path: the one that is kept under one of its spellings,
or what loading gives. -/
def look (c : SheetCache) (load : Path → Except Error Bitmap)
    (p : Path) : Except Error Bitmap :=
  match c.find? p with
  | some b => .ok b
  | none => load p

/-- The cache after a sheet was asked for and found. -/
def keep (c : SheetCache) (p : Path) (b : Bitmap) : SheetCache :=
  match c.find? p with
  | some _ => c
  | none => c.insert p b

/-- A sheet that is kept is not loaded again. -/
theorem look_of_find? (h : c.find? p = some b) : c.look load p = .ok b := by
  rw [look, h]

theorem look_of_find?_none (h : c.find? p = none) :
    c.look load p = load p := by
  rw [look, h]

/-- To keep a sheet again changes nothing. -/
theorem keep_of_find? (h : c.find? p = some b) (b' : Bitmap) :
    c.keep p b' = c := by
  rw [keep, h]

theorem keep_of_find?_none (h : c.find? p = none) (b : Bitmap) :
    c.keep p b = c.insert p b := by
  rw [keep, h]

/-- Spellings of one path find the same. -/
theorem find?_of_same (h : q.same p = true) : c.find? p = c.find? q := by
  have hspelled : p.components = q.components := (beq_iff_eq.1 h).symm
  simp only [find?, Path.same, hspelled]

/-- Under a path of the same components the new sheet is found, and under
others what was there. -/
theorem find?_insert (c : SheetCache) (p q : Path) (b : Bitmap) :
    (c.insert q b).find? p =
      if q.same p then some b else c.find? p := by
  simp only [find?, insert, List.find?_append, List.find?_filter]
  by_cases h : q.same p
  · -- what was kept under another spelling was dropped
    have hspelled : q.components = p.components := beq_iff_eq.1 h
    have hdropped : c.sheets.find? (fun entry =>
        (!entry.1.same q) = true ∧ entry.1.same p = true) = none := by
      rw [List.find?_eq_none]
      intro entry _
      simp [Path.same, hspelled]
    rw [if_pos h, hdropped]
    simp [h]
  · have hothers : (fun entry : Path × Bitmap =>
        decide ((!entry.1.same q) = true ∧ entry.1.same p = true)) =
          fun entry => entry.1.same p := by
      funext entry
      by_cases hentry : entry.1.same p
      · have hspelled : entry.1.components = p.components :=
          beq_iff_eq.1 hentry
        simp only [Path.same, beq_iff_eq] at h
        simp [Path.same, hspelled, Ne.symm h]
      · simp [hentry]
    rw [if_neg h, hothers]
    simp [h]

/-- Where a path finds no sheet, a sheet is put behind the others. -/
theorem sheets_insert (h : c.find? p = none) (b : Bitmap) :
    (c.insert p b).sheets = c.sheets ++ [(p, b)] := by
  have hothers : c.sheets.filter (fun entry => !entry.1.same p) =
      c.sheets := by
    rw [List.filter_eq_self]
    intro entry hentry
    rw [find?, Option.map_eq_none_iff, List.find?_eq_none] at h
    simpa using h entry hentry
  rw [insert, hothers]

/-- A sheet that was found is there under all spellings of its path from
then on, and nothing else changes. -/
theorem look_keep (h : c.look load q = .ok b) (p : Path) :
    (c.keep q b).look load p =
      if q.same p then .ok b else c.look load p := by
  cases hfound : c.find? q with
  | some b' =>
      rw [look_of_find? hfound] at h
      obtain rfl := Except.ok.inj h
      rw [keep_of_find? hfound]
      split
      next hsame =>
        exact look_of_find? ((find?_of_same hsame).trans hfound)
      next => rfl
  | none =>
      rw [keep_of_find?_none hfound]
      unfold look
      rw [find?_insert]
      by_cases hsame : q.same p <;> simp [hsame]

/-- A sheet that was asked for and found is kept under its path. -/
theorem find?_keep (h : c.look load p = .ok b) :
    (c.keep p b).find? p = some b := by
  cases hfound : c.find? p with
  | some b' =>
      rw [look_of_find? hfound] at h
      rw [keep_of_find? hfound, hfound, Except.ok.inj h]
  | none =>
      rw [keep_of_find?_none hfound, find?_insert]
      exact if_pos (beq_self_eq_true _)

/-- Only a sheet that was loaded is added to a cache. -/
theorem mem_keep {entry : Path × Bitmap} (h : c.look load q = .ok b)
    (hentry : entry ∈ (c.keep q b).sheets) :
    entry ∈ c.sheets ∨ entry = (q, b) ∧ load q = .ok b := by
  cases hfound : c.find? q with
  | some b' =>
      rw [keep_of_find? hfound] at hentry
      exact .inl hentry
  | none =>
      rw [look_of_find?_none hfound] at h
      rw [keep_of_find?_none hfound, insert] at hentry
      rcases List.mem_append.1 hentry with hold | hnew
      · exact .inl (List.mem_of_mem_filter hold)
      · exact .inr ⟨List.mem_singleton.1 hnew, h⟩

/-- What is found under a path was kept under one of its spellings. -/
theorem exists_of_find? (h : c.find? p = some b) :
    ∃ q, (q, b) ∈ c.sheets ∧ q.same p = true := by
  obtain ⟨entry, hentry, rfl⟩ := Option.map_eq_some_iff.1 h
  have hsame := List.find?_some hentry
  exact ⟨entry.1, List.mem_of_find?_eq_some hentry, hsame⟩

end SheetCache

namespace Conversion

variable {settings : ConversionSettings} {s s' : ConversionState}
  {p : Path} {b : Bitmap} {e : Error}

/-- Asking for a sheet that can be had gives it and keeps it. -/
theorem outcome_sheet_of_ok
    (h : s.sheets.look settings.load p = .ok b) :
    (sheet settings p).outcome s =
      (.ok b, { s with sheets := s.sheets.keep p b }) := by
  have hget : (get : Conversion ConversionState).outcome s = (.ok s, s) :=
    rfl
  rw [sheet, outcome_bind_of_ok hget]
  cases hfound : s.sheets.find? p with
  | some b' =>
      rw [SheetCache.look_of_find? hfound] at h
      obtain rfl := Except.ok.inj h
      rw [SheetCache.keep_of_find? hfound]
      rfl
  | none =>
      rw [SheetCache.look_of_find?_none hfound] at h
      rw [SheetCache.keep_of_find?_none hfound, h]
      rfl

/-- Asking for a sheet that cannot be had changes nothing. -/
theorem outcome_sheet_of_error
    (h : s.sheets.look settings.load p = .error e) :
    (sheet settings p).outcome s = (.error e, s) := by
  have hget : (get : Conversion ConversionState).outcome s = (.ok s, s) :=
    rfl
  rw [sheet, outcome_bind_of_ok hget]
  cases hfound : s.sheets.find? p with
  | some b =>
      rw [SheetCache.look_of_find? hfound] at h
      cases h
  | none =>
      rw [SheetCache.look_of_find?_none hfound] at h
      rw [h]
      rfl

/-- Asking for a sheet runs when the sheet can be had. -/
theorem runs_sheet :
    (sheet settings p).Runs s b s' ↔
      s.sheets.look settings.load p = .ok b ∧
        s' = { s with sheets := s.sheets.keep p b } := by
  unfold Runs
  cases hlook : s.sheets.look settings.load p with
  | error e => simp [outcome_sheet_of_error hlook]
  | ok b' =>
      rw [outcome_sheet_of_ok hlook]
      constructor
      · intro h
        cases h
        exact ⟨rfl, rfl⟩
      · rintro ⟨h, rfl⟩
        cases h
        rfl

/-- All that getting the cells of a grid does: its sheet is kept, and
what the cells leave uncovered reported. -/
theorem runs_gridCells {grid : SheetGrid}
    {cells : List (String × SheetRegion)} :
    (gridCells settings grid).Runs s cells s' ↔
      ∃ b, s.sheets.look settings.load grid.sheet = .ok b ∧
        grid.cells b.width b.height = .ok cells ∧
        s' = { s with
          sheets := s.sheets.keep grid.sheet b
          diagnostics := s.diagnostics ++
            (grid.coverageWarning? b.width b.height).toList } := by
  simp only [gridCells, runs_bind, runs_sheet, runs_modify, runs_ofValue]
  constructor
  · intro h
    obtain ⟨b, _, ⟨hsheet, rfl⟩, _, _, rfl, hcells, rfl⟩ := h
    exact ⟨b, hsheet, hcells, rfl⟩
  · intro h
    obtain ⟨b, hsheet, hcells, rfl⟩ := h
    exact ⟨b, _, ⟨hsheet, rfl⟩, ⟨⟩, _, rfl, hcells, rfl⟩

end Conversion

-- ==================================================== named sheets

namespace DataType

mutual
/-- The sheets that a bound value names for a type. -/
def sheets : DataType → FieldValue → List Path
  | .reference _, .image region => [region.sheet]
  | .imageData, .image region => [region.sheet]
  | .list _ element, .list items =>
    items.flatMap fun item => element.sheets item
  | .list _ _, .grid grid => [grid.sheet]
  | .struct _ fields, .struct items => fieldSheets items fields
  | .struct _ _, .grid grid => [grid.sheet]
  | _, _ => []

/-- The sheets that the items of a structure name. -/
def fieldSheets (items : List (String × FieldValue)) :
    List (String × DataType) → List Path
  | [] => []
  | (name, t) :: fields =>
    ((items.reverse.lookup name).map fun item => t.sheets item).getD [] ++
      fieldSheets items fields
end

end DataType

/-- The cells of a grid are regions of its sheet. -/
theorem SheetGrid.sheet_of_mem_cells {grid : SheetGrid}
    {width height : Nat} {cells : List (String × SheetRegion)}
    (h : grid.cells width height = .ok cells) :
    ∀ cell ∈ cells, cell.2.sheet = grid.sheet := by
  simp only [SheetGrid.cells, bind_eq_ok] at h
  obtain ⟨size, -, h⟩ := h
  split at h
  · cases h
  · obtain rfl := pure_ok_iff.1 h
    intro cell hcell
    obtain ⟨_, -, rfl⟩ := List.mem_map.1 hcell
    rfl

end GamePack
