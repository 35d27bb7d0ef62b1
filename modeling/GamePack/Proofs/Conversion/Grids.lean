import GamePack.Proofs.Conversion.Twins
import GamePack.Proofs.Sprite.Tiling
import GamePack.Proofs.Yaml.Records

/-!
A grid is shorthand for its cells. For a list, the cells of a grid are
converted like their regions, one after the other. For a structure, the
cell of each sub-field is taken out of those that are left, and the last
of these comes into its place, where a structure of regions is looked
through from its end each time; as no name is given twice, both find the
same region, whatever the order (`lookup_of_perm`).

The two ways to write the sprites ask for the sheet at different times,
and report unused parts of it or not. So states are compared up to that
(`Alike`), with caches that give the same for the sheet. A failing
sub-field is named in one way only, so failures are compared as such.
-/
namespace GamePack

namespace Conversion

variable {α β : Type} {S : ConversionState → ConversionState → Prop}
  {settings : ConversionSettings} {grid : SheetGrid} {b : Bitmap}
  {s : ConversionState} {cells : List (String × SheetRegion)}

-- ====================================================== equal effects

/-- Two outcomes with the same value, or both without one, and with the
same file and reports of sprites. -/
structure SameEffect (o o' : Except Error α × ConversionState) : Prop where
  value : o.1.toOption = o'.1.toOption
  container : o.2.container = o'.2.container
  sprites : o.2.sprites = o'.2.sprites

/-- From related states, two conversions give the same value, or none,
and leave related states. -/
def Matches (S : ConversionState → ConversionState → Prop)
    (c c' : Conversion α) : Prop :=
  ∀ s s', S s s' →
    (c.outcome s).1.toOption = (c'.outcome s').1.toOption ∧
      S (c.outcome s).2 (c'.outcome s').2

/-- Conversions that meet, failures included, match. -/
theorem matches_of_meets {c c' : Conversion α}
    (h : MeetsOver True S c c') : Matches S c c' := by
  intro s s' hstates
  obtain ⟨hresult, hstates⟩ := h s s' hstates (.inl trivial)
  exact ⟨congrArg Except.toOption hresult, hstates⟩

/-- Failures match, whatever they are. -/
theorem matches_throw (e e' : Error) :
    Matches S (throw e : Conversion α) (throw e') :=
  fun _ _ hstates => ⟨rfl, hstates⟩

/-- Chains match when their steps do. -/
theorem matches_bind {c c' : Conversion α} {f f' : α → Conversion β}
    (hc : Matches S c c') (hf : ∀ a, Matches S (f a) (f' a)) :
    Matches S (c >>= f) (c' >>= f') := by
  intro s s' hstates
  obtain ⟨hresult, hnext⟩ := hc s s' hstates
  rcases hrun : c.outcome s with ⟨r, s₁⟩
  rcases hrun' : c'.outcome s' with ⟨r', s₁'⟩
  rw [hrun, hrun'] at hresult hnext
  rcases r with e | a <;> rcases r' with e' | a'
  · rw [outcome_bind_of_error hrun, outcome_bind_of_error hrun']
    exact ⟨rfl, hnext⟩
  · cases hresult
  · cases hresult
  · obtain rfl : a = a' := Option.some.inj hresult
    rw [outcome_bind_of_ok hrun, outcome_bind_of_ok hrun']
    exact hf a _ _ hnext

/-- A failure that is given its field is a failure. -/
theorem matches_inField {owner name : String} {c c' : Conversion α}
    (h : Matches S c c') : Matches S c (inField owner name c') := by
  intro s s' hstates
  obtain ⟨hresult, hnext⟩ := h s s' hstates
  rw [outcome_inField]
  refine ⟨hresult.trans ?_, hnext⟩
  cases (c'.outcome s').1 <;> rfl

-- ================================================= states and one sheet

/-- States with the same file and reports of sprites, in which a sheet
is the same. -/
abbrev AlikeFor (settings : ConversionSettings) (sheet : Path) :
    ConversionState → ConversionState → Prop :=
  Alike (Twins.Agree True (· = sheet) settings.load settings.load)

/-- Sprites of one sheet are converted alike. -/
theorem meets_sprite_self {region : SheetRegion} {sheet : Path}
    (h : region.sheet = sheet) :
    MeetsOver True (AlikeFor settings sheet) (sprite settings region)
      (sprite settings region) := by
  have htwins := Twins.of_agree True (· = sheet) settings.load settings.load
  exact htwins.meets_sprite h

/-- Conversions that match have the same effect from alike states. -/
theorem sameEffect_of_matches {sheet : Path} {c c' : Conversion α}
    {s s' : ConversionState}
    (h : Matches (AlikeFor settings sheet) c c')
    (hstates : AlikeFor settings sheet s s') :
    SameEffect (c.outcome s) (c'.outcome s') := by
  obtain ⟨hvalue, halike⟩ := h s s' hstates
  exact ⟨hvalue, halike.container, halike.sprites⟩

/-- The cells of a grid that are found on its sheet are given, and the
state is what it was but for the sheet and a warning. -/
theorem outcome_gridCells
    (hsheet : s.sheets.look settings.load grid.sheet = .ok b)
    (hcells : grid.cells b.width b.height = .ok cells) :
    (gridCells settings grid).outcome s =
      (.ok cells, { s with
        sheets := s.sheets.keep grid.sheet b
        diagnostics := s.diagnostics ++
          (grid.coverageWarning? b.width b.height).toList }) :=
  runs_gridCells.2 ⟨b, hsheet, hcells, rfl⟩

/-- Where the cells of a grid are used, states go on alike. -/
theorem alikeFor_gridCells
    (hsheet : s.sheets.look settings.load grid.sheet = .ok b)
    (diagnostics : Diagnostics) :
    AlikeFor settings grid.sheet
      { s with sheets := s.sheets.keep grid.sheet b, diagnostics } s := by
  refine ⟨rfl, rfl, ?_⟩
  rintro _ rfl -
  have hsame : grid.sheet.same grid.sheet = true := beq_self_eq_true _
  rw [SheetCache.look_keep hsheet, if_pos hsame, hsheet]

-- ================================================================ lists

theorem exists_reference {t : DataType} (h : t.isReference = true) :
    ∃ kind, t = .reference kind := by
  cases t with
  | reference kind => exact ⟨kind, rfl⟩
  | _ => cases h

/-- Regions are converted one by one to references to their sprites. -/
theorem mapM_convert_images {element : DataType}
    (h : element.isReference = true) (regions : List SheetRegion) :
    (regions.map FieldValue.image).mapM (convert settings element) =
      spriteRefs settings regions := by
  obtain ⟨kind, rfl⟩ := exists_reference h
  rw [List.mapM_map]
  refine congrArg (fun f => regions.mapM f) (funext fun region => ?_)
  rw [Function.comp_apply, convert]

/-- A grid in the place of a list stands for the regions of its cells. -/
theorem sameEffect_list
    (hsheet : s.sheets.look settings.load grid.sheet = .ok b)
    (hcells : grid.cells b.width b.height = .ok cells) (count : Numeric)
    {element : DataType} (helement : element.isReference = true) :
    SameEffect
      ((convert settings (.list count element) (.grid grid)).outcome s)
      ((convert settings (.list count element)
        (.list (cells.map fun cell => .image cell.2))).outcome s) := by
  have himages : (cells.map fun cell => FieldValue.image cell.2) =
      (cells.map Prod.snd).map FieldValue.image := by
    rw [List.map_map]
    rfl
  have hregions : ∀ region ∈ cells.map Prod.snd,
      region.sheet = grid.sheet := by
    intro region hregion
    obtain ⟨cell, hcell, rfl⟩ := List.mem_map.1 hregion
    exact SheetGrid.sheet_of_mem_cells hcells cell hcell
  rw [convert, convert, listGrid, himages, mapM_convert_images helement,
    List.length_map, List.length_map]
  simp only [helement, Bool.not_true, Bool.false_eq_true, if_false]
  rw [outcome_bind_of_ok (outcome_gridCells hsheet hcells)]
  refine sameEffect_of_matches (matches_of_meets ?_)
    (alikeFor_gridCells hsheet _)
  refine meets_bind (meets_ofExcept _) fun _ => ?_
  refine meets_bind (meets_mapM fun region hregion => ?_) fun _ =>
    meets_pure _
  exact meets_bind (meets_sprite_self (hregions region hregion)) fun _ =>
    meets_pure _

-- =========================================================== structures

/-- What is found under a name stands in the row under this name. -/
theorem mem_of_lookup {l : List (String × α)} {name : String} {a : α}
    (h : l.lookup name = some a) : (name, a) ∈ l := by
  obtain ⟨front, back, rfl, -⟩ := List.lookup_eq_some_iff.1 h
  exact List.mem_append_right front List.mem_cons_self

/-- Where no name is given twice, a name finds the same in any order. -/
theorem lookup_of_perm {l l' : List (String × α)} (h : l.Perm l')
    (hnodup : (l.map Prod.fst).Nodup) (name : String) :
    l.lookup name = l'.lookup name := by
  have hnodup' := (h.map Prod.fst).nodup_iff.1 hnodup
  refine Option.ext fun a => ⟨fun hfound => ?_, fun hfound => ?_⟩
  · exact Yaml.lookup_of_mem hnodup' (h.mem_iff.1 (mem_of_lookup hfound))
  · exact Yaml.lookup_of_mem hnodup (h.mem_iff.2 (mem_of_lookup hfound))

/-- What is found in a row of changed values is the changed value. -/
theorem lookup_map (f : α → β) (l : List (String × α)) (name : String) :
    (l.map fun entry => (entry.1, f entry.2)).lookup name =
      (l.lookup name).map f := by
  induction l with
  | nil => rfl
  | cons entry l ih =>
      rw [List.map_cons, List.lookup_cons, List.lookup_cons, ih]
      cases name == entry.1 <;> rfl

/-- Where no name is given twice, the last entry of a name is its
first. -/
theorem lookup_reverse_map {l : List (String × α)} (f : α → β)
    (h : (l.map Prod.fst).Nodup) (name : String) :
    (l.map fun entry => (entry.1, f entry.2)).reverse.lookup name =
      (l.lookup name).map f := by
  have hnames : (l.map fun entry => (entry.1, f entry.2)).map Prod.fst =
      l.map Prod.fst := by
    rw [List.map_map]
    rfl
  rw [← lookup_map, lookup_of_perm (List.reverse_perm _)]
  rw [List.map_reverse, List.nodup_reverse, hnames]
  exact h

/-- Sub-fields are converted alike from the cells that are left, in
whatever order they are, and from the regions of all cells, as long as
both have the same for the sub-fields to come. -/
theorem matches_cellRefs {sheet : Path} {record : String}
    {items : List (String × FieldValue)}
    {fields : List (String × DataType)}
    (hreference : ∀ f ∈ fields, f.2.isReference = true)
    (hnodup : (fields.map Prod.fst).Nodup)
    (hdistinct : (cells.map Prod.fst).Nodup)
    (hsheet : ∀ cell ∈ cells, cell.2.sheet = sheet)
    (hitems : ∀ f ∈ fields,
      items.reverse.lookup f.1 = (cells.lookup f.1).map .image) :
    Matches (AlikeFor settings sheet) (cellRefs settings fields cells)
      (convertFields settings record items fields) := by
  induction fields generalizing cells with
  | nil =>
      rw [cellRefs, convertFields]
      exact matches_of_meets (meets_pure _)
  | cons f fields ih =>
      obtain ⟨name, t⟩ := f
      rw [List.map_cons, List.nodup_cons] at hnodup
      have hitem := hitems _ List.mem_cons_self
      rw [cellRefs, convertFields, subFieldValue, hitem]
      cases hcell : cells.lookup name with
      | none => exact matches_throw _ _
      | some region =>
          obtain ⟨kind, rfl⟩ :=
            exists_reference (hreference _ List.mem_cons_self)
          have hregion := hsheet _ (mem_of_lookup hcell)
          have hperm := perm_swapRemove hcell
          have hleft := (hperm.map Prod.fst).nodup_iff.2 hdistinct
          have hothers : Matches (AlikeFor settings sheet)
              (cellRefs settings fields
                (swapRemove cells
                  (cells.findIdx fun cell => cell.1 == name)))
              (convertFields settings record items fields) := by
            refine ih (fun g hg => hreference g (List.mem_cons_of_mem _ hg))
              hnodup.2 (List.nodup_cons.1 hleft).2
              (fun cell hcell =>
                hsheet cell (hperm.subset (List.mem_cons_of_mem _ hcell)))
              fun g hg => ?_
            have hne : g.1 ≠ name := by
              rintro rfl
              exact hnodup.1 (List.mem_map.2 ⟨g, hg, rfl⟩)
            rw [hitems g (List.mem_cons_of_mem _ hg),
              ← lookup_of_perm hperm hleft, List.lookup_cons,
              beq_false_of_ne hne]
          have hsprite : Matches (AlikeFor settings sheet)
              (sprite settings region >>= fun r => pure (.ref r))
              (inField record name
                (convert settings (.reference kind) (.image region))) := by
            rw [convert]
            exact matches_inField (matches_of_meets
              (meets_bind (meets_sprite_self hregion) fun _ => meets_pure _))
          have hrest := matches_bind hsprite fun value =>
            matches_bind hothers fun values =>
              matches_of_meets (meets_pure (value :: values))
          simpa only [bind_assoc, pure_bind, Option.map_some] using hrest

/-- A grid in the place of a structure stands for the regions of its
cells under their names. -/
theorem sameEffect_struct
    (hsheet : s.sheets.look settings.load grid.sheet = .ok b)
    (hcells : grid.cells b.width b.height = .ok cells) (record : String)
    {fields : List (String × DataType)}
    (hreference : ∀ f ∈ fields, f.2.isReference = true)
    (hnodup : (fields.map Prod.fst).Nodup)
    (hnames : ∀ cell ∈ cells, cell.1 ∈ fields.map Prod.fst) :
    SameEffect
      ((convert settings (.struct record fields) (.grid grid)).outcome s)
      ((convert settings (.struct record fields)
        (.struct (cells.map fun cell =>
          (cell.1, .image cell.2)))).outcome s) := by
  obtain ⟨_, _, -, htiles⟩ := SheetGrid.tiles_of_cells hcells
  have hfields : fields.find? (fun f => !f.2.isReference) = none := by
    rw [List.find?_eq_none]
    intro f hf
    simp [hreference f hf]
  have hknown : cells.find? (fun cell =>
      !fields.any fun f => f.1 == cell.1) = none := by
    rw [List.find?_eq_none]
    intro cell hcell
    obtain ⟨f, hf, hname⟩ := List.mem_map.1 (hnames cell hcell)
    simp only [Bool.not_eq_true, Bool.not_eq_false', List.any_eq_true,
      beq_iff_eq]
    exact ⟨f, hf, hname⟩
  rw [convert, convert, structGrid, hfields]
  dsimp only
  rw [outcome_bind_of_ok (outcome_gridCells hsheet hcells), hknown]
  refine sameEffect_of_matches (matches_bind ?_ fun values =>
    matches_of_meets (meets_pure (Value.struct values)))
    (alikeFor_gridCells hsheet _)
  exact matches_cellRefs hreference hnodup htiles.nodup
    (SheetGrid.sheet_of_mem_cells hcells)
    fun f _ => lookup_reverse_map FieldValue.image htiles.nodup f.1

-- ============================================================== grids

/-- A grid whose sheet can be had and has its cells is shorthand for the
regions of the cells: in the place of a list of references for the list
of the regions, and in the place of a structure of references, which has
a sub-field for each cell, for the regions under the names of the
cells. -/
theorem grid_is_shorthand
    (hsheet : s.sheets.look settings.load grid.sheet = .ok b)
    (hcells : grid.cells b.width b.height = .ok cells) :
    (∀ count element, element.isReference = true →
      SameEffect
        ((convert settings (.list count element) (.grid grid)).outcome s)
        ((convert settings (.list count element)
          (.list (cells.map fun cell => .image cell.2))).outcome s)) ∧
      ∀ record fields, (fields.map Prod.fst).Nodup →
        (∀ f ∈ fields, f.2.isReference = true) →
        (∀ cell ∈ cells, cell.1 ∈ fields.map Prod.fst) →
        SameEffect
          ((convert settings (.struct record fields)
            (.grid grid)).outcome s)
          ((convert settings (.struct record fields)
            (.struct (cells.map fun cell =>
              (cell.1, .image cell.2)))).outcome s) := by
  refine ⟨fun count element => sameEffect_list hsheet hcells count, ?_⟩
  intro record fields hnodup hreference hnames
  exact sameEffect_struct hsheet hcells record hreference hnodup hnames

/-- Two opaque pixels side by side. -/
def gates : Bitmap := ⟨2, 1, #[5, 6], rfl, none⟩

/-- Settings under which every sheet shows them. -/
def gateSettings : ConversionSettings where
  load := fun _ => .ok gates
  emptySprites := .omitted
  transparent := 0

/-- A grid of a sprite for each pixel. -/
def gateGrid : SheetGrid where
  sheet := ⟨"gates.png"⟩
  layout := [["west", "east"]]

/-- Its cells. -/
def gateCells : List (String × SheetRegion) :=
  [("west", gateGrid.cellRegion 1 1 0 0),
    ("east", gateGrid.cellRegion 1 1 1 0)]

/-- A structure with the sprites in the other order. -/
def gateFields : List (String × DataType) :=
  [("east", .reference .sprite), ("west", .reference .sprite)]

/-- The gates as a grid and as a list of regions, and as a structure of
them. -/
theorem grid_is_shorthand_gates :
    (({} : SheetCache).look gateSettings.load gateGrid.sheet = .ok gates ∧
      gateGrid.cells gates.width gates.height = .ok gateCells) ∧
      SameEffect
        ((convert gateSettings (.list .uint8 (.reference .sprite))
          (.grid gateGrid)).outcome {})
        ((convert gateSettings (.list .uint8 (.reference .sprite))
          (.list (gateCells.map fun cell => .image cell.2))).outcome {}) ∧
      SameEffect
        ((convert gateSettings (.struct "gates" gateFields)
          (.grid gateGrid)).outcome {})
        ((convert gateSettings (.struct "gates" gateFields)
          (.struct (gateCells.map fun cell =>
            (cell.1, .image cell.2)))).outcome {}) ∧
      ((convert gateSettings (.struct "gates" gateFields)
        (.grid gateGrid)).outcome {}).2.sprites.map
          (fun report => report.reference.map BlockRef.number) =
            [some 1, some 2] := by
  have hsheet : ({} : ConversionState).sheets.look gateSettings.load
      gateGrid.sheet = .ok gates :=
    rfl
  have hcells : gateGrid.cells gates.width gates.height =
      .ok gateCells := by
    decide
  obtain ⟨hlist, hstruct⟩ := grid_is_shorthand hsheet hcells
  exact ⟨⟨hsheet, hcells⟩, hlist _ _ rfl,
    hstruct _ gateFields (by decide) (by decide) (by decide),
    by decide +kernel⟩

end Conversion

end GamePack
