import GamePack.Proofs.Conversion.Additions
import GamePack.Proofs.Conversion.Grids
import GamePack.Proofs.Conversion.Repeating

/-!
What the reports of sprites say. A value names regions of sheets for its
references, some of them as cells of grids (`DataType.spriteRegions`). A
conversion reports each of these once, in order: the image that the
region is encoded to on the sheet that is kept, and the number of the
block of this image. Since nothing that a state holds moves, a report
that is true when it is made is true of every later state
(`SheetRegion.IsReportedBy`); the induction over types and values speaks
of a later state that is given in advance, so nothing has to be carried
from one state to the next.
-/
namespace GamePack

-- ============================================================= regions

/-- The cells of a grid on the sheet that is kept for it. -/
def SheetCache.cellsOf (c : SheetCache) (grid : SheetGrid) :
    List (String × SheetRegion) :=
  match c.find? grid.sheet with
  | none => []
  | some b => (grid.cells b.width b.height).toOption.getD []

namespace DataType

mutual
/-- The regions that a bound value names for the references in a type, in
order. Those of a grid are its cells on the sheet that is kept. -/
def spriteRegions (kept : SheetCache) :
    DataType → FieldValue → List SheetRegion
  | .reference _, .image region => [region]
  | .list _ element, .list items =>
    items.flatMap fun item => element.spriteRegions kept item
  | .list _ _, .grid grid => (kept.cellsOf grid).map Prod.snd
  | .struct _ fields, .struct items =>
    fieldSpriteRegions kept items fields
  | .struct _ fields, .grid grid =>
    fields.filterMap fun f => (kept.cellsOf grid).lookup f.1
  | _, _ => []

/-- The regions that the items of a structure name. -/
def fieldSpriteRegions (kept : SheetCache)
    (items : List (String × FieldValue)) :
    List (String × DataType) → List SheetRegion
  | [] => []
  | (name, t) :: fields =>
    ((items.reverse.lookup name).map fun item =>
        t.spriteRegions kept item).getD [] ++
      fieldSpriteRegions kept items fields
end

end DataType

-- ============================================================= reports

/-- What a report says of a region is true of a state: the region of the
sheet that is kept is encoded to the image of the report, and the
reference is the number of the block of this image. Without an image
there is no reference. -/
def SheetRegion.IsReportedBy (settings : ConversionSettings)
    (s : ConversionState) (region : SheetRegion) (report : SpriteReport) :
    Prop :=
  ∃ b image, s.sheets.find? region.sheet = some b ∧
    SpriteImage.encode b (region.onBitmap b) region.crop
      settings.transparent settings.emptySprites = .ok image ∧
    (∀ made, image = some made → made.blockOf ∈ s.container.blocks) ∧
    report = Conversion.reportOf region image
      (image.bind fun made => s.container.numberOf? made.blockOf)

namespace Conversion

variable {α β : Type} {settings : ConversionSettings}
  {s s₁ s' later : ConversionState} {regions regions' : List SheetRegion}

/-- From one state to another, reports of some regions are added, one for
each, which are true of a later state. -/
def Reports (settings : ConversionSettings) (later : ConversionState)
    (regions : List SheetRegion) (s s' : ConversionState) : Prop :=
  ∃ reports, s'.sprites = s.sprites ++ reports ∧
    List.Forall₂ (SheetRegion.IsReportedBy settings later) regions reports

theorem reports_nil (h : s'.sprites = s.sprites) :
    Reports settings later [] s s' :=
  ⟨[], by rw [h, List.append_nil], .nil⟩

/-- Reports on two rows of regions, one run behind the other, are reports
on both. -/
theorem Reports.append (h : Reports settings later regions s s₁)
    (h' : Reports settings later regions' s₁ s') :
    Reports settings later (regions ++ regions') s s' := by
  obtain ⟨reports, hadded, hall⟩ := h
  obtain ⟨reports', hadded', hall'⟩ := h'
  refine ⟨reports ++ reports', ?_, List.rel_append hall hall'⟩
  rw [hadded', hadded, List.append_assoc]

-- ============================================================= sprites

/-- The report of a sprite is true of every later state: the sheet is
kept, and the block stays where it was added or found. -/
theorem reports_of_sprite {region : SheetRegion}
    {reference : Option BlockRef}
    (h : (sprite settings region).Runs s reference s')
    (hlater : later.Covers s') : Reports settings later [region] s s' := by
  obtain ⟨b, image, hlook, hencode, -, rfl, rfl⟩ := effects_of_sprite h
  have hkept := hlater.sheets _ b (SheetCache.find?_keep hlook)
  refine ⟨[_], rfl, .cons ⟨b, image, hkept, hencode, ?_⟩ .nil⟩
  cases image with
  | none =>
      refine ⟨fun made hmade => ?_, rfl⟩
      cases hmade
  | some made =>
      have hthere := Container.mem_addBlock s.container made.blockOf
      have hmem := hlater.blocks.subset hthere
      have hnumber := Container.numberOf?_eq_of_keeps hthere hlater.blocks
      refine ⟨fun other hother => Option.some.inj hother ▸ hmem, ?_⟩
      show reportOf region _ (s.container.addBlock (some made.blockOf)).1 =
        reportOf region _ (later.container.numberOf? made.blockOf)
      rw [Container.addBlock_eq_numberOf?, hnumber]

/-- A row of steps reports what its steps report. -/
theorem reports_of_mapM {f : α → Conversion β}
    {named : α → List SheetRegion} {l : List α} {r : List β}
    (hcomposed : ∀ a ∈ l, IsComposed settings (f a))
    (hstep : ∀ a ∈ l, ∀ {s b s'}, (f a).Runs s b s' → later.Covers s' →
      Reports settings later (named a) s s')
    (h : (l.mapM f).Runs s r s') (hlater : later.Covers s') :
    Reports settings later (l.flatMap named) s s' := by
  induction l generalizing s r with
  | nil =>
      obtain ⟨-, rfl⟩ := runs_mapM_nil.1 h
      exact reports_nil rfl
  | cons a l ih =>
      obtain ⟨b, s₁, hb, bs, hbs, rfl⟩ := runs_mapM_cons.1 h
      rw [List.forall_mem_cons] at hcomposed hstep
      have hrest : IsComposed settings (l.mapM f) :=
        composed_mapM hcomposed.2
      have hmiddle := hlater.of_extends (extends_of_composed hrest hbs)
      rw [List.flatMap_cons]
      exact (hstep.1 hb hmiddle).append (ih hcomposed.2 hstep.2 hbs)

/-- A row of sprites reports its regions in order. -/
theorem reports_of_spriteRefs {values : List Value}
    (h : (spriteRefs settings regions).Runs s values s')
    (hlater : later.Covers s') :
    Reports settings later regions s s' := by
  have hrow : Reports settings later
      (regions.flatMap fun region => [region]) s s' := by
    refine reports_of_mapM (fun _ _ => ?_) (fun region _ s v s' hitem
      hlater => ?_) h hlater
    · exact .chain (composed_sprite _) fun _ _ _ _ => .pure _
    · obtain ⟨reference, s₁, hsprite, hitem⟩ := runs_bind.1 hitem
      obtain ⟨-, rfl⟩ := runs_pure.1 hitem
      exact reports_of_sprite hsprite hlater
  rw [List.flatMap_singleton'] at hrow
  exact hrow

-- =============================================================== grids

/-- The cells of a grid that were used are those on the sheet that is
kept. -/
theorem cellsOf_of_gridCells {grid : SheetGrid}
    {cells : List (String × SheetRegion)}
    (h : (gridCells settings grid).Runs s cells s')
    (hlater : later.Covers s') :
    later.sheets.cellsOf grid = cells ∧ (cells.map Prod.fst).Nodup ∧
      s'.sprites = s.sprites := by
  obtain ⟨b, hlook, hcells, rfl⟩ := runs_gridCells.1 h
  have hkept := hlater.sheets _ b (SheetCache.find?_keep hlook)
  obtain ⟨_, _, -, htiles⟩ := SheetGrid.tiles_of_cells hcells
  refine ⟨?_, htiles.nodup, rfl⟩
  rw [SheetCache.cellsOf, hkept]
  dsimp only
  rw [hcells]
  rfl

/-- A list from a grid reports the cells of the grid in order. -/
theorem reports_of_listGrid {count : Numeric} {element : DataType}
    {grid : SheetGrid} {v : Value}
    (h : (listGrid settings count element grid).Runs s v s')
    (hlater : later.Covers s') :
    Reports settings later ((later.sheets.cellsOf grid).map Prod.snd) s
      s' := by
  simp only [listGrid, runs_guard, runs_bind, runs_ofValue, runs_pure] at h
  obtain ⟨-, cells, s₁, hcells, _, _, ⟨-, rfl⟩, values, _, hrefs, -,
    rfl⟩ := h
  have hmiddle := hlater.of_extends
    (extends_of_composed (composed_spriteRefs _) hrefs)
  obtain ⟨hsame, -, hsprites⟩ := cellsOf_of_gridCells hcells hmiddle
  rw [hsame]
  exact (reports_nil hsprites).append (reports_of_spriteRefs hrefs hlater)

/-- The cells that sub-fields take out of the cells of a grid are those
of their names: as no name is given twice, what is left has for every
later sub-field what was there at first. -/
theorem reports_of_cellRefs {fields : List (String × DataType)}
    {cells : List (String × SheetRegion)} {values : List Value}
    (hnodup : (cells.map Prod.fst).Nodup)
    (h : (cellRefs settings fields cells).Runs s values s')
    (hlater : later.Covers s') :
    ∃ regions, List.Forall₂
        (fun f region => cells.lookup f.1 = some region) fields regions ∧
      Reports settings later regions s s' := by
  induction fields generalizing cells s values with
  | nil =>
      obtain ⟨-, rfl⟩ := runs_pure.1 h
      exact ⟨[], .nil, reports_nil rfl⟩
  | cons f fields ih =>
      obtain ⟨name, t⟩ := f
      unfold cellRefs at h
      split at h
      · exact absurd h not_runs_throw
      next region hregion =>
        simp only [runs_bind, runs_pure] at h
        obtain ⟨_, s₁, hsprite, rest, _, hrest, -, rfl⟩ := h
        have hperm := perm_swapRemove hregion
        have hleft := (hperm.map Prod.fst).nodup_iff.2 hnodup
        obtain ⟨regions, hcells, hreports⟩ :=
          ih (List.nodup_cons.1 hleft).2 hrest
        have hmiddle := hlater.of_extends
          (extends_of_composed (composed_cellRefs _ _) hrest)
        refine ⟨region :: regions, .cons hregion (hcells.imp ?_),
          (reports_of_sprite hsprite hmiddle).append hreports⟩
        intro g other hother
        exact Yaml.lookup_of_mem hnodup
          (hperm.subset (List.mem_cons_of_mem _ (mem_of_lookup hother)))

/-- A row of values that are all found is what is found. -/
theorem filterMap_of_forall₂ {f : α → Option β} {l : List α} {r : List β}
    (h : List.Forall₂ (fun a b => f a = some b) l r) :
    l.filterMap f = r := by
  induction h with
  | nil => rfl
  | cons hfirst _ ih => rw [List.filterMap_cons_some hfirst, ih]

/-- A structure from a grid reports the cells in the order of its
sub-fields. -/
theorem reports_of_structGrid {record : String}
    {fields : List (String × DataType)} {grid : SheetGrid} {v : Value}
    (h : (structGrid settings record fields grid).Runs s v s')
    (hlater : later.Covers s') :
    Reports settings later (fields.filterMap fun f =>
      (later.sheets.cellsOf grid).lookup f.1) s s' := by
  unfold structGrid at h
  split at h
  · exact absurd h not_runs_throw
  · obtain ⟨cells, s₁, hcells, h⟩ := runs_bind.1 h
    split at h
    · exact absurd h not_runs_throw
    · obtain ⟨values, _, hrefs, h⟩ := runs_bind.1 h
      obtain ⟨-, rfl⟩ := runs_pure.1 h
      have hmiddle := hlater.of_extends
        (extends_of_composed (composed_cellRefs _ _) hrefs)
      obtain ⟨rfl, hnodup, hsprites⟩ :=
        cellsOf_of_gridCells hcells hmiddle
      obtain ⟨regions, hregions, hreports⟩ :=
        reports_of_cellRefs hnodup hrefs hlater
      rw [filterMap_of_forall₂ hregions]
      exact (reports_nil hsprites).append hreports

-- ============================================================== values

/-- A structure reports the regions of its sub-fields in their order. -/
theorem reports_of_convertFields {record : String}
    {items : List (String × FieldValue)}
    {fields : List (String × DataType)} {values : List Value}
    (ih : ∀ f ∈ fields, ∀ v {s value s'},
      (convert settings f.2 v).Runs s value s' → later.Covers s' →
        Reports settings later (f.2.spriteRegions later.sheets v) s s')
    (h : (convertFields settings record items fields).Runs s values s')
    (hlater : later.Covers s') :
    Reports settings later
      (DataType.fieldSpriteRegions later.sheets items fields) s s' := by
  induction fields generalizing s values with
  | nil =>
      obtain ⟨-, rfl⟩ := runs_pure.1 h
      exact reports_nil rfl
  | cons f fields ihfields =>
      obtain ⟨name, t⟩ := f
      rw [List.forall_mem_cons] at ih
      simp only [convertFields, runs_bind, runs_inField, runs_pure] at h
      obtain ⟨item, _, hitem, value, s₁, hvalue, rest, _, hrest, -,
        rfl⟩ := h
      obtain ⟨hlast, rfl⟩ := runs_subFieldValue.1 hitem
      have hrow : IsComposed settings
          (convertFields settings record items fields) :=
        composed_convertFields fun f _ v => composed_convert f.2 v
      have hmiddle := hlater.of_extends (extends_of_composed hrow hrest)
      rw [DataType.fieldSpriteRegions, hlast]
      exact (ih.1 item hvalue hmiddle).append (ihfields ih.2 hrest)

/-- Encoding by itself reports nothing. -/
theorem sprites_of_encodeRegion {empty : EmptySprite}
    {region : SheetRegion} {image : Option SpriteImage}
    (h : (encodeRegion settings empty region).Runs s image s') :
    s'.sprites = s.sprites := by
  obtain ⟨b, _, hsheet, himage⟩ := runs_bind.1 h
  obtain ⟨-, rfl⟩ := runs_sheet.1 hsheet
  obtain ⟨-, rfl⟩ := runs_ofExcept.1 himage
  rfl

/-- A conversion reports the regions that its value names, each once and
in order, and what it reports is true of every later state. -/
theorem reports_of_convert {t : DataType} {v : FieldValue} {value : Value}
    (h : (convert settings t v).Runs s value s')
    (hlater : later.Covers s') :
    Reports settings later (t.spriteRegions later.sheets v) s s' := by
  induction t using DataType.induction generalizing v s value s' with
  | numeric n =>
      cases v with
      | number k =>
          obtain rfl := state_of_int h
          exact reports_nil rfl
      | symbol text =>
          obtain rfl := state_of_int h
          exact reports_nil rfl
      | _ => exact absurd h not_runs_throw
  | enumeration e =>
      cases v with
      | symbol symbol =>
          obtain rfl := state_of_int h
          exact reports_nil rfl
      | _ => exact absurd h not_runs_throw
  | bitSet b =>
      cases v with
      | bits literal =>
          obtain rfl := state_of_int h
          exact reports_nil rfl
      | _ => exact absurd h not_runs_throw
  | reference kind =>
      cases v with
      | block r =>
          obtain ⟨-, rfl⟩ := runs_pure.1 h
          exact reports_nil rfl
      | number n =>
          obtain ⟨rfl, -⟩ := runs_blockNumber h
          exact reports_nil rfl
      | image region =>
          simp only [convert, runs_bind, runs_pure] at h
          obtain ⟨_, _, hsprite, -, rfl⟩ := h
          exact reports_of_sprite hsprite hlater
      | _ => exact absurd h not_runs_throw
  | text =>
      cases v with
      | block r =>
          obtain ⟨-, rfl⟩ := runs_pure.1 h
          exact reports_nil rfl
      | text strings =>
          simp only [convert, runs_bind, runs_ofValue, runs_addBlock,
            runs_pure] at h
          obtain ⟨_, _, ⟨-, rfl⟩, _, _, ⟨-, rfl⟩, -, rfl⟩ := h
          exact reports_nil rfl
      | _ => exact absurd h not_runs_throw
  | imageData =>
      cases v with
      | image region =>
          simp only [convert, imageLines, runs_bind, runs_pure] at h
          obtain ⟨_, _, himage, -, rfl⟩ := h
          exact reports_nil (sprites_of_encodeRegion himage)
      | _ => exact absurd h not_runs_throw
  | list count element ih =>
      cases v with
      | list items =>
          simp only [convert, runs_bind, runs_ofValue, runs_pure] at h
          obtain ⟨_, _, ⟨-, rfl⟩, _, _, hitems, -, rfl⟩ := h
          exact reports_of_mapM
            (fun item _ => composed_convert element item)
            (fun item _ => ih) hitems hlater
      | grid grid =>
          rw [convert] at h
          exact reports_of_listGrid h hlater
      | _ => exact absurd h not_runs_throw
  | struct name fields ih =>
      cases v with
      | struct items =>
          simp only [convert, runs_bind, runs_pure] at h
          obtain ⟨_, _, hitems, -, rfl⟩ := h
          exact reports_of_convertFields (fun f hf v => ih f hf) hitems
            hlater
      | grid grid =>
          rw [convert] at h
          exact reports_of_structGrid h hlater
      | _ => exact absurd h not_runs_throw
  | raw => cases v <;> exact absurd h not_runs_throw

end Conversion

end GamePack
