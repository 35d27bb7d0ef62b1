import GamePack.Proofs.Container.Soundness
import GamePack.Proofs.Conversion.Sheets

/-!
What conversions of sprites do to the file. Loading a sheet leaves the
container alone; encoding a region adds the block of its sprite, so the
container grows and the reference names a sprite; the cells of a grid
are regions one after the other.
-/
namespace GamePack.Conversion

variable {settings : ConversionSettings} {given : Int → Prop}
  {s s' : ConversionState}

-- ================================================================ rows

/-- A row of steps that each let the container grow and establish
something that growing keeps establishes it for the whole row. -/
theorem grows_of_mapM {α β : Type} {f : α → Conversion β}
    {P : List Block → α → β → Prop} {l : List α} {r : List β}
    (hkeep : ∀ blocks blocks' a b, blocks <+: blocks' →
      P blocks a b → P blocks' a b)
    (hstep : ∀ a ∈ l, ∀ {s b s'}, (f a).Runs s b s' →
      s.container.Grows given s'.container ∧ P s'.container.blocks a b)
    (h : (l.mapM f).Runs s r s') :
    s.container.Grows given s'.container ∧
      List.Forall₂ (P s'.container.blocks) l r := by
  induction l generalizing s r with
  | nil =>
      obtain ⟨rfl, rfl⟩ := runs_mapM_nil.1 h
      exact ⟨Container.Grows.refl _, .nil⟩
  | cons a l ih =>
      obtain ⟨b, s₁, hb, bs, hbs, rfl⟩ := runs_mapM_cons.1 h
      obtain ⟨hgrow, hP⟩ := hstep a List.mem_cons_self hb
      obtain ⟨hgrow', hall⟩ :=
        ih (fun a ha => hstep a (List.mem_cons_of_mem _ ha)) hbs
      exact ⟨hgrow.trans hgrow', .cons (hkeep _ _ _ _ hgrow'.keeps hP) hall⟩

-- ============================================================= regions

/-- Loading a sheet adds no block. -/
theorem container_of_sheet {path : Path} {b : Bitmap}
    (h : (sheet settings path).Runs s b s') :
    s'.container = s.container := by
  obtain ⟨-, rfl⟩ := runs_sheet.1 h
  rfl

/-- Encoding a region adds no block either; this is left to the sprite.
-/
theorem container_of_encodeRegion {empty : EmptySprite}
    {region : SheetRegion} {image : Option SpriteImage}
    (h : (encodeRegion settings empty region).Runs s image s') :
    s'.container = s.container := by
  simp only [encodeRegion, runs_bind, runs_ofExcept] at h
  obtain ⟨b, s₁, hsheet, -, rfl⟩ := h
  exact container_of_sheet hsheet

/-- All that the conversion of a sprite does: its sheet is kept, its
region encoded, the block of the image added, if there is one, and a
report put behind the others. -/
theorem effects_of_sprite {region : SheetRegion}
    {reference : Option BlockRef}
    (h : (sprite settings region).Runs s reference s') :
    ∃ b image, s.sheets.look settings.load region.sheet = .ok b ∧
      SpriteImage.encode b (region.onBitmap b) region.crop
        settings.transparent settings.emptySprites = .ok image ∧
      (∀ made, image = some made → made.FitsFormat) ∧
      reference =
        (s.container.addBlock (image.map SpriteImage.blockOf)).1 ∧
      s' = { s with
        container :=
          (s.container.addBlock (image.map SpriteImage.blockOf)).2
        sheets := s.sheets.keep region.sheet b
        sprites := s.sprites ++ [reportOf region image reference] } := by
  simp only [sprite, encodeRegion, runs_bind, runs_sheet, runs_ofExcept]
    at h
  obtain ⟨image, _, ⟨b, _, ⟨hsheet, rfl⟩, hencode, rfl⟩, h⟩ := h
  refine ⟨b, image, hsheet, hencode, ?_⟩
  cases image with
  | none =>
      simp only [runs_bind, runs_addBlock, runs_modify, runs_pure] at h
      obtain ⟨_, _, ⟨rfl, rfl⟩, _, _, ⟨rfl, rfl⟩, _, _, rfl, rfl, rfl⟩ := h
      refine ⟨fun made hmade => ?_, rfl, rfl⟩
      cases hmade
  | some image =>
      simp only [runs_bind, runs_map, runs_ofExcept, runs_addBlock,
        runs_modify, runs_pure] at h
      obtain ⟨_, _, ⟨block, ⟨hblock, rfl⟩, rfl⟩, _, _, ⟨rfl, rfl⟩, _, _,
        rfl, rfl, rfl⟩ := h
      obtain ⟨hfits, rfl⟩ := SpriteImage.toBlock_ok_iff.1 hblock
      refine ⟨fun made hmade => ?_, rfl, rfl⟩
      obtain rfl := Option.some.inj hmade
      exact hfits

/-- A value is a reference that names a sprite, if it names any block. -/
def IsSpriteRef (blocks : List Block) (v : Value) : Prop :=
  ∃ reference, v = .ref reference ∧ ∀ r, reference = some r →
    NamesBlock Block.IsSprite blocks r.number

/-- A region becomes the block of its sprite, which the reference
names; an omitted region has no reference. -/
theorem grows_of_sprite {region : SheetRegion}
    {reference : Option BlockRef}
    (h : (sprite settings region).Runs s reference s') :
    s.container.Grows given s'.container ∧
      IsSpriteRef s'.container.blocks (.ref reference) := by
  obtain ⟨_, image, -, -, hfits, rfl, rfl⟩ := effects_of_sprite h
  cases image with
  | none =>
      -- the region is empty and omitted, and nothing is added
      exact ⟨Container.Grows.refl _, none, rfl, by simp⟩
  | some image =>
      refine ⟨Container.grows_addBlock
        (SpriteImage.isSound_blockOf (hfits image rfl)), _, rfl,
        fun r hr => ?_⟩
      exact Container.namesBlock_addBlock (p := Block.IsSprite)
        ⟨rfl, rfl⟩ hr

/-- A reference to a sprite stays one when blocks are added behind the
others. -/
theorem IsSpriteRef.mono {blocks blocks' : List Block} {v : Value}
    (h : IsSpriteRef blocks v) (hext : blocks <+: blocks') :
    IsSpriteRef blocks' v := by
  obtain ⟨reference, rfl, hnames⟩ := h
  exact ⟨reference, rfl, fun r hr => (hnames r hr).mono hext⟩

variable (given) in
/-- Regions become references to sprites. -/
theorem grows_of_spriteRefs {regions : List SheetRegion}
    {items : List Value}
    (h : (spriteRefs settings regions).Runs s items s') :
    s.container.Grows given s'.container ∧
      List.Forall₂ (fun _ item => IsSpriteRef s'.container.blocks item)
        regions items := by
  refine grows_of_mapM (P := fun blocks _ item => IsSpriteRef blocks item)
    (fun _ _ _ _ hext hitem => hitem.mono hext) ?_ h
  intro region _ s item s' hitem
  simp only [runs_bind, runs_pure] at hitem
  obtain ⟨reference, s₁, hsprite, rfl, rfl⟩ := hitem
  exact grows_of_sprite hsprite

-- =============================================================== grids

theorem container_of_gridCells {grid : SheetGrid}
    {cells : List (String × SheetRegion)}
    (h : (gridCells settings grid).Runs s cells s') :
    s'.container = s.container := by
  obtain ⟨_, -, -, rfl⟩ := runs_gridCells.1 h
  rfl

variable (given) in
/-- The cells of the sub-fields become references to sprites. -/
theorem grows_of_cellRefs {fields : List (String × DataType)}
    {cells : List (String × SheetRegion)} {items : List Value}
    (h : (cellRefs settings fields cells).Runs s items s') :
    s.container.Grows given s'.container ∧
      List.Forall₂ (fun _ item => IsSpriteRef s'.container.blocks item)
        fields items := by
  induction fields generalizing cells s items with
  | nil =>
      obtain ⟨rfl, rfl⟩ := runs_pure.1 h
      exact ⟨Container.Grows.refl _, .nil⟩
  | cons f fields ih =>
      obtain ⟨name, t⟩ := f
      unfold cellRefs at h
      split at h
      · exact absurd h not_runs_throw
      · simp only [runs_bind, runs_pure] at h
        obtain ⟨reference, s₁, hsprite, rest, s₂, hrest, rfl, rfl⟩ := h
        obtain ⟨hgrow, href⟩ := grows_of_sprite hsprite
        obtain ⟨hgrow', hall⟩ := ih hrest
        exact ⟨hgrow.trans hgrow',
          .cons (href.mono hgrow'.keeps) hall⟩

/-- A grid for a list gives a reference for every cell, as many as the
count can say, where the elements are references. -/
theorem grows_of_listGrid {count : Numeric} {element : DataType}
    {grid : SheetGrid} {v : Value}
    (h : (listGrid settings count element grid).Runs s v s') :
    s.container.Grows given s'.container ∧
      element.isReference = true ∧ ∃ items, v = .list items ∧
        count.check items.length = .ok (items.length : Int) ∧
        ∀ item ∈ items, IsSpriteRef s'.container.blocks item := by
  simp only [listGrid, runs_guard, runs_bind, runs_ofValue, runs_pure,
    Bool.not_eq_true', Bool.not_eq_false] at h
  obtain ⟨hreference, cells, s₁, hcells, n, _, ⟨hcount, rfl⟩, items, s₂,
    hitems, rfl, rfl⟩ := h
  obtain ⟨hgrow, hall⟩ := grows_of_spriteRefs given hitems
  rw [container_of_gridCells hcells] at hgrow
  refine ⟨hgrow, hreference, items, rfl, ?_, ?_⟩
  · rw [← hall.length_eq, List.length_map]
    exact (Numeric.check_eq_ok_iff.1 hcount).1
  · intro item hitem
    obtain ⟨_, -, href⟩ := exists_mem_of_forall₂ hall.flip hitem
    exact href

/-- A grid for a structure gives a reference for every sub-field, where
all of them are references. -/
theorem grows_of_structGrid {record : String}
    {fields : List (String × DataType)} {grid : SheetGrid} {v : Value}
    (h : (structGrid settings record fields grid).Runs s v s') :
    s.container.Grows given s'.container ∧
      (∀ f ∈ fields, f.2.isReference = true) ∧
        ∃ items, v = .struct items ∧
          List.Forall₂
            (fun _ item => IsSpriteRef s'.container.blocks item)
            fields items := by
  unfold structGrid at h
  split at h
  · exact absurd h not_runs_throw
  next hall =>
    simp only [runs_bind] at h
    obtain ⟨cells, s₁, hcells, h⟩ := h
    split at h
    · exact absurd h not_runs_throw
    · simp only [runs_bind, runs_pure] at h
      obtain ⟨items, s₂, hitems, rfl, rfl⟩ := h
      obtain ⟨hgrow, hrefs⟩ := grows_of_cellRefs given hitems
      rw [container_of_gridCells hcells] at hgrow
      refine ⟨hgrow, ?_, items, rfl, hrefs⟩
      intro f hf
      simpa using List.find?_eq_none.1 hall f hf

end GamePack.Conversion
