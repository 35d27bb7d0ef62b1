import GamePack.Proofs.Conversion.Sheets
import GamePack.Proofs.Typing

/-!
One conversion run twice, on caches and sheets that may differ. `Twins`
says of a relation between the two caches that the sheets asked for are
the same on both sides, and that it is kept when they are. Then every
conversion that asks for no other sheet gives the same on both sides and
adds the same to the file.

With `strict` the sides agree in their failures too. Without it a failure
of the first run says nothing of the second, so that only what succeeds
is carried over, in one direction.
-/
namespace GamePack

/-- The settings with other contents of the sheets. -/
def ConversionSettings.withLoad (settings : ConversionSettings)
    (load : Path → Except Error Bitmap) : ConversionSettings :=
  { settings with load }

namespace Conversion

variable {α β : Type} {strict : Prop} {asked : Path → Prop}
  {settings : ConversionSettings} {load : Path → Except Error Bitmap}
  {R : SheetCache → SheetCache → Prop}

/-- A result that is to be met by another run: any, or one that
succeeded. -/
def Counts (strict : Prop) (r : Except Error α) : Prop :=
  strict ∨ ∃ a, r = .ok a

/-- Two states with the same file and sprites. Their diagnostics are
free. -/
structure Alike (R : SheetCache → SheetCache → Prop)
    (s s' : ConversionState) : Prop where
  container : s.container = s'.container
  sprites : s.sprites = s'.sprites
  sheets : R s.sheets s'.sheets

/-- From related states, a second conversion meets every result of a
first one that counts and leaves a related state. -/
def MeetsOver (strict : Prop)
    (S : ConversionState → ConversionState → Prop)
    (c c' : Conversion α) : Prop :=
  ∀ s s', S s s' → Counts strict (c.outcome s).1 →
    (c.outcome s).1 = (c'.outcome s').1 ∧
      S (c.outcome s).2 (c'.outcome s').2

/-- From states that are alike, a second conversion meets every result of
a first one that counts and leaves a state like its own: `MeetsOver` for
states that are alike. -/
def Meets (strict : Prop) (R : SheetCache → SheetCache → Prop)
    (c c' : Conversion α) : Prop :=
  ∀ s s', Alike R s s' → Counts strict (c.outcome s).1 →
    (c.outcome s).1 = (c'.outcome s').1 ∧
      Alike R (c.outcome s).2 (c'.outcome s').2

/-- A relation between caches under which the sheets that may be asked
for are the same, and that is kept when one is kept. -/
structure Twins (strict : Prop) (asked : Path → Prop)
    (load load' : Path → Except Error Bitmap)
    (R : SheetCache → SheetCache → Prop) : Prop where
  look : ∀ {c c' p}, R c c' → asked p → Counts strict (c.look load p) →
    c.look load p = c'.look load' p
  keep : ∀ {c c' p b}, R c c' → asked p →
    c.look load p = .ok b → c'.look load' p = .ok b →
      R (c.keep p b) (c'.keep p b)

-- ======================================================== constructions

-- These hold of every relation between states; `Meets` is the case of
-- states that are alike.

variable {S : ConversionState → ConversionState → Prop}

theorem meets_pure (a : α) :
    MeetsOver strict S (pure a : Conversion α) (pure a) :=
  fun _ _ h _ => ⟨rfl, h⟩

/-- A failure meets itself: where the sides need not agree in failures
there is nothing to show, and where they do it is the same. -/
theorem meets_throw (e : Error) :
    MeetsOver strict S (throw e : Conversion α) (throw e) :=
  fun _ _ h _ => ⟨rfl, h⟩

/-- Chains meet when their steps do. Of what the first step gives it is
known that a run gave it. -/
theorem meets_bind {c c' : Conversion α} {f f' : α → Conversion β}
    (hc : MeetsOver strict S c c')
    (hf : ∀ {s a s₁}, c.Runs s a s₁ →
      MeetsOver strict S (f a) (f' a)) :
    MeetsOver strict S (c >>= f) (c' >>= f') := by
  intro s s' hstates hcounts
  have hfirst := hc s s' hstates
  rcases hrun : c.outcome s with ⟨r, s₁⟩
  rcases hrun' : c'.outcome s' with ⟨r', s₁'⟩
  rw [hrun, hrun'] at hfirst
  cases r with
  | error e =>
      rw [outcome_bind_of_error hrun] at hcounts ⊢
      -- a first step that fails counts only where every result does
      have hstrict : strict := hcounts.resolve_right (by simp)
      obtain ⟨rfl, hstates⟩ := hfirst (.inl hstrict)
      rw [outcome_bind_of_error hrun']
      exact ⟨rfl, hstates⟩
  | ok a =>
      obtain ⟨rfl, hstates⟩ := hfirst (.inr ⟨a, rfl⟩)
      rw [outcome_bind_of_ok hrun] at hcounts ⊢
      rw [outcome_bind_of_ok hrun']
      exact hf hrun _ _ hstates hcounts

theorem meets_map {c c' : Conversion α} (f : α → β)
    (hc : MeetsOver strict S c c') :
    MeetsOver strict S (f <$> c) (f <$> c') := by
  simp only [map_eq_pure_bind]
  exact meets_bind hc fun _ => meets_pure _

/-- A result that was found without looking at the state meets itself. -/
theorem meets_ofExcept (r : Except Error α) :
    MeetsOver strict S (ofExcept r) (ofExcept r) := by
  cases r with
  | error e => exact meets_throw e
  | ok a => exact meets_pure a

/-- A step may depend on states that are related. -/
theorem meets_get {f f' : ConversionState → Conversion β}
    (hf : ∀ {s s'}, S s s' → MeetsOver strict S (f s) (f' s')) :
    MeetsOver strict S (get >>= f) (get >>= f') := by
  intro s s' hstates hcounts
  have hget : ∀ s, (get : Conversion ConversionState).outcome s =
      (.ok s, s) := fun _ => rfl
  rw [outcome_bind_of_ok (hget s)] at hcounts ⊢
  rw [outcome_bind_of_ok (hget s')]
  exact hf hstates _ _ hstates hcounts

/-- Changes of the state meet when they keep related states related. -/
theorem meets_modify {f f' : ConversionState → ConversionState}
    (hf : ∀ {s s'}, S s s' → S (f s) (f' s')) :
    MeetsOver strict S (modify f : Conversion PUnit) (modify f') :=
  fun _ _ h _ => ⟨rfl, hf h⟩

/-- Naming a field in the failures keeps them the same on both sides. -/
theorem meets_inField {owner name : String} {c c' : Conversion α}
    (hc : MeetsOver strict S c c') :
    MeetsOver strict S (inField owner name c) (inField owner name c') := by
  intro s s' hstates hcounts
  rw [outcome_inField] at hcounts ⊢
  rw [outcome_inField]
  have hcounts : Counts strict (c.outcome s).1 := by
    refine hcounts.imp_right ?_
    rintro ⟨a, ha⟩
    exact ⟨a, mapError_ok_iff.1 ha⟩
  obtain ⟨hresult, hstates⟩ := hc s s' hstates hcounts
  exact ⟨by rw [hresult], hstates⟩

/-- Rows meet when their members do, one after the other. -/
theorem meets_mapM {f f' : α → Conversion β} {l : List α}
    (hf : ∀ a ∈ l, MeetsOver strict S (f a) (f' a)) :
    MeetsOver strict S (l.mapM f) (l.mapM f') := by
  induction l with
  | nil => exact meets_pure []
  | cons a l ih =>
      simp only [List.mapM_cons]
      refine meets_bind (hf a List.mem_cons_self) fun _ => ?_
      exact meets_bind (ih fun b hb => hf b (List.mem_cons_of_mem a hb))
        fun _ => meets_pure _

/-- Adding a block to equal files gives the same on both sides. -/
theorem meetsOver_addBlock (block : Option Block)
    (hsame : ∀ {s s'}, S s s' → s.container = s'.container)
    (hkeep : ∀ {s s' : ConversionState}, S s s' → ∀ container,
      S { s with container } { s' with container }) :
    MeetsOver strict S (addBlock block) (addBlock block) := by
  intro s s' hstates _
  have hadd : ∀ s : ConversionState, (addBlock block).outcome s =
      (.ok (s.container.addBlock block).1,
        { s with container := (s.container.addBlock block).2 }) :=
    fun _ => rfl
  rw [hadd, hadd, ← hsame hstates]
  exact ⟨rfl, hkeep hstates _⟩

/-- The two files are the same, so a block gets the same reference in
both. -/
theorem meets_addBlock (block : Option Block) :
    Meets strict R (addBlock block) (addBlock block) :=
  meetsOver_addBlock block Alike.container fun h _ =>
    ⟨rfl, h.sprites, h.sheets⟩

/-- The failure for an unsuitable value speaks of the type and the value
only. -/
theorem meets_unsuitable (t : DataType) (v : FieldValue) :
    Meets strict R (unsuitable t v : Conversion α) (unsuitable t v) :=
  meets_throw _

/-- Numbers of blocks are looked up in the file alone. -/
theorem meets_blockNumber (n : Int)
    (hsame : ∀ {s s'}, S s s' → s.container = s'.container) :
    MeetsOver strict S (blockNumber n) (blockNumber n) := by
  refine meets_bind (meets_ofExcept _) fun _ => meets_get fun hstates => ?_
  simp only [hsame hstates]
  split
  · exact meets_bind (meets_throw _) fun _ => meets_pure _
  · exact meets_pure _

/-- The value of a sub-field is looked for among the items, without the
state. -/
theorem meets_subFieldValue (record name : String)
    (items : List (String × FieldValue)) :
    Meets strict R (subFieldValue record name items)
      (subFieldValue record name items) := by
  unfold subFieldValue
  split
  · exact meets_pure _
  · exact meets_throw _

/-- Sub-fields meet when each does for every value of its sheets. -/
theorem meets_convertFields
    {record : String} {items : List (String × FieldValue)}
    {fields : List (String × DataType)}
    (hfields : ∀ p ∈ DataType.fieldSheets items fields, asked p)
    (ih : ∀ f ∈ fields, ∀ v, (∀ p ∈ f.2.sheets v, asked p) →
      Meets strict R (convert settings f.2 v)
        (convert (settings.withLoad load) f.2 v)) :
    Meets strict R (convertFields settings record items fields)
      (convertFields (settings.withLoad load) record items fields) := by
  induction fields with
  | nil => exact meets_pure _
  | cons f fields ihfields =>
      obtain ⟨name, t⟩ := f
      rw [DataType.fieldSheets, List.forall_mem_append] at hfields
      obtain ⟨hitem, hfields⟩ := hfields
      rw [convertFields, convertFields]
      refine meets_bind (meets_subFieldValue _ _ _) fun {_ item _} hrun => ?_
      obtain ⟨hlast, -⟩ := runs_subFieldValue.1 hrun
      rw [hlast] at hitem
      refine meets_bind
        (meets_inField (ih _ List.mem_cons_self _ hitem)) fun _ => ?_
      exact meets_bind (ihfields hfields fun g hg =>
        ih g (List.mem_cons_of_mem _ hg)) fun _ => meets_pure _

-- =================================================== cells taken out

/-- A last entry leaves the entries before it. -/
theorem swapRemove_last {α : Type} (front : List α) (a : α) :
    swapRemove (front ++ [a]) front.length = front := by
  simp [swapRemove]

/-- Behind another entry, the last one takes its place. -/
theorem swapRemove_inner {α : Type} (front mid : List α) (a last : α) :
    swapRemove (front ++ a :: (mid ++ [last])) front.length =
      front ++ last :: mid := by
  have hlast : (front ++ a :: (mid ++ [last])).getLast? = some last := by
    rw [← List.cons_append, ← List.append_assoc]
    exact List.getLast?_concat
  have hset : (front ++ a :: (mid ++ [last])).set front.length last =
      (front ++ last :: mid) ++ [last] := by
    rw [List.set_append_right _ _ (Nat.le_refl _), Nat.sub_self,
      List.set_cons_zero, List.append_assoc, List.cons_append]
  unfold swapRemove
  rw [hlast]
  dsimp only
  rw [hset]
  exact List.dropLast_concat

/-- What is left when the entry of a name is taken out is, in some order,
the other entries. -/
theorem perm_swapRemove {α : Type} {l : List (String × α)} {name : String}
    {a : α} (h : l.lookup name = some a) :
    ((name, a) :: swapRemove l (l.findIdx (·.1 == name))).Perm l := by
  obtain ⟨front, back, rfl, hfront⟩ := List.lookup_eq_some_iff.1 h
  have hindex : (front ++ (name, a) :: back).findIdx (·.1 == name) =
      front.length := by
    have hnone : front.findIdx (·.1 == name) = front.length := by
      rw [List.findIdx_eq_length]
      intro entry hentry
      exact beq_false_of_ne (bne_iff_ne.1 (hfront entry hentry)).symm
    rw [List.findIdx_append, hnone, if_neg (Nat.lt_irrefl _),
      List.findIdx_cons, beq_self_eq_true]
    exact Nat.zero_add _
  rw [hindex]
  refine List.Perm.trans ?_ List.perm_middle.symm
  rw [List.perm_cons]
  rcases List.eq_nil_or_concat back with rfl | ⟨mid, last, rfl⟩
  · rw [swapRemove_last, List.append_nil]
  · rw [List.concat_eq_append, swapRemove_inner]
    exact (List.perm_append_singleton last mid).symm.append_left front

namespace Twins

-- ============================================================= sprites

/-- A sheet that may be asked for is the same on both sides, and keeping
it keeps the caches related. -/
theorem meets_sheet (T : Twins strict asked settings.load load R) {p : Path}
    (hp : asked p) :
    Meets strict R (sheet settings p)
      (sheet (settings.withLoad load) p) := by
  intro s s' halike hcounts
  cases hlook : s.sheets.look settings.load p with
  | error e =>
      rw [outcome_sheet_of_error hlook] at hcounts ⊢
      rw [T.look halike.sheets hp (hlook ▸ hcounts)] at hlook
      rw [outcome_sheet_of_error hlook]
      exact ⟨rfl, halike⟩
  | ok b =>
      have hlook' := T.look halike.sheets hp (.inr ⟨b, hlook⟩)
      rw [hlook] at hlook'
      rw [outcome_sheet_of_ok hlook, outcome_sheet_of_ok hlook'.symm]
      exact ⟨rfl, halike.container, halike.sprites,
        T.keep halike.sheets hp hlook hlook'.symm⟩

/-- A region of a sheet that may be asked for gives the same image. -/
theorem meets_encodeRegion (T : Twins strict asked settings.load load R)
    (empty : EmptySprite) {region : SheetRegion}
    (hregion : asked region.sheet) :
    Meets strict R (encodeRegion settings empty region)
      (encodeRegion (settings.withLoad load) empty region) :=
  meets_bind (T.meets_sheet hregion) fun _ => meets_ofExcept _

/-- A region of a sheet that may be asked for becomes the same block. -/
theorem meets_sprite (T : Twins strict asked settings.load load R)
    {region : SheetRegion} (hregion : asked region.sheet) :
    Meets strict R (sprite settings region)
      (sprite (settings.withLoad load) region) := by
  refine meets_bind (T.meets_encodeRegion _ hregion) fun {_ image _} _ => ?_
  have hadd : ∀ block, Meets strict R (do
      let reference ← addBlock block
      modify fun s => { s with
        sprites := s.sprites ++ [reportOf region image reference] }
      return reference : Conversion (Option BlockRef)) (do
      let reference ← addBlock block
      modify fun s => { s with
        sprites := s.sprites ++ [reportOf region image reference] }
      return reference) := by
    intro block
    refine meets_bind (meets_addBlock block) fun _ => ?_
    refine meets_bind (meets_modify fun halike => ?_) fun _ => meets_pure _
    exact ⟨halike.container, by rw [halike.sprites], halike.sheets⟩
  cases image with
  | none => exact meets_bind (meets_pure _) fun _ => hadd _
  | some image =>
      exact meets_bind (meets_map _ (meets_ofExcept _)) fun _ => hadd _

/-- Regions of sheets that may be asked for become the same references.
-/
theorem meets_spriteRefs (T : Twins strict asked settings.load load R)
    {regions : List SheetRegion}
    (hregions : ∀ region ∈ regions, asked region.sheet) :
    Meets strict R (spriteRefs settings regions)
      (spriteRefs (settings.withLoad load) regions) :=
  meets_mapM fun region hregion =>
    meets_bind (T.meets_sprite (hregions region hregion)) fun _ =>
      meets_pure _

-- =============================================================== grids

/-- The cells of a grid are found from the sheet, which is the same. -/
theorem meets_gridCells (T : Twins strict asked settings.load load R)
    {grid : SheetGrid} (hgrid : asked grid.sheet) :
    Meets strict R (gridCells settings grid)
      (gridCells (settings.withLoad load) grid) := by
  refine meets_bind (T.meets_sheet hgrid) fun _ => ?_
  refine meets_bind (meets_modify fun halike => ?_) fun _ =>
    meets_ofExcept _
  exact ⟨halike.container, halike.sprites, halike.sheets⟩

/-- The cells that a grid gave need its sheet only. -/
theorem asked_of_gridCells {grid : SheetGrid} (hgrid : asked grid.sheet)
    {s s' : ConversionState} {cells : List (String × SheetRegion)}
    (h : (gridCells settings grid).Runs s cells s') :
    ∀ cell ∈ cells, asked cell.2.sheet := by
  obtain ⟨_, -, hcells, -⟩ := runs_gridCells.1 h
  intro cell hcell
  rw [SheetGrid.sheet_of_mem_cells hcells cell hcell]
  exact hgrid

/-- A grid for a list meets itself: its sheet is the only one asked for.
-/
theorem meets_listGrid (T : Twins strict asked settings.load load R)
    (count : Numeric) (element : DataType) {grid : SheetGrid}
    (hgrid : asked grid.sheet) :
    Meets strict R (listGrid settings count element grid)
      (listGrid (settings.withLoad load) count element grid) := by
  unfold listGrid
  split
  · exact meets_bind (meets_throw _) fun hrun =>
      absurd hrun not_runs_throw
  · refine meets_bind (T.meets_gridCells hgrid) fun hcells => ?_
    refine meets_bind (meets_ofExcept _) fun _ => ?_
    refine meets_bind (T.meets_spriteRefs ?_) fun _ => meets_pure _
    intro region hregion
    obtain ⟨cell, hcell, rfl⟩ := List.mem_map.1 hregion
    exact asked_of_gridCells hgrid hcells cell hcell

/-- Named cells meet as their regions do, each for the sub-field of its
name. -/
theorem meets_cellRefs (T : Twins strict asked settings.load load R)
    (fields : List (String × DataType))
    {cells : List (String × SheetRegion)}
    (hcells : ∀ cell ∈ cells, asked cell.2.sheet) :
    Meets strict R (cellRefs settings fields cells)
      (cellRefs (settings.withLoad load) fields cells) := by
  induction fields generalizing cells with
  | nil => exact meets_pure _
  | cons f fields ih =>
      obtain ⟨name, t⟩ := f
      unfold cellRefs
      split
      · exact meets_throw _
      next region hregion =>
        refine meets_bind (T.meets_sprite ?_) fun _ => ?_
        · obtain ⟨_, _, rfl, -⟩ := List.lookup_eq_some_iff.1 hregion
          exact hcells (name, region) (by simp)
        · refine meets_bind (ih ?_) fun _ => meets_pure _
          have hothers := perm_swapRemove hregion
          exact fun cell hcell =>
            hcells cell (hothers.subset (List.mem_cons_of_mem _ hcell))

/-- A grid for a structure meets itself: its sheet is the only one asked
for. -/
theorem meets_structGrid (T : Twins strict asked settings.load load R)
    (record : String) (fields : List (String × DataType))
    {grid : SheetGrid} (hgrid : asked grid.sheet) :
    Meets strict R (structGrid settings record fields grid)
      (structGrid (settings.withLoad load) record fields grid) := by
  unfold structGrid
  split
  · exact meets_throw _
  · refine meets_bind (T.meets_gridCells hgrid) fun hcells => ?_
    split
    · exact meets_throw _
    · exact meets_bind
        (T.meets_cellRefs _ (asked_of_gridCells hgrid hcells)) fun _ =>
          meets_pure _

-- ============================================================== values

/-- A conversion that asks only for sheets that may be asked for gives
the same on both sides. -/
theorem meets_convert (T : Twins strict asked settings.load load R)
    (t : DataType) {v : FieldValue} (h : ∀ p ∈ t.sheets v, asked p) :
    Meets strict R (convert settings t v)
      (convert (settings.withLoad load) t v) := by
  induction t using DataType.induction generalizing v with
  | numeric n =>
      cases v with
      | number k => exact meets_bind (meets_ofExcept _) fun _ => meets_pure _
      | symbol s => exact meets_bind (meets_ofExcept _) fun _ => meets_pure _
      | _ => exact meets_unsuitable _ _
  | enumeration e =>
      cases v with
      | symbol s => exact meets_bind (meets_ofExcept _) fun _ => meets_pure _
      | _ => exact meets_unsuitable _ _
  | bitSet b =>
      cases v with
      | bits l => exact meets_bind (meets_ofExcept _) fun _ => meets_pure _
      | _ => exact meets_unsuitable _ _
  | reference kind =>
      cases v with
      | block r => exact meets_pure _
      | number n => exact meets_blockNumber n Alike.container
      | image region =>
          exact meets_bind (T.meets_sprite (h _ List.mem_cons_self))
            fun _ => meets_pure _
      | _ => exact meets_unsuitable _ _
  | text =>
      cases v with
      | block r => exact meets_pure _
      | text strings =>
          refine meets_bind (meets_ofExcept _) fun _ => ?_
          exact meets_bind (meets_addBlock _) fun _ => meets_pure _
      | _ => exact meets_unsuitable _ _
  | imageData =>
      cases v with
      | image region =>
          exact meets_bind
            (T.meets_encodeRegion _ (h _ List.mem_cons_self)) fun _ =>
              meets_pure _
      | _ => exact meets_unsuitable _ _
  | list count element ih =>
      cases v with
      | list items =>
          rw [DataType.sheets] at h
          rw [convert, convert]
          refine meets_bind (meets_ofExcept _) fun _ => ?_
          refine meets_bind (meets_mapM fun item hitem => ih ?_) fun _ =>
            meets_pure _
          exact fun p hp => h p (List.mem_flatMap.2 ⟨item, hitem, hp⟩)
      | grid grid =>
          rw [convert, convert]
          exact T.meets_listGrid _ _ (h _ List.mem_cons_self)
      | _ => exact meets_unsuitable _ _
  | struct name fields ih =>
      cases v with
      | struct items =>
          rw [DataType.sheets] at h
          rw [convert, convert]
          refine meets_bind (meets_convertFields h fun f hf v hv =>
            ih f hf hv) fun _ => meets_pure _
      | grid grid =>
          rw [convert, convert]
          exact T.meets_structGrid _ _ (h _ List.mem_cons_self)
      | _ => exact meets_unsuitable _ _
  | raw => cases v <;> exact meets_unsuitable _ _

-- =========================================================== instances

/-- Equal caches stay equal where loading gives the same. -/
theorem of_load {load load' : Path → Except Error Bitmap}
    (h : ∀ p, asked p → Counts strict (load p) → load p = load' p) :
    Twins strict asked load load' (· = ·) where
  look := by
    rintro c _ p rfl hp hcounts
    cases hfound : c.find? p with
    | some b => rw [c.look_of_find? hfound, c.look_of_find? hfound]
    | none =>
        rw [c.look_of_find?_none hfound] at hcounts ⊢
        rw [c.look_of_find?_none hfound]
        exact h p hp hcounts
  keep := by
    rintro c _ p b rfl - - -
    rfl

/-- Two caches agree on the sheets that may be asked for. -/
def Agree (strict : Prop) (asked : Path → Prop)
    (load load' : Path → Except Error Bitmap) (c c' : SheetCache) : Prop :=
  ∀ p, asked p → Counts strict (c.look load p) →
    c.look load p = c'.look load' p

/-- Caches that agree are twins: what is kept on both sides was found the
same on both. -/
theorem of_agree (strict : Prop) (asked : Path → Prop)
    (load load' : Path → Except Error Bitmap) :
    Twins strict asked load load' (Agree strict asked load load') where
  look := fun h hp hcounts => h _ hp hcounts
  keep := by
    intro c c' q b h hq hlook hlook' p hp hcounts
    rw [SheetCache.look_keep hlook] at hcounts ⊢
    rw [SheetCache.look_keep hlook']
    split
    · rfl
    next hother =>
      rw [if_neg hother] at hcounts
      exact h p hp hcounts

/-- One cache, which holds only sheets that were asked for and could be
loaded. -/
def Kept (asked : Path → Prop) (load : Path → Except Error Bitmap)
    (c c' : SheetCache) : Prop :=
  c = c' ∧ ∀ entry ∈ c.sheets, asked entry.1 ∧ load entry.1 = .ok entry.2

/-- One cache is the twin of itself, and holds only what was asked for.
-/
theorem of_kept (asked : Path → Prop)
    (load : Path → Except Error Bitmap) :
    Twins True asked load load (Kept asked load) where
  look := by
    rintro c _ p ⟨rfl, -⟩ - -
    rfl
  keep := by
    rintro c _ q b ⟨rfl, hkept⟩ hq hlook -
    refine ⟨rfl, fun entry hentry => ?_⟩
    rcases SheetCache.mem_keep hlook hentry with hold | ⟨rfl, hload⟩
    · exact hkept entry hold
    · exact ⟨hq, hload⟩

end Twins

end Conversion

end GamePack
