import GamePack.Proofs.Conversion.Appending
import GamePack.Proofs.Conversion.Sprites
import GamePack.Proofs.Conversion.Twins

/-!
A value that is converted again adds nothing. A state is covered by every
later one that has its blocks in the same places and keeps its sheets,
whatever stands behind them. There each step of a run finds what it left:
a sheet under its path, a block at its place, and no fewer blocks than a
number was checked against. So a run repeats itself from every state that
covers the one it ends in, by induction on how the conversion is composed
(`repeats_of_composed`).

A run that succeeds has also kept every sheet that its value names
(`holds_of_convert`). A repetition therefore loads nothing, and gives
the same whatever the sheets on the disk have become.
-/
namespace GamePack

variable {s s' later : ConversionState}

-- ======================================================== later states

/-- A later state has the blocks of an earlier one in the same places,
with any others behind them, and keeps its sheets. -/
structure ConversionState.Covers (later s : ConversionState) : Prop where
  blocks : s.container.blocks <+: later.container.blocks
  sheets : ∀ path b, s.sheets.find? path = some b →
    later.sheets.find? path = some b

namespace ConversionState.Covers

theorem refl (s : ConversionState) : s.Covers s :=
  ⟨List.prefix_rfl, fun _ _ hfound => hfound⟩

/-- What covers the end of a run covers every state on the way. -/
theorem of_extends (h : s'.Extends s) (hlater : later.Covers s') :
    later.Covers s where
  blocks := h.blocks.trans hlater.blocks
  sheets := fun path b hfound => hlater.sheets path b (h.find? hfound)

/-- What a state covers does not depend on its reports. -/
theorem of_eq {after : ConversionState} (h : later.Covers s)
    (hcontainer : after.container = later.container)
    (hsheets : after.sheets = later.sheets) : after.Covers s where
  blocks := by
    rw [hcontainer]
    exact h.blocks
  sheets := by
    rw [hsheets]
    exact h.sheets

end ConversionState.Covers

/-- A cache keeps a sheet for each of some paths. -/
def SheetCache.Holds (c : SheetCache) (paths : List Path) : Prop :=
  ∀ p ∈ paths, ∃ b, c.find? p = some b

/-- Sheets that are held stay held. -/
theorem SheetCache.Holds.mono {paths : List Path}
    (hs : s.sheets.Holds paths) (h : later.Covers s) :
    later.sheets.Holds paths := by
  intro p hp
  obtain ⟨b, hb⟩ := hs p hp
  exact ⟨b, h.sheets p b hb⟩

namespace Conversion

variable {α β : Type} {settings : ConversionSettings}

theorem extends_of_keeps {E : Error → Prop} {c : Conversion α} {a : α}
    (hc : Keeps (fun s s' => s'.Extends s) E c) (h : c.Runs s a s') :
    s'.Extends s := by
  have hextends := (hc s).1
  rw [h] at hextends
  exact hextends

/-- A run leaves a state that extends the one it starts in. -/
theorem extends_of_composed {c : Conversion α} {a : α}
    (hc : IsComposed settings c) (h : c.Runs s a s') : s'.Extends s :=
  extends_of_keeps ((frame_of_extends settings).keeps_of_composed hc) h

/-- The end of a run covers its start. -/
theorem covers_of_composed {c : Conversion α} {a : α}
    (hc : IsComposed settings c) (h : c.Runs s a s') : s'.Covers s :=
  .of_extends (extends_of_composed hc h) (.refl s')

-- ========================================================== repetitions

/-- What a run gave is given again from every later state, which keeps
its file and its sheets. -/
def Repeats (c : Conversion α) : Prop :=
  ∀ s a s', c.Runs s a s' → ∀ later : ConversionState,
    later.Covers s' → ∃ after, c.Runs later a after ∧
      after.container = later.container ∧ after.sheets = later.sheets

theorem repeats_pure (a : α) : Repeats (pure a : Conversion α) := by
  intro s _ s' h later _
  obtain ⟨rfl, -⟩ := runs_pure.1 h
  exact ⟨later, runs_pure.2 ⟨rfl, rfl⟩, rfl, rfl⟩

/-- A chain repeats itself: what covers its end covers the state in the
middle. -/
theorem repeats_bind {c : Conversion α} {f : α → Conversion β}
    (hc : Repeats c) (hf : ∀ {s a s'}, c.Runs s a s' →
      IsComposed settings (f a) ∧ Repeats (f a)) :
    Repeats (c >>= f) := by
  intro s b s' h later hlater
  obtain ⟨a, s₁, hfirst, hrest⟩ := runs_bind.1 h
  obtain ⟨hcomposed, hrepeats⟩ := hf hfirst
  have hmiddle := hlater.of_extends (extends_of_composed hcomposed hrest)
  obtain ⟨later₁, hagain, hcontainer, hsheets⟩ := hc s a s₁ hfirst later hmiddle
  obtain ⟨after, hagain', hcontainer', hsheets'⟩ :=
    hrepeats s₁ b s' hrest later₁ (hlater.of_eq hcontainer hsheets)
  exact ⟨after, runs_bind.2 ⟨a, later₁, hagain, hagain'⟩,
    hcontainer'.trans hcontainer, hsheets'.trans hsheets⟩

/-- Steps that report something leave the file and the sheets. -/
theorem repeats_modify {f : ConversionState → ConversionState}
    (hcontainer : ∀ s, (f s).container = s.container)
    (hsheets : ∀ s, (f s).sheets = s.sheets) :
    Repeats (modify f : Conversion PUnit) := by
  intro s _ s' _ later _
  exact ⟨f later, runs_modify.2 rfl, hcontainer later, hsheets later⟩

/-- A sheet that was asked for is kept. -/
theorem repeats_sheet (path : Path) : Repeats (sheet settings path) := by
  intro s b s' h later hlater
  obtain ⟨hlook, rfl⟩ := runs_sheet.1 h
  have hfound := hlater.sheets path b (SheetCache.find?_keep hlook)
  refine ⟨later, runs_sheet.2 ⟨SheetCache.look_of_find? hfound, ?_⟩,
    rfl, rfl⟩
  rw [SheetCache.keep_of_find? hfound]

/-- A block that was added is found at its place. -/
theorem repeats_addBlock (block : Block) :
    Repeats (addBlock (some block)) := by
  intro s reference s' h later hlater
  obtain ⟨rfl, rfl⟩ := runs_addBlock.1 h
  have hthere := Container.mem_addBlock s.container block
  have hadd := Container.addBlock_of_mem (hlater.blocks.subset hthere)
  refine ⟨later, runs_addBlock.2 ⟨?_, ?_⟩, rfl, rfl⟩
  · rw [hadd, Container.addBlock_eq_numberOf?]
    exact (Container.numberOf?_eq_of_keeps hthere hlater.blocks).symm
  · rw [hadd]

/-- A number that named a block is not beyond the blocks of a longer
file. -/
theorem repeats_blockNumber (n : Int) : Repeats (blockNumber n) := by
  intro s v s' h later hlater
  simp only [blockNumber, runs_bind, runs_ofValue, runs_get, runs_guard,
    runs_pure] at h ⊢
  obtain ⟨k, _, ⟨hk, rfl⟩, _, _, ⟨rfl, rfl⟩, hthere, rfl, rfl⟩ := h
  have hmore : Container.size _ ≤ later.container.size :=
    hlater.blocks.length_le
  refine ⟨later, ⟨k, later, ⟨hk, rfl⟩, later, later, ⟨rfl, rfl⟩, ?_, rfl,
    rfl⟩, rfl, rfl⟩
  omega

/-- Whatever steps a conversion is composed of, it repeats itself. -/
theorem repeats_of_composed {c : Conversion α}
    (h : IsComposed settings c) : Repeats c := by
  induction h with
  | pure a => exact repeats_pure a
  | refuse he =>
      intro _ _ _ hrun
      exact absurd hrun not_runs_throw
  | chain _ hrest ihfirst ihrest =>
      exact repeats_bind ihfirst fun hrun =>
        ⟨hrest _ _ _ hrun, ihrest _ _ _ hrun⟩
  | inField owner name _ ih =>
      intro s a s' hrun later hlater
      simp only [runs_inField] at hrun ⊢
      exact ih s a s' hrun later hlater
  | sheet path => exact repeats_sheet path
  | report ds => exact repeats_modify (fun _ => rfl) fun _ => rfl
  | reportSprite report =>
      exact repeats_modify (fun _ => rfl) fun _ => rfl
  | addBlock block _ => exact repeats_addBlock block
  | blockNumber n => exact repeats_blockNumber n

-- ========================================================= kept sheets

/-- A sheet that was loaded is held. -/
theorem holds_of_sheet {path : Path} {b : Bitmap}
    (h : (sheet settings path).Runs s b s') : s'.sheets.Holds [path] := by
  obtain ⟨hlook, rfl⟩ := runs_sheet.1 h
  exact List.forall_mem_singleton.2 ⟨b, SheetCache.find?_keep hlook⟩

/-- So is the sheet of a region that was encoded. -/
theorem holds_of_encodeRegion {empty : EmptySprite} {region : SheetRegion}
    {image : Option SpriteImage}
    (h : (encodeRegion settings empty region).Runs s image s') :
    s'.sheets.Holds [region.sheet] := by
  obtain ⟨_, _, hsheet, himage⟩ := runs_bind.1 h
  obtain ⟨-, rfl⟩ := runs_ofExcept.1 himage
  exact holds_of_sheet hsheet

theorem holds_of_sprite {region : SheetRegion}
    {reference : Option BlockRef}
    (h : (sprite settings region).Runs s reference s') :
    s'.sheets.Holds [region.sheet] := by
  obtain ⟨b, _, hlook, -, -, -, rfl⟩ := effects_of_sprite h
  exact List.forall_mem_singleton.2 ⟨b, SheetCache.find?_keep hlook⟩

/-- So is the sheet of a grid whose cells were taken. -/
theorem holds_of_gridCells {grid : SheetGrid}
    {cells : List (String × SheetRegion)}
    (h : (gridCells settings grid).Runs s cells s') :
    s'.sheets.Holds [grid.sheet] := by
  obtain ⟨b, hlook, -, rfl⟩ := runs_gridCells.1 h
  exact List.forall_mem_singleton.2 ⟨b, SheetCache.find?_keep hlook⟩

/-- A row of steps keeps the sheets of each. -/
theorem holds_of_mapM {f : α → Conversion β} {paths : α → List Path}
    {l : List α} {r : List β}
    (hcomposed : ∀ a ∈ l, IsComposed settings (f a))
    (hstep : ∀ a ∈ l, ∀ {s b s'}, (f a).Runs s b s' →
      s'.sheets.Holds (paths a))
    (h : (l.mapM f).Runs s r s') :
    s'.sheets.Holds (l.flatMap paths) := by
  induction l generalizing s r with
  | nil =>
      intro p hp
      cases hp
  | cons a l ih =>
      obtain ⟨b, s₁, hb, bs, hbs, rfl⟩ := runs_mapM_cons.1 h
      rw [List.forall_mem_cons] at hcomposed hstep
      have hrow : IsComposed settings (l.mapM f) :=
        composed_mapM hcomposed.2
      rw [List.flatMap_cons]
      refine List.forall_mem_append.2 ⟨?_, ih hcomposed.2 hstep.2 hbs⟩
      exact (hstep.1 hb).mono (covers_of_composed hrow hbs)

/-- A list from a grid holds the sheet of the grid, the sprites in it
included. -/
theorem holds_of_listGrid {count : Numeric} {element : DataType}
    {grid : SheetGrid} {v : Value}
    (h : (listGrid settings count element grid).Runs s v s') :
    s'.sheets.Holds [grid.sheet] := by
  simp only [listGrid, runs_guard, runs_bind, runs_ofValue, runs_pure] at h
  obtain ⟨-, cells, s₁, hcells, n, _, ⟨-, rfl⟩, items, s₂, hitems, rfl,
    rfl⟩ := h
  exact (holds_of_gridCells hcells).mono
    (covers_of_composed (composed_spriteRefs _) hitems)

/-- So does a structure from a grid. -/
theorem holds_of_structGrid {record : String}
    {fields : List (String × DataType)} {grid : SheetGrid} {v : Value}
    (h : (structGrid settings record fields grid).Runs s v s') :
    s'.sheets.Holds [grid.sheet] := by
  unfold structGrid at h
  split at h
  · exact absurd h not_runs_throw
  · obtain ⟨cells, s₁, hcells, h⟩ := runs_bind.1 h
    split at h
    · exact absurd h not_runs_throw
    · obtain ⟨items, s₂, hitems, h⟩ := runs_bind.1 h
      obtain ⟨-, rfl⟩ := runs_pure.1 h
      exact (holds_of_gridCells hcells).mono
        (covers_of_composed (composed_cellRefs _ _) hitems)

/-- A structure holds the sheets of all its sub-fields. -/
theorem holds_of_convertFields {record : String}
    {items : List (String × FieldValue)}
    {fields : List (String × DataType)} {values : List Value}
    (ih : ∀ f ∈ fields, ∀ v {s value s'},
      (convert settings f.2 v).Runs s value s' →
        s'.sheets.Holds (f.2.sheets v))
    (h : (convertFields settings record items fields).Runs s values s') :
    s'.sheets.Holds (DataType.fieldSheets items fields) := by
  induction fields generalizing s values with
  | nil =>
      intro p hp
      cases hp
  | cons f fields ihfields =>
      obtain ⟨name, t⟩ := f
      rw [List.forall_mem_cons] at ih
      simp only [convertFields, runs_bind, runs_inField, runs_pure] at h
      obtain ⟨item, _, hitem, value, s₁, hvalue, rest, s₂, hrest, rfl,
        rfl⟩ := h
      obtain ⟨hlast, rfl⟩ := runs_subFieldValue.1 hitem
      have hrow : IsComposed settings
          (convertFields settings record items fields) :=
        composed_convertFields fun f _ v => composed_convert f.2 v
      rw [DataType.fieldSheets, hlast]
      refine List.forall_mem_append.2 ⟨?_, ihfields ih.2 hrest⟩
      exact (ih.1 item hvalue).mono (covers_of_composed hrow hrest)

/-- A conversion that succeeds has kept every sheet that its value
names. -/
theorem holds_of_convert {t : DataType} {v : FieldValue} {value : Value}
    (h : (convert settings t v).Runs s value s') :
    s'.sheets.Holds (t.sheets v) := by
  induction t using DataType.induction generalizing v s value s' with
  | numeric n =>
      cases v <;> exact List.forall_mem_nil _
  | enumeration e =>
      cases v <;> exact List.forall_mem_nil _
  | bitSet b =>
      cases v <;> exact List.forall_mem_nil _
  | text =>
      cases v <;> exact List.forall_mem_nil _
  | raw =>
      cases v <;> exact List.forall_mem_nil _
  | reference kind =>
      cases v with
      | image region =>
          simp only [convert, runs_bind, runs_pure] at h
          obtain ⟨_, _, hsprite, rfl, rfl⟩ := h
          exact holds_of_sprite hsprite
      | _ => exact List.forall_mem_nil _
  | imageData =>
      cases v with
      | image region =>
          simp only [convert, imageLines, runs_bind, runs_pure] at h
          obtain ⟨_, _, himage, rfl, rfl⟩ := h
          exact holds_of_encodeRegion himage
      | _ => exact List.forall_mem_nil _
  | list count element ih =>
      cases v with
      | list items =>
          simp only [convert, runs_bind, runs_ofValue, runs_pure] at h
          obtain ⟨_, _, ⟨-, rfl⟩, values, _, hitems, rfl, rfl⟩ := h
          exact holds_of_mapM (fun item _ => composed_convert element item)
            (fun item _ => ih) hitems
      | grid grid =>
          rw [convert] at h
          exact holds_of_listGrid h
      | _ => exact List.forall_mem_nil _
  | struct name fields ih =>
      cases v with
      | struct items =>
          simp only [convert, runs_bind, runs_pure] at h
          obtain ⟨values, _, hitems, rfl, rfl⟩ := h
          exact holds_of_convertFields (fun f hf v => ih f hf) hitems
      | grid grid =>
          rw [convert] at h
          exact holds_of_structGrid h
      | _ => exact List.forall_mem_nil _

/-- On one cache that keeps every sheet that may be asked for, loading
plays no part. -/
theorem Twins.of_holds (strict : Prop) (paths : List Path)
    (load load' : Path → Except Error Bitmap) :
    Twins strict (· ∈ paths) load load'
      (fun c c' => c = c' ∧ c.Holds paths) where
  look := by
    intro c c' p h hp _
    obtain ⟨rfl, hholds⟩ := h
    obtain ⟨b, hfound⟩ := hholds p hp
    rw [SheetCache.look_of_find? hfound, SheetCache.look_of_find? hfound]
  keep := by
    intro c c' p b h hp _ _
    obtain ⟨rfl, hholds⟩ := h
    obtain ⟨b', hfound⟩ := hholds p hp
    rw [SheetCache.keep_of_find? hfound]
    exact ⟨rfl, hholds⟩

-- ===================================================== converting again

/-- What was converted once is converted to the same from every later
state that has the blocks in their places and keeps the sheets, whatever
blocks stand behind and whatever loading a sheet would give by then, and
neither a block nor a sheet is added. -/
theorem convert_again {t : DataType} {v : FieldValue} {value : Value}
    (h : (convert settings t v).Runs s value s')
    (hlater : later.Covers s') (load : Path → Except Error Bitmap) :
    ∃ after,
      (convert (settings.withLoad load) t v).Runs later value after ∧
        after.container = later.container ∧
        after.sheets = later.sheets := by
  obtain ⟨after, hagain, hcontainer, hsheets⟩ :=
    repeats_of_composed (composed_convert t v) s value s' h later hlater
  -- the repetition finds its sheets, so it meets one that loads others
  have hholds := (holds_of_convert h).mono hlater
  have hmeets := (Twins.of_holds True (t.sheets v) settings.load
    load).meets_convert t (fun _ hp => hp) later later
    ⟨rfl, rfl, rfl, hholds⟩ (.inl trivial)
  rw [hagain] at hmeets
  obtain ⟨hresult, hend⟩ := hmeets
  refine ⟨((convert (settings.withLoad load) t v).outcome later).2,
    Prod.ext hresult.symm rfl, ?_, ?_⟩
  · rw [← hend.container]
    exact hcontainer
  · rw [← hend.sheets.1]
    exact hsheets

/-- A structure with a list of sprites and a text. -/
def shelfType : DataType :=
  .struct "shelf"
    [("lamps", .list .uint8 (.reference .sprite)), ("name", .text)]

/-- Two lamps, one of them twice, and a name. -/
def shelf : FieldValue :=
  .struct [("lamps", .list [lampAt 1, lampAt 2, lampAt 1]),
    ("name", .text ⟨[("name", [("en_GB", ["Shelf"])])]⟩)]

/-- A state in which the shelf was converted. -/
def shelfState : ConversionState :=
  ((convert lampSettings shelfType shelf).outcome {}).2

/-- A later state, with another lamp. -/
def laterState : ConversionState :=
  ((convert lampSettings (.reference .sprite) (lampAt 3)).outcome
    shelfState).2

/-- A shelf of lamps is converted again in a later state, whose sheets
can no longer be loaded. -/
theorem convert_again_shelf :
    shelfState.container.size = 3 ∧ laterState.container.size = 4 ∧
      laterState.Covers shelfState ∧
      ∃ value after, (convert lampSettings shelfType shelf).Runs {} value
          shelfState ∧
        (convert (lampSettings.withLoad fun path =>
            .error (.file path (.undecodable ""))) shelfType shelf).Runs
          laterState value after ∧
        after.container = laterState.container := by
  have hextends : laterState.Extends shelfState :=
    ((frame_of_extends lampSettings).keeps_convert _ _ shelfState).1
  have hcovers : laterState.Covers shelfState :=
    .of_extends hextends (.refl laterState)
  have hrun : ∃ value,
      ((convert lampSettings shelfType shelf).outcome {}).1 =
        .ok value :=
    isOk_iff.1 (by decide +kernel)
  obtain ⟨value, hvalue⟩ := hrun
  have hfirst : (convert lampSettings shelfType shelf).Runs {} value
      shelfState := Prod.ext hvalue rfl
  obtain ⟨after, hagain, hcontainer, -⟩ :=
    convert_again hfirst hcovers fun path =>
      .error (.file path (.undecodable ""))
  exact ⟨by decide +kernel, by decide +kernel, hcovers, value, after,
    hfirst, hagain, hcontainer⟩

end Conversion

end GamePack
