import GamePack.Proofs.Container.Calls
import GamePack.Proofs.Conversion.Frame

/-!
A conversion only appends, also when it fails. Whatever steps it takes
before it ends, a block goes behind the blocks that are there, a report
behind the reports, a diagnostic behind the diagnostics, and a sheet
behind the sheets, for it is loaded only where no sheet of its path is
kept. So a reference names the block that it named before, and a path
finds the sheet that it found.
-/
namespace GamePack

variable {s s' s'' : ConversionState}

-- ========================================================= extensions

/-- A state that extends another: it holds what the other holds in the
same places, and no block twice unless the other does. -/
structure ConversionState.Extends (s' s : ConversionState) : Prop where
  blocks : s.container.blocks <+: s'.container.blocks
  nodup : s.container.blocks.Nodup → s'.container.blocks.Nodup
  sprites : s.sprites <+: s'.sprites
  diagnostics : s.diagnostics <+: s'.diagnostics
  sheets : s.sheets.sheets <+: s'.sheets.sheets

namespace ConversionState.Extends

theorem refl (s : ConversionState) : s.Extends s where
  blocks := List.prefix_rfl
  nodup := id
  sprites := List.prefix_rfl
  diagnostics := List.prefix_rfl
  sheets := List.prefix_rfl

theorem trans (h : s'.Extends s) (h' : s''.Extends s') :
    s''.Extends s where
  blocks := h.blocks.trans h'.blocks
  nodup := fun hs => h'.nodup (h.nodup hs)
  sprites := h.sprites.trans h'.sprites
  diagnostics := h.diagnostics.trans h'.diagnostics
  sheets := h.sheets.trans h'.sheets

/-- A sheet that is kept stays the sheet of its path. -/
theorem find? (h : s'.Extends s) {path : Path} {b : Bitmap}
    (hfound : s.sheets.find? path = some b) :
    s'.sheets.find? path = some b := by
  obtain ⟨later, hlater⟩ := h.sheets
  obtain ⟨entry, hentry, rfl⟩ := Option.map_eq_some_iff.1 hfound
  unfold SheetCache.find?
  rw [← hlater, List.find?_append, hentry]
  rfl

/-- A reference names the block that it named. -/
theorem get? (h : s'.Extends s) {r : BlockRef} {block : Block}
    (hnamed : s.container.get? r = some block) :
    s'.container.get? r = some block := by
  obtain ⟨later, hlater⟩ := h.blocks
  obtain ⟨hlt, -⟩ := List.getElem?_eq_some_iff.1 hnamed
  unfold Container.get? at hnamed ⊢
  rw [← hlater, List.getElem?_append_left hlt]
  exact hnamed

end ConversionState.Extends

-- ========================================================= conversions

namespace Conversion

variable {settings : ConversionSettings}

/-- Every step of a conversion extends the state. -/
theorem frame_of_extends (settings : ConversionSettings) :
    Frame settings (fun s s' => s'.Extends s) (fun _ => True) where
  refl := ConversionState.Extends.refl
  trans := ConversionState.Extends.trans
  sheet := by
    intro s path b hnew _
    refine { ConversionState.Extends.refl s with sheets := ?_ }
    rw [SheetCache.sheets_insert hnew]
    exact List.prefix_append _ _
  report := fun s _ =>
    { ConversionState.Extends.refl s with
      diagnostics := List.prefix_append _ _ }
  sprite := fun s _ =>
    { ConversionState.Extends.refl s with
      sprites := List.prefix_append _ _ }
  block := fun s block _ =>
    { ConversionState.Extends.refl s with
      blocks := Container.keeps_addBlock s.container (some block)
      nodup := fun h => Container.nodup_addBlock h (some block) }
  load := fun _ _ _ => trivial
  value := fun _ => trivial
  panic := fun _ => trivial
  field := fun _ _ _ _ => trivial

/-- Whether it succeeds or fails, a conversion leaves a state that extends
the one it starts in: the same blocks in the same places, without
repetition if there was none, the same reports and diagnostics in front of
new ones, for every path the sheet that was kept, and for every reference
the block that it named. -/
theorem convert_appends (settings : ConversionSettings) (t : DataType)
    (v : FieldValue) (s : ConversionState) :
    ((convert settings t v).outcome s).2.Extends s ∧
      (∀ path b, s.sheets.find? path = some b →
        ((convert settings t v).outcome s).2.sheets.find? path = some b) ∧
      ∀ r block, s.container.get? r = some block →
        ((convert settings t v).outcome s).2.container.get? r =
          some block := by
  have hextends := ((frame_of_extends settings).keeps_convert t v s).1
  exact ⟨hextends, fun _ _ => hextends.find?, fun _ _ => hextends.get?⟩

/-- Settings under which one sheet shows a pixel and others are missing. -/
def lampSettings : ConversionSettings where
  load := fun path =>
    if path.text = "lamp.png" then .ok ⟨1, 1, #[5], rfl, none⟩
    else .error (.value (.mismatch .spriteRegion "sheet"))
  emptySprites := .omitted
  transparent := 0

/-- A pixel at a distance. -/
def lampAt (xOffset : Int) : FieldValue :=
  .image { sheet := ⟨"lamp.png"⟩, xOffset }

/-- A state in which a sprite was converted. -/
def lampState : ConversionState :=
  ((convert lampSettings (.reference .sprite) (lampAt 0)).outcome {}).2

/-- A list whose second item fails, behind a new sprite. -/
def brokenLamps : FieldValue :=
  .list [lampAt 1, .image { sheet := ⟨"gone.png"⟩ }, lampAt 2]

/-- The list fails at its second lamp, and keeps the block of the first.
-/
theorem convert_appends_broken :
    ((convert lampSettings (.list .uint8 (.reference .sprite))
        brokenLamps).outcome lampState).1.isOk = false ∧
      lampState.container.blocks.length = 1 ∧
      ((convert lampSettings (.list .uint8 (.reference .sprite))
        brokenLamps).outcome lampState).2.container.blocks.length = 2 ∧
      ((convert lampSettings (.list .uint8 (.reference .sprite))
        brokenLamps).outcome lampState).2.Extends lampState := by
  obtain ⟨hextends, -, -⟩ := convert_appends lampSettings
    (.list .uint8 (.reference .sprite)) brokenLamps lampState
  exact ⟨by decide +kernel, by decide +kernel, by decide +kernel, hextends⟩

end Conversion

end GamePack
