import GamePack.Proofs.Container.Calls
import GamePack.Proofs.Conversion.Sheets
import GamePack.Proofs.Sprite.Fidelity
import GamePack.Proofs.Sprite.Tight

/-!
Sprites that look the same are stored once. A region with opaque pixels,
cropped, is encoded as the sprite of the bounding box of these pixels,
which is one for regions that show the same and only for these. Its block
holds all of the sprite, and a file gives one number to equal blocks and
different numbers to others, however much is added in between; so two
sprite fields of one file hold the same reference exactly when the same
is to be seen.
-/
namespace GamePack

open Sprite

-- ============================================================= blocks

/-- Two additions to one container, the second at any time after the
first, give the same number exactly when the blocks are equal. -/
theorem Container.addBlock_eq_iff {c c' : Container}
    {block block' : Block}
    (hkeeps : (c.addBlock (some block)).2.blocks <+: c'.blocks)
    (hsize : (c'.addBlock (some block')).2.size < 0x100000000) :
    (c.addBlock (some block)).1 = (c'.addBlock (some block')).1 ↔
      block = block' := by
  have hthere := mem_addBlock c block
  have hlater := hkeeps.trans (keeps_addBlock c' (some block'))
  rw [addBlock_eq_numberOf?, addBlock_eq_numberOf?,
    ← numberOf?_eq_of_keeps hthere hlater]
  exact numberOf?_inj (hlater.subset hthere) (mem_addBlock c' block') hsize

namespace SpriteImage

/-- The block of a sprite tells the sprite. -/
theorem blockOf_inj {image image' : SpriteImage} :
    image.blockOf = image'.blockOf ↔ image = image' := by
  constructor
  · intro h
    obtain ⟨hw, hh, hx, hy, hl⟩ := get?_blockOf image
    obtain ⟨hw', hh', hx', hy', hl'⟩ := get?_blockOf image'
    rw [h] at hw hh hx hy hl
    have hwidth := hw.symm.trans hw'
    have hheight := hh.symm.trans hh'
    have hxOffset := hx.symm.trans hx'
    have hyOffset := hy.symm.trans hy'
    have hlines := hl.symm.trans hl'
    simp only [Option.some.injEq, Value.int.injEq, Nat.cast_inj,
      Value.image.injEq] at hwidth hheight hxOffset hyOffset hlines
    cases image
    cases image'
    simp only [SpriteImage.mk.injEq]
    exact ⟨hwidth, hheight, hxOffset, hyOffset, hlines⟩
  · rintro rfl
    rfl

end SpriteImage

namespace Conversion

variable {s s' : ConversionState} {b : Bitmap} {r : Region} {t : UInt8}
  {reference : Option BlockRef}

/-- A region of a sheet is cropped and converted for a sprite field,
which is given a reference. -/
def ConvertsRegion (b : Bitmap) (r : Region) (t : UInt8)
    (s : ConversionState) (reference : Option BlockRef)
    (s' : ConversionState) : Prop :=
  ∃ settings region, settings.transparent = t ∧ region.crop = true ∧
    s.sheets.look settings.load region.sheet = .ok b ∧
    region.onBitmap b = r ∧
    (sprite settings region).Runs s reference s'

/-- A region with opaque pixels is converted to the reference that adding
the block of its sprite gives. -/
theorem ConvertsRegion.addBlock
    (h : ConvertsRegion b r t s reference s') (hvisible : ¬ r.IsClear b t) :
    reference = (s.container.addBlock
        (some (SpriteImage.ofTaken b (r.crop b t) t).blockOf)).1 ∧
      s'.container = (s.container.addBlock
        (some (SpriteImage.ofTaken b (r.crop b t) t).blockOf)).2 := by
  obtain ⟨settings, region, rfl, hcrop, hsheet, rfl, hruns⟩ := h
  simp only [sprite, encodeRegion, runs_bind, runs_sheet, runs_ofExcept]
    at hruns
  obtain ⟨image, _, ⟨b', _, ⟨hsheet', rfl⟩, hencode, rfl⟩, hruns⟩ := hruns
  obtain rfl : b = b' := Except.ok.inj (hsheet.symm.trans hsheet')
  obtain ⟨_, hbounds, -⟩ := bind_eq_ok.1 hencode
  rw [hcrop,
    SpriteImage.encode_crop_eq (mapError_ok_iff.1 hbounds) hvisible,
    SpriteImage.withinWords] at hencode
  split at hencode
  next =>
    obtain rfl := Except.ok.inj hencode
    simp only [runs_bind, runs_map, runs_ofExcept, runs_addBlock,
      runs_modify, runs_pure] at hruns
    obtain ⟨_, _, ⟨block, ⟨hblock, rfl⟩, rfl⟩, _, _, ⟨rfl, rfl⟩, _, _,
      rfl, rfl, rfl⟩ := hruns
    obtain ⟨-, rfl⟩ := SpriteImage.toBlock_ok_iff.1 hblock
    exact ⟨rfl, rfl⟩
  next => cases hencode

end Conversion

/-- Two regions look alike: they have the same opaque pixels at the same
places from their reference points. -/
def Sprite.Region.LooksLike (r₁ : Region) (b₁ : Bitmap) (r₂ : Region)
    (b₂ : Bitmap) (t : UInt8) : Prop :=
  ∀ p q index, r₁.Shows b₁ t p q index ↔ r₂.Shows b₂ t p q index

namespace SpriteImage

/-- An image that is within its words is not changed by the test. -/
theorem eq_of_withinWords {image image' : SpriteImage}
    (h : image.withinWords = .ok (some image')) : image = image' := by
  unfold withinWords at h
  split at h
  · exact Option.some.inj (Except.ok.inj h)
  · cases h

/-- Two regions with opaque pixels, of any bitmaps, are cropped and
encoded as one sprite exactly when they look alike; encoding can fail
only for an offset of the sprite that does not fit its word. Converted
for sprite fields of one file they are given the same reference exactly
when they look alike, whatever is added to the file in between. -/
theorem encode_canonical {b₁ b₂ : Bitmap} {r₁ r₂ : Region} {t : UInt8}
    (empty₁ empty₂ : EmptySprite)
    (hbounds₁ : r₁.checkBounds b₁ = .ok ())
    (hbounds₂ : r₂.checkBounds b₂ = .ok ())
    (hvisible₁ : ¬ r₁.IsClear b₁ t) (hvisible₂ : ¬ r₂.IsClear b₂ t) :
    (∃ image₁ image₂ : SpriteImage,
      encode b₁ r₁ true t empty₁ = image₁.withinWords ∧
      encode b₂ r₂ true t empty₂ = image₂.withinWords ∧
      (image₁ = image₂ ↔ r₁.LooksLike b₁ r₂ b₂ t)) ∧
    ∀ s₁ reference₁ s₁' s₂ reference₂ s₂',
      Conversion.ConvertsRegion b₁ r₁ t s₁ reference₁ s₁' →
      s₁'.container.blocks <+: s₂.container.blocks →
      Conversion.ConvertsRegion b₂ r₂ t s₂ reference₂ s₂' →
      s₂'.container.size < 0x100000000 →
      (reference₁ = reference₂ ↔ r₁.LooksLike b₁ r₂ b₂ t) := by
  have hsame := ofTaken_crop_eq_iff hvisible₁ hvisible₂
  refine ⟨⟨_, _, encode_crop_eq hbounds₁ hvisible₁,
    encode_crop_eq hbounds₂ hvisible₂, hsame⟩, ?_⟩
  intro s₁ reference₁ s₁' s₂ reference₂ s₂' hconvert₁ hkeeps hconvert₂ hsize
  obtain ⟨rfl, hleft₁⟩ := hconvert₁.addBlock hvisible₁
  obtain ⟨rfl, hleft₂⟩ := hconvert₂.addBlock hvisible₂
  rw [hleft₁] at hkeeps
  rw [hleft₂] at hsize
  rw [Container.addBlock_eq_iff hkeeps hsize, blockOf_inj]
  exact hsame

/-- A sheet with the opaque pixel of the row of three alone. -/
def speck : Bitmap := ⟨1, 1, #[7], rfl, none⟩

/-- A state with both sheets. -/
def dotState : ConversionState where
  sheets := ⟨[(⟨"dot.png"⟩, dot), (⟨"speck.png"⟩, speck)]⟩

/-- Settings without further sheets. -/
def dotSettings : ConversionSettings where
  load := fun path => .error (.file path (.undecodable ""))
  emptySprites := .omitted
  transparent := 0

/-- The whole row, with its pixel six columns behind the reference
point. -/
def dotRegion : SheetRegion :=
  { sheet := ⟨"dot.png"⟩, xOffset := 5, yOffset := 5 }

/-- The pixel alone, at the same place. -/
def speckRegion : SheetRegion :=
  { sheet := ⟨"speck.png"⟩, xOffset := 6, yOffset := 5 }

/-- What converting the row leaves. -/
def speckState : ConversionState :=
  ((Conversion.sprite dotSettings dotRegion).outcome dotState).2

/-- What converting the pixel after it leaves. -/
def bothState : ConversionState :=
  ((Conversion.sprite dotSettings speckRegion).outcome speckState).2

/-- The pixel lies one column further to the right in the first sheet
than in the second; with an offset that makes up for this, both regions
become one block. -/
theorem encode_canonical_dot :
    (dotRegion.onBitmap dot).checkBounds dot = .ok () ∧
    (speckRegion.onBitmap speck).checkBounds speck = .ok () ∧
    ¬ (dotRegion.onBitmap dot).IsClear dot 0 ∧
    ¬ (speckRegion.onBitmap speck).IsClear speck 0 ∧
    (dotRegion.onBitmap dot).LooksLike dot (speckRegion.onBitmap speck)
      speck 0 ∧
    ∃ reference,
      Conversion.ConvertsRegion dot (dotRegion.onBitmap dot) 0 dotState
        reference speckState ∧
      Conversion.ConvertsRegion speck (speckRegion.onBitmap speck) 0
        speckState reference bothState := by
  have hbounds : (dotRegion.onBitmap dot).checkBounds dot = .ok () := by
    decide
  have hbounds' : (speckRegion.onBitmap speck).checkBounds speck =
      .ok () := by decide
  have hvisible : ¬ (dotRegion.onBitmap dot).IsClear dot 0 := fun h =>
    absurd (h 1 0 (by unfold Region.Holds; decide)) (by decide)
  have hvisible' : ¬ (speckRegion.onBitmap speck).IsClear speck 0 := fun h =>
    absurd (h 0 0 (by unfold Region.Holds; decide)) (by decide)
  obtain ⟨⟨image, image', hencode, hencode', hsame⟩, hreferences⟩ :=
    encode_canonical .omitted .omitted hbounds hbounds' hvisible hvisible'
  have himage : encode dot (dotRegion.onBitmap dot) true 0 .omitted =
      .ok (some ⟨1, 1, 6, 5, [some [128, 1, 7]]⟩) := by decide +kernel
  have himage' : encode speck (speckRegion.onBitmap speck) true 0 .omitted =
      .ok (some ⟨1, 1, 6, 5, [some [128, 1, 7]]⟩) := by decide +kernel
  have hlike := hsame.1 ((eq_of_withinWords (hencode ▸ himage)).trans
    (eq_of_withinWords (hencode' ▸ himage')).symm)
  have hrun : Conversion.ConvertsRegion dot (dotRegion.onBitmap dot) 0
      dotState _ speckState :=
    ⟨dotSettings, dotRegion, rfl, rfl, rfl, rfl, rfl⟩
  have hrun' : Conversion.ConvertsRegion speck
      (speckRegion.onBitmap speck) 0 speckState _ bothState :=
    ⟨dotSettings, speckRegion, rfl, rfl, rfl, rfl, rfl⟩
  have hsize : bothState.container.size < 0x100000000 := by decide +kernel
  have hequal := (hreferences _ _ _ _ _ _ hrun List.prefix_rfl hrun'
    hsize).2 hlike
  rw [← hequal] at hrun'
  exact ⟨hbounds, hbounds', hvisible, hvisible', hlike, _, hrun, hrun'⟩

end SpriteImage

end GamePack
