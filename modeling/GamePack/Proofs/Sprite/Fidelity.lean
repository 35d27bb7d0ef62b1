import GamePack.Proofs.Container.Adding
import GamePack.Proofs.Container.Reading
import GamePack.Proofs.Sprite.Payload
import GamePack.Proofs.Sprite.Picture

/-!
Sprites from the sheet to the file and back. The lines of an encoded
sprite are codes, so its payload is read back as the sprite; a container
keeps the block at the place its reference names, and its bytes are
parsed; what the sprite that was read shows is what the region shows.
-/
namespace GamePack.SpriteImage

open Sprite

variable {image : SpriteImage} {t : UInt8} {rows : List Bytes}

/-- The lines of an image that depicts rows are codes of its width. -/
theorem Depicts.isCode (h : Depicts image t rows) (data : Bytes)
    (hdata : some data ∈ image.lines) : IsCode image.width data := by
  rw [h.lines, List.mem_map] at hdata
  obtain ⟨row, hrow, hcode⟩ := hdata
  rw [← h.width row hrow]
  exact isCode_of_encodeRow hcode

/-- A sprite that depicts rows is read back from the payload of its
block. -/
theorem Depicts.fromPayload_eq {block : Block} {payload : Bytes}
    (h : Depicts image t rows) (hblock : image.toBlock = .ok block)
    (hpayload : block.payload = .ok payload) :
    fromPayload payload = .ok image := by
  obtain ⟨hfits, rfl⟩ := toBlock_ok_iff.1 hblock
  apply fromPayload_payload hfits _ h.isCode hpayload
  rw [h.lines, List.length_map, h.height]

/-- Encoding a region in the bitmap gives no sprite exactly when clear
regions are omitted and the region is clear, up to an offset of what is
encoded that does not fit its word, which ends in the only failure, a
panic. A sprite
whose block is added to a container is found again in the bytes of the
container, at the place that the reference names, and shows what the
region shows. -/
theorem encode_faithful (b : Bitmap) (r : Region) (crop : Bool)
    (t : UInt8) (empty : EmptySprite) (h : r.checkBounds b = .ok ()) :
    (encode b r crop t empty = .ok none ↔
      empty = .omitted ∧ r.IsClear b t ∧
        (r.taken b t crop).fitsWords = true) ∧
    (∀ e, encode b r crop t empty = .error e ↔
      e = .panic "sprite offset" ∧
        (r.taken b t crop).fitsWords = false) ∧
    ∀ image block, encode b r crop t empty = .ok (some image) →
      image.toBlock = .ok block →
      ∀ c : Container, c.size < 0xffffffff →
      ∀ bytes, (c.addBlock (some block)).2.toBytes = .ok bytes →
      ∃ file reference stored pixels,
        StoredFile.parse bytes = .ok file ∧
        (c.addBlock (some block)).1 = some reference ∧
        file.blocks[reference.number - 1]? = some stored ∧
        fromPayload stored.payload = .ok image ∧
        image.pixels t = .ok pixels ∧
        pixels.length = image.width * image.height ∧
        ∀ p q index,
          image.Shows pixels t p q index ↔ r.Shows b t p q index := by
  refine ⟨encode_eq_none h, fun e => encode_eq_error h, ?_⟩
  intro image block hencode hblock c hsize bytes hbytes
  obtain ⟨rows, hdepicts, hshows⟩ := depicts_of_encode h hencode
  obtain ⟨file, hparse, hstores⟩ :=
    Container.exists_parse_of_toBytes hbytes
  obtain ⟨i, hi, hnumber, hle⟩ := Container.exists_addBlock c block
  have hreference : 0 < i + 1 ∧ i + 1 < 0x100000000 := by omega
  obtain ⟨stored, hstored, hat⟩ :
      ∃ stored, file.blocks[i]? = some stored ∧ block.Stores stored := by
    obtain ⟨hlt, hget⟩ := List.getElem?_eq_some_iff.1 hi
    have hlt' : i < file.blocks.length := hstores.length_eq ▸ hlt
    refine ⟨file.blocks[i], List.getElem?_eq_getElem hlt', ?_⟩
    rw [← hget]
    exact hstores.get hlt hlt'
  refine ⟨file, ⟨i + 1, hreference.1, hreference.2⟩, stored,
    rows.flatten, hparse, ?_, hstored, ?_, hdepicts.pixels_eq,
    hdepicts.length_pixels, hshows⟩
  · rw [hnumber]
    exact dif_pos hreference
  · exact hdepicts.fromPayload_eq hblock hat.payload

/-- A row of three pixels, the middle one opaque. -/
def dot : Bitmap := ⟨3, 1, #[0, 7, 0], rfl, none⟩

/-- The opaque pixel of the row is cropped, stored and found again. -/
theorem encode_faithful_dot :
    (⟨0, 0, 3, 1, 5, 5⟩ : Region).checkBounds dot = .ok () ∧
    ∃ image bytes file stored pixels,
      encode dot ⟨0, 0, 3, 1, 5, 5⟩ true 0 .omitted = .ok (some image) ∧
      (({} : Container).addBlock (some image.blockOf)).2.toBytes =
        .ok bytes ∧
      StoredFile.parse bytes = .ok file ∧
      file.blocks[0]? = some stored ∧
      fromPayload stored.payload = .ok image ∧
      image.pixels 0 = .ok pixels ∧ image.Shows pixels 0 6 5 7 := by
  have hbounds : (⟨0, 0, 3, 1, 5, 5⟩ : Region).checkBounds dot = .ok () :=
    by decide
  have hencode : encode dot ⟨0, 0, 3, 1, 5, 5⟩ true 0 .omitted =
      .ok (some ⟨1, 1, 6, 5, [some [128, 1, 7]]⟩) := by decide +kernel
  have hshows : (⟨0, 0, 3, 1, 5, 5⟩ : Region).Shows dot 0 6 5 7 :=
    ⟨1, 0, by unfold Region.Holds; decide, by decide, by decide,
      by decide, by decide⟩
  obtain ⟨-, -, hfaithful⟩ :=
    encode_faithful dot ⟨0, 0, 3, 1, 5, 5⟩ true 0 .omitted hbounds
  obtain ⟨file, reference, stored, pixels, hparse, hreference, hstored,
    hread, hpixels, -, hall⟩ := hfaithful _ _ hencode rfl {} (by decide) _
      rfl
  refine ⟨hbounds, _, _, file, stored, pixels, hencode, rfl, hparse, ?_,
    hread, hpixels, (hall 6 5 7).2 hshows⟩
  obtain rfl : _ = reference := Option.some.inj hreference
  exact hstored

end GamePack.SpriteImage
