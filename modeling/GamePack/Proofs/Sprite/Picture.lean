import GamePack.Proofs.Outcome
import GamePack.Proofs.Sprite.Crop
import GamePack.Proofs.Sprite.Scan

/-!
What an encoded sprite shows. A sprite `Depicts` rows of pixels when its
lines are their codes; its pixels are then these rows, and what it shows
can be read off them. Encoding a region in the bitmap has three results:
a failure where an offset does not fit its word, no sprite where the
region is clear and clear regions are omitted, and else a sprite that
shows what the region shows.
-/
namespace GamePack

open Sprite

-- =================================================== clear regions

namespace Sprite.Region

variable {b : Bitmap} {t : UInt8} {r r' : Region}

/-- A region without opaque pixels. -/
def IsClear (r : Region) (b : Bitmap) (t : UInt8) : Prop :=
  ∀ x y, r.Holds x y → b.get x y = t

/-- The part of a region that is encoded. -/
def taken (r : Region) (b : Bitmap) (t : UInt8) (crop : Bool) : Region :=
  if crop then r.crop b t else r

/-- What is taken of a region is the region without some transparent
edges. -/
theorem taken_trims (crop : Bool) : Trims b t (r.taken b t crop) r := by
  cases crop with
  | false => exact Trims.refl r
  | true => exact crop_trims

/-- Trimming makes no region clear and leaves clear ones clear. -/
theorem Trims.isClear_iff (h : Trims b t r' r) :
    r'.IsClear b t ↔ r.IsClear b t := by
  constructor
  · intro hclear x y hr
    by_contra ho
    exact ho (hclear x y (h.kept x y hr ho))
  · intro hclear x y hr
    exact hclear x y (h.holds hr)

/-- The rows of pixels of a region. -/
def rows (r : Region) (b : Bitmap) : List Bytes :=
  (List.range' r.y r.height).map (r.rowOf b)

theorem length_of_mem_rows {row : Bytes} (h : row ∈ r.rows b) :
    row.length = r.width := by
  obtain ⟨y, -, rfl⟩ := List.mem_map.1 h
  simp [rowOf]

/-- The pixels in the rows of a region are those of the bitmap. -/
theorem getElem?_rows {i j : Nat} {index : UInt8} :
    ((r.rows b)[j]?.bind (·[i]?)) = some index ↔
      i < r.width ∧ j < r.height ∧ b.get (r.x + i) (r.y + j) = index := by
  by_cases hj : j < r.height
  · by_cases hi : i < r.width
    · simp [rows, rowOf, hi, hj]
    · simp [rows, rowOf, hi, hj]
  · simp [rows, hj]

/-- Every row of a region is clear exactly when the region is. -/
theorem isClear_iff_rows :
    r.IsClear b t ↔ ∀ row ∈ r.rows b, ∀ pixel ∈ row, pixel = t := by
  constructor
  · intro h row hrow pixel hpixel
    obtain ⟨y, hy, rfl⟩ := List.mem_map.1 hrow
    obtain ⟨x, hx, rfl⟩ := List.mem_map.1 hpixel
    rw [List.mem_range'_1] at hx hy
    exact h x y ⟨hx.1, hx.2, hy.1, hy.2⟩
  · intro h x y hr
    have hy : y ∈ List.range' r.y r.height := by
      rw [List.mem_range'_1]
      exact ⟨hr.2.2.1, hr.2.2.2⟩
    have hx : x ∈ List.range' r.x r.width := by
      rw [List.mem_range'_1]
      exact ⟨hr.1, hr.2.1⟩
    apply h (r.rowOf b y) (List.mem_map_of_mem hy)
    exact List.mem_map_of_mem hx

end Sprite.Region

namespace SpriteImage

variable {image : SpriteImage} {t : UInt8} {rows : List Bytes}

-- ================================================== depicting rows

/-- A sprite whose lines are the codes of rows of its width. -/
structure Depicts (image : SpriteImage) (t : UInt8)
    (rows : List Bytes) : Prop where
  lines : image.lines = rows.map (encodeRow t)
  height : rows.length = image.height
  width : ∀ row ∈ rows, row.length = image.width

/-- The pixels of a sprite, given as one row after the other, have an
opaque pixel of an index at a place, counted from the reference
point. -/
def Shows (image : SpriteImage) (pixels : Bytes) (t : UInt8) (p q : Int)
    (index : UInt8) : Prop :=
  ∃ i j, i < image.width ∧ j < image.height ∧
    pixels[j * image.width + i]? = some index ∧ index ≠ t ∧
    (i : Int) + image.xOffset = p ∧ (j : Int) + image.yOffset = q

/-- The pixels of a sprite that depicts rows are these rows. -/
theorem Depicts.pixels_eq (h : Depicts image t rows) :
    image.pixels t = .ok rows.flatten := by
  have hrows : image.pixelRows t = .ok rows := by
    unfold pixelRows
    rw [h.lines, mapM_eq_ok, List.forall₂_map_left_iff,
      List.forall₂_same]
    intro row hrow
    rw [← h.width row hrow]
    exact linePixels_encodeRow t row
  unfold pixels
  rw [hrows]
  rfl

/-- Rows of one width have that many pixels each. -/
theorem length_flatten_of_width {width : Nat}
    (h : ∀ row ∈ rows, row.length = width) :
    rows.flatten.length = width * rows.length := by
  induction rows with
  | nil => simp
  | cons row rows ih =>
      rw [List.flatten_cons, List.length_append, List.length_cons,
        h row List.mem_cons_self,
        ih fun row hrow => h row (List.mem_cons_of_mem _ hrow)]
      ring

/-- An image has as many pixels as its size says. -/
theorem Depicts.length_pixels (h : Depicts image t rows) :
    rows.flatten.length = image.width * image.height := by
  rw [length_flatten_of_width h.width, h.height]

/-- A place in rows of one width, laid one after the other. -/
theorem getElem?_flatten_of_width {α : Type} {rows : List (List α)}
    {width i j : Nat} (h : ∀ row ∈ rows, row.length = width)
    (hi : i < width) :
    rows.flatten[j * width + i]? = rows[j]?.bind (·[i]?) := by
  induction rows generalizing j with
  | nil => simp
  | cons row rows ih =>
      have hrow := h row List.mem_cons_self
      rw [List.flatten_cons]
      cases j with
      | zero =>
          rw [Nat.zero_mul, Nat.zero_add,
            List.getElem?_append_left (by omega)]
          rfl
      | succ j =>
          have hplace : (j + 1) * width + i - row.length
              = j * width + i := by
            rw [hrow, Nat.succ_mul]
            omega
          rw [List.getElem?_append_right
              (by rw [hrow, Nat.succ_mul]; omega), hplace,
            ih fun row hmem => h row (List.mem_cons_of_mem _ hmem)]
          rfl

/-- A sprite that depicts the rows of a region and lies where it lies
shows what the region shows. -/
theorem Depicts.shows_iff {b : Bitmap} {r : Region} {p q : Int}
    {index : UInt8} (h : Depicts image t (r.rows b))
    (hwidth : image.width = r.width) (hheight : image.height = r.height)
    (hx : image.xOffset = r.xOffset) (hy : image.yOffset = r.yOffset) :
    image.Shows (r.rows b).flatten t p q index ↔
      r.Shows b t p q index := by
  constructor
  · rintro ⟨i, j, hi, hj, hindex, ho, hp, hq⟩
    rw [getElem?_flatten_of_width h.width hi, Region.getElem?_rows]
      at hindex
    refine ⟨r.x + i, r.y + j, ?_, hindex.2.2, ho, by omega, by omega⟩
    unfold Region.Holds
    omega
  · rintro ⟨x, y, ⟨hxl, hxr, hyt, hyb⟩, hindex, ho, hp, hq⟩
    have hi : x - r.x < image.width := by omega
    refine ⟨x - r.x, y - r.y, hi, by omega, ?_, ho, by omega, by omega⟩
    rw [getElem?_flatten_of_width h.width hi, Region.getElem?_rows]
    refine ⟨by omega, by omega, ?_⟩
    rw [Nat.add_sub_cancel' hxl, Nat.add_sub_cancel' hyt]
    exact hindex

-- ======================================================== encoding

variable {b : Bitmap} {r : Region} {crop : Bool} {empty : EmptySprite}

/-- The lines of a region are the codes of its rows. -/
theorem encodeRows_eq (b : Bitmap) (r : Region) (t : UInt8) :
    encodeRows b r t = (r.rows b).map (encodeRow t) := by
  simp [encodeRows, Region.rows]

/-- No row of a region has code exactly when the region is clear. -/
theorem encodeRows_all_isNone :
    (encodeRows b r t).all Option.isNone = true ↔ r.IsClear b t := by
  rw [Region.isClear_iff_rows, encodeRows_eq, List.all_map,
    List.all_eq_true]
  simp only [Function.comp_apply, Option.isNone_iff_eq_none,
    encodeRow_eq_none]

/-- The sprite of the encoded part of a region. -/
def ofTaken (b : Bitmap) (r : Region) (t : UInt8) : SpriteImage :=
  ⟨r.width, r.height, r.xOffset, r.yOffset, encodeRows b r t⟩

/-- The sprite of a whole region without line data. -/
def blankOf (r : Region) : SpriteImage :=
  ⟨r.width, r.height, r.xOffset, r.yOffset, List.replicate r.height none⟩

/-- The image of a region depicts the rows of the region. -/
theorem ofTaken_depicts : Depicts (ofTaken b r t) t (r.rows b) where
  lines := encodeRows_eq b r t
  height := by simp [Region.rows, ofTaken]
  width := fun _ h => Region.length_of_mem_rows h

/-- A sprite without line data depicts a clear region. -/
theorem blankOf_depicts (h : r.IsClear b t) :
    Depicts (blankOf r) t (r.rows b) where
  lines := by
    rw [Region.isClear_iff_rows] at h
    symm
    show (r.rows b).map (encodeRow t) = List.replicate r.height none
    rw [List.eq_replicate_iff]
    constructor
    · simp [Region.rows]
    · intro line hline
      obtain ⟨row, hrow, rfl⟩ := List.mem_map.1 hline
      exact encodeRow_eq_none.2 (h row hrow)
  height := by simp [Region.rows, blankOf]
  width := fun _ h => Region.length_of_mem_rows h

open Classical in
/-- What encoding a region in the bitmap gives. -/
theorem encode_eq (h : r.checkBounds b = .ok ()) :
    encode b r crop t empty =
      if (r.taken b t crop).fitsWords = false then
        .error (.panic "sprite offset")
      else if r.IsClear b t then
        .ok (match empty with
          | .omitted => none
          | .blank => some (blankOf r))
      else .ok (some (ofTaken b (r.taken b t crop) t)) := by
  have hclear := encodeRows_all_isNone (b := b) (t := t)
    (r := r.taken b t crop)
  rw [(Region.taken_trims crop).isClear_iff] at hclear
  unfold encode
  rw [h]
  -- the encoder looks at the offsets first, then at the lines
  show (if (!(r.taken b t crop).fitsWords) = true then _ else _) = _
  cases (r.taken b t crop).fitsWords with
  | false => rfl
  | true =>
      by_cases hr : r.IsClear b t
      · show (if (encodeRows b (r.taken b t crop) t).all Option.isNone
            = true then _ else _) = _
        rw [if_pos (hclear.2 hr)]
        cases empty with
        | omitted => simp [hr]
        | blank =>
            simp [hr]
            rfl
      · show (if (encodeRows b (r.taken b t crop) t).all Option.isNone
            = true then _ else _) = _
        rw [if_neg fun hall => hr (hclear.1 hall)]
        simp [hr]
        rfl

/-- Encoding a region in the bitmap gives no sprite exactly when the
region is clear, clear regions are omitted, and the offsets of what is
encoded fit their words. -/
theorem encode_eq_none (h : r.checkBounds b = .ok ()) :
    encode b r crop t empty = .ok none ↔
      empty = .omitted ∧ r.IsClear b t ∧
        (r.taken b t crop).fitsWords = true := by
  rw [encode_eq h]
  cases hfits : (r.taken b t crop).fitsWords with
  | false => simp
  | true =>
      by_cases hclear : r.IsClear b t
      · cases empty <;> simp [hclear]
      · simp [hclear]

/-- Encoding a region in the bitmap only fails by a panic, exactly when an
offset of what is encoded does not fit its word. -/
theorem encode_eq_error {e : Error} (h : r.checkBounds b = .ok ()) :
    encode b r crop t empty = .error e ↔
      e = .panic "sprite offset" ∧
        (r.taken b t crop).fitsWords = false := by
  rw [encode_eq h]
  cases hfits : (r.taken b t crop).fitsWords with
  | false => simp [eq_comm]
  | true =>
      by_cases hclear : r.IsClear b t
      · cases empty <;> simp [hclear]
      · simp [hclear]

/-- A region that is encoded gives no sprite exactly when it has no opaque
pixel and such regions are omitted. -/
theorem isNone_iff_of_encode {image : Option SpriteImage}
    (h : encode b r crop t empty = .ok image) :
    image = none ↔ empty = .omitted ∧ r.IsClear b t := by
  obtain ⟨_, hbounds, -⟩ := bind_eq_ok.1 h
  rw [mapError_ok_iff] at hbounds
  constructor
  · intro hnone
    rw [hnone, encode_eq_none hbounds] at h
    exact ⟨h.1, h.2.1⟩
  · intro hclear
    rw [encode_eq hbounds] at h
    split at h
    · cases h
    · obtain ⟨rfl, hclear⟩ := hclear
      rw [if_pos hclear] at h
      exact (Except.ok.inj h).symm

/-- The sprite of a region depicts rows that show what the region
shows. -/
theorem depicts_of_encode (h : r.checkBounds b = .ok ())
    (hencode : encode b r crop t empty = .ok (some image)) :
    ∃ rows, Depicts image t rows ∧ ∀ p q index,
      image.Shows rows.flatten t p q index ↔ r.Shows b t p q index := by
  rw [encode_eq h] at hencode
  cases hfits : (r.taken b t crop).fitsWords with
  | false => simp [hfits] at hencode
  | true =>
      by_cases hclear : r.IsClear b t
      · cases empty with
        | omitted => simp [hfits, hclear] at hencode
        | blank =>
            simp only [hfits, hclear, if_true, reduceCtorEq, if_false,
              Except.ok.injEq, Option.some.injEq] at hencode
            subst hencode
            have hdepicts := blankOf_depicts hclear
            exact ⟨r.rows b, hdepicts,
              fun p q index => hdepicts.shows_iff rfl rfl rfl rfl⟩
      · simp only [hfits, hclear, reduceCtorEq, if_false,
          Except.ok.injEq, Option.some.injEq] at hencode
        subst hencode
        refine ⟨_, ofTaken_depicts, fun p q index => ?_⟩
        -- cropping moved the offsets along with the pixels
        rw [ofTaken_depicts.shows_iff rfl rfl rfl rfl]
        exact (Region.taken_trims crop).shows_iff

end SpriteImage

end GamePack
