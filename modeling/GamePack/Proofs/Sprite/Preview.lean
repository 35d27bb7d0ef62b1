import GamePack.Command.Invocation
import GamePack.Proofs.Sprite.Canvas

/-!
What previews show. Painting a sprite on a canvas gives every pixel of
the canvas the look of the sprite's pixel that the scale leads back to,
whatever the canvas held before. Of its steps in words only the first two
can fail, those that make the size of the canvas: where they fit, all
later places do (`Canvas.foldlM_paintPixel_paints`). The preview that is
written is the picture on this canvas.
-/
namespace GamePack.SpriteImage

variable {image : SpriteImage} {payload : Bytes} {palette : Palette}
  {t : UInt8} {scale : Nat} {rows : List Bytes} {c : Canvas}

-- ============================================================= painting

/-- The preview of a sprite, painted on a canvas of one colour; a scale of
zero counts as one. -/
def paint (image : SpriteImage) (palette : Palette) (transparent : UInt8)
    (scale : UInt32) (fill : Rgba) : Except Error Canvas := do
  let scale := max scale 1
  let pixels ← (image.pixels transparent).mapError .read
  let width := UInt32.ofNat image.width
  let right ← mulWords "preview size" width scale
  let bottom ← mulWords "preview size" (UInt32.ofNat image.height) scale
  pixels.zipIdx.foldlM
    (Canvas.paintPixel width scale (shade palette transparent))
    (Canvas.filled fill right bottom)

/-- The sizes of a sprite that was read are words of two bytes, so they
are the same as words of four. -/
theorem IsReadable.sizes (h : image.IsReadable) :
    (image.width ≤ 0xffff ∧ image.height ≤ 0xffff) ∧
      (UInt32.ofNat image.width).toNat = image.width ∧
      (UInt32.ofNat image.height).toNat = image.height := by
  obtain ⟨hwidth, hheight, -, -⟩ := h.fits
  rw [Numeric.check_ok_iff] at hwidth hheight
  have hmax : Numeric.uint16.max = 0xffff := rfl
  have hsize : UInt32.size = 0x100000000 := rfl
  exact ⟨by omega, UInt32.toNat_ofNat_of_lt' (by omega),
    UInt32.toNat_ofNat_of_lt' (by omega)⟩

/-- The look of a pixel of rows, where there is one. -/
def lookAt (palette : Palette) (t : UInt8) (rows : List Bytes)
    (x y : Nat) : Option Rgba :=
  (rows[y]?.bind (·[x]?)).map (shade palette t)

/-- A canvas shows rows of pixels at a scale. -/
structure ShownOn (palette : Palette) (t : UInt8) (scale : Nat)
    (image : SpriteImage) (rows : List Bytes) (c : Canvas) : Prop where
  width : c.width.toNat = image.width * scale
  height : c.height.toNat = image.height * scale
  pixels : ∀ x y, x < image.width * scale → y < image.height * scale →
    c.get? x y = lookAt palette t rows (x / scale) (y / scale)

/-- A sprite has a pixel in each of its columns and rows. -/
theorem lookAt_eq_some (hheight : rows.length = image.height)
    (hwidth : ∀ row ∈ rows, row.length = image.width) {x y : Nat}
    (hx : x < image.width) (hy : y < image.height) (palette : Palette)
    (t : UInt8) :
    ∃ colour, lookAt palette t rows x y = some colour := by
  obtain ⟨row, hrow⟩ : ∃ row, rows[y]? = some row :=
    ⟨_, List.getElem?_eq_getElem (hheight ▸ hy)⟩
  have hlength := hwidth row (List.mem_of_getElem? hrow)
  obtain ⟨index, hindex⟩ : ∃ index, row[x]? = some index :=
    ⟨_, List.getElem?_eq_getElem (hlength ▸ hx)⟩
  exact ⟨shade palette t index, by simp [lookAt, hrow, hindex]⟩

/-- The look that a scale gives a place. -/
def lookThrough (palette : Palette) (t : UInt8) (rows : List Bytes)
    (scale x y : Nat) : Rgba :=
  (lookAt palette t rows (x / scale) (y / scale)).getD default

/-- What the scale leads back to the pixel with a number has the look of
this pixel. -/
theorem isSquare_lookThrough {i : Nat} {index : UInt8}
    (hwidth : ∀ row ∈ rows, row.length = image.width)
    (hindex : rows.flatten[i]? = some index) :
    Canvas.IsSquare (lookThrough palette t rows scale) scale
      (i % image.width) (i / image.width) (shade palette t index) := by
  have hi := (List.getElem?_eq_some_iff.1 hindex).1
  rw [length_flatten_of_width hwidth] at hi
  have hpos : 0 < image.width := Nat.pos_of_ne_zero fun hzero => by
    simp [hzero] at hi
  intro x y hx hy
  rw [← Nat.div_add_mod' i image.width,
    getElem?_flatten_of_width hwidth (Nat.mod_lt i hpos)] at hindex
  simp [lookThrough, lookAt, hx, hy, hindex]

/-- Where the sizes fit, no step of painting fails, and the canvas shows
the sprite, whatever it was filled with. -/
theorem exists_paint {scale : UInt32} (h : image.IsReadable)
    (hrows : image.pixelRows t = .ok rows)
    (hheight : rows.length = image.height)
    (hwidth : ∀ row ∈ rows, row.length = image.width)
    (hright : image.width * max scale.toNat 1 < 0x100000000)
    (hbottom : image.height * max scale.toNat 1 < 0x100000000)
    (palette : Palette) (fill : Rgba) :
    ∃ c, image.paint palette t scale fill = .ok c ∧
      ShownOn palette t (max scale.toNat 1) image rows c := by
  obtain ⟨⟨hwidthLe, hheightLe⟩, hwidthWord, hheightWord⟩ := h.sizes
  have hscale : (max scale 1).toNat = max scale.toNat 1 :=
    UInt32.toNat_max scale 1
  rw [← hscale] at hright hbottom ⊢
  have hpos : 0 < (max scale 1).toNat := by omega
  obtain ⟨right, hmulRight, hrightEq⟩ := mulWords_ok "preview size"
    (a := UInt32.ofNat image.width) (b := max scale 1)
    (by rw [hwidthWord]; exact hright)
  obtain ⟨bottom, hmulBottom, hbottomEq⟩ := mulWords_ok "preview size"
    (a := UInt32.ofNat image.height) (b := max scale 1)
    (by rw [hheightWord]; exact hbottom)
  rw [hwidthWord] at hrightEq
  rw [hheightWord] at hbottomEq
  have hcount : image.width * image.height < 0x100000000 :=
    Nat.lt_of_le_of_lt (Nat.mul_le_mul hwidthLe hheightLe) (by decide)
  have hlength : rows.flatten.length = image.width * image.height := by
    rw [length_flatten_of_width hwidth, hheight]
  obtain ⟨c, hc, hdrawn⟩ :=
    Canvas.foldlM_paintPixel_paints hpos hwidthWord hlength hcount
      (fun i index hindex => isSquare_lookThrough hwidth hindex)
      (Canvas.filled fill right bottom) hrightEq hbottomEq
  refine ⟨c, ?_, ?_, ?_, ?_⟩
  · simp only [paint, pixels, hrows, ok_bind, hmulRight, hmulBottom]
    exact hc
  · rw [hdrawn.width]
    exact hrightEq
  · rw [hdrawn.height]
    exact hbottomEq
  · intro x y hx hy
    rw [hdrawn.drawn x y ⟨hx, hy⟩]
    obtain ⟨colour, hcolour⟩ := lookAt_eq_some hheight hwidth
      ((Nat.div_lt_iff_lt_mul hpos).2 hx)
      ((Nat.div_lt_iff_lt_mul hpos).2 hy) palette t
    rw [lookThrough, hcolour]
    rfl

/-- Where one of the sizes does not fit, it is the step that panics. -/
theorem paint_of_panic {scale : UInt32} (h : image.IsReadable)
    (hover : 0x100000000 ≤ image.width * max scale.toNat 1 ∨
      0x100000000 ≤ image.height * max scale.toNat 1)
    (palette : Palette) (t : UInt8) (fill : Rgba) :
    image.paint palette t scale fill =
      .error (.panic "preview size") := by
  obtain ⟨-, hwidthWord, hheightWord⟩ := h.sizes
  obtain ⟨pixels, hpixels, -⟩ := h.exists_pixels t
  have hscale : (max scale 1).toNat = max scale.toNat 1 :=
    UInt32.toNat_max scale 1
  rw [← hscale] at hover
  by_cases hright : 0x100000000 ≤ image.width * (max scale 1).toNat
  · have hmul := mulWords_error "preview size"
      (a := UInt32.ofNat image.width) (b := max scale 1)
      (by rw [hwidthWord]; exact hright)
    simp only [paint, hpixels, hmul]
    rfl
  · obtain ⟨right, hmulRight, -⟩ := mulWords_ok "preview size"
      (a := UInt32.ofNat image.width) (b := max scale 1)
      (by rw [hwidthWord]; omega)
    have hmul := mulWords_error "preview size"
      (a := UInt32.ofNat image.height) (b := max scale 1)
      (by rw [hheightWord]; exact hover.resolve_left hright)
    simp only [paint, hpixels, hmulRight, hmul]
    rfl

-- ============================================================ stretching

/-- A stretched row shows each item as often as the scale says. -/
theorem getElem?_stretch {α : Type} (hscale : 0 < scale) (items : List α)
    (i : Nat) : (stretch scale items)[i]? = items[i / scale]? := by
  induction items generalizing i with
  | nil => simp [stretch]
  | cons item items ih =>
      rw [stretch, List.flatMap_cons]
      by_cases hi : i < scale
      · rw [List.getElem?_append_left (by simpa using hi),
          List.getElem?_replicate_of_lt hi, Nat.div_eq_of_lt hi]
        rfl
      · rw [List.getElem?_append_right (by simpa using hi),
          List.length_replicate]
        have hstep : i / scale = (i - scale) / scale + 1 :=
          Nat.div_eq_sub_div hscale (Nat.le_of_not_lt hi)
        rw [hstep]
        exact ih (i - scale)

/-- The picture on a canvas that shows a sprite is its preview. -/
theorem picture_of_shownOn (hscale : 0 < scale)
    (hheight : rows.length = image.height)
    (hwidth : ∀ row ∈ rows, row.length = image.width)
    (h : ShownOn palette t scale image rows c) :
    c.picture = {
      width := image.width * scale
      height := image.height * scale
      rows := if image.width = 0 then [] else
        stretch scale (rows.map fun row =>
          stretch scale (row.map (shade palette t))) } := by
  have hempty : (image.width * scale = 0) = (image.width = 0) := by
    simp [hscale.ne']
  simp only [Canvas.picture, h.width, h.height, hempty]
  congr 1
  refine ite_congr rfl (fun _ => rfl) fun _ => List.ext_getElem? fun y => ?_
  rw [getElem?_stretch hscale, List.getElem?_map, List.getElem?_map]
  by_cases hy : y < image.height * scale
  · have hrow : y / scale < rows.length := by
      rw [hheight]
      exact (Nat.div_lt_iff_lt_mul hscale).2 hy
    have hlength := hwidth _ (List.getElem_mem hrow)
    rw [List.getElem?_range hy, List.getElem?_eq_getElem hrow]
    refine congrArg some (List.ext_getElem? fun x => ?_)
    rw [getElem?_stretch hscale, List.getElem?_map, List.getElem?_map]
    by_cases hx : x < image.width * scale
    · have hpixel : x / scale < rows[y / scale].length := by
        rw [hlength]
        exact (Nat.div_lt_iff_lt_mul hscale).2 hx
      rw [List.getElem?_range hx, Option.map_some, h.pixels x y hx hy]
      simp [lookAt, hrow, hpixel]
    · have hpixel : rows[y / scale].length ≤ x / scale := by
        rw [hlength, Nat.le_div_iff_mul_le hscale]
        omega
      rw [List.getElem?_eq_none (by simpa using hx),
        List.getElem?_eq_none hpixel]
      rfl
  · have hrow : rows.length ≤ y / scale := by
      rw [hheight, Nat.le_div_iff_mul_le hscale]
      omega
    rw [List.getElem?_eq_none (by simpa using hy),
      List.getElem?_eq_none hrow]
    rfl

-- ============================================================== previews

/-- The preview is the picture that is painted, and fails where painting
does. -/
theorem render_eq (h : image.IsReadable) (palette : Palette) (t : UInt8)
    (scale : UInt32) (fill : Rgba) :
    image.render palette t scale.toNat =
      Canvas.picture <$> image.paint palette t scale fill := by
  obtain ⟨rows, hrows, hheight, hwidth⟩ := h.exists_rows t
  have hrender : image.render palette t scale.toNat =
      if 0x100000000 ≤ image.width * max scale.toNat 1 ∨
          0x100000000 ≤ image.height * max scale.toNat 1 then
        .error (.panic "preview size")
      else .ok {
        width := image.width * max scale.toNat 1
        height := image.height * max scale.toNat 1
        rows := if image.width = 0 then [] else
          stretch (max scale.toNat 1) (rows.map fun row =>
            stretch (max scale.toNat 1)
              (row.map (shade palette t))) } := by
    rw [render, hrows]
    rfl
  rw [hrender]
  by_cases hover : 0x100000000 ≤ image.width * max scale.toNat 1 ∨
      0x100000000 ≤ image.height * max scale.toNat 1
  · rw [if_pos hover, paint_of_panic h hover]
    rfl
  · rw [if_neg hover]
    rw [not_or, Nat.not_le, Nat.not_le] at hover
    obtain ⟨c, hc, hshown⟩ := exists_paint h hrows hheight hwidth hover.1
      hover.2 palette fill
    rw [hc, ← picture_of_shownOn (by omega) hheight hwidth hshown]
    rfl

/-- The preview of a sprite that was read from a payload, where its sizes
fit: painting gives a canvas of the scaled size, and each of its pixels
has the look of the sprite's pixel that the scale leads back to, fully
transparent or opaque in the colour of its index. What the canvas was
filled with is seen nowhere, no dot lies outside, and a sprite without
columns or rows gives a canvas without pixels. The preview is the picture
on this canvas. -/
theorem preview_shows (h : fromPayload payload = .ok image)
    (palette : Palette) (t : UInt8) (scale : UInt32) (fill : Rgba)
    (hright : image.width * max scale.toNat 1 < 0x100000000)
    (hbottom : image.height * max scale.toNat 1 < 0x100000000) :
    ∃ pixels c, image.pixels t = .ok pixels ∧
      image.paint palette t scale fill = .ok c ∧
      image.render palette t scale.toNat = .ok c.picture ∧
      c.width.toNat = image.width * max scale.toNat 1 ∧
      c.height.toNat = image.height * max scale.toNat 1 ∧
      ∀ x y, x < c.width.toNat → y < c.height.toNat →
        ∃ index, pixels[y / max scale.toNat 1 * image.width +
            x / max scale.toNat 1]? = some index ∧
          c.get? x y = some (if index = t then ⟨0, 0, 0, 0⟩ else
            let colour := palette[index.toNat]?.getD ⟨255, 0, 255⟩
            ⟨colour.red, colour.green, colour.blue, 255⟩) := by
  have hreadable := isReadable_of_fromPayload h
  obtain ⟨rows, hrows, hheight, hwidth⟩ := hreadable.exists_rows t
  obtain ⟨c, hc, hshown⟩ := exists_paint hreadable hrows hheight hwidth
    hright hbottom palette fill
  have hscale : 0 < max scale.toNat 1 := by omega
  refine ⟨rows.flatten, c, by rw [pixels, hrows]; rfl, hc,
    by rw [render_eq hreadable palette t scale fill, hc]; rfl,
    hshown.width, hshown.height, ?_⟩
  intro x y hx hy
  rw [hshown.width] at hx
  rw [hshown.height] at hy
  have hcolumn := (Nat.div_lt_iff_lt_mul hscale).2 hx
  have hrow := (Nat.div_lt_iff_lt_mul hscale).2 hy
  obtain ⟨colour, hcolour⟩ :=
    lookAt_eq_some hheight hwidth hcolumn hrow palette t
  have hget := hshown.pixels x y hx hy
  rw [hcolour] at hget
  rw [lookAt, Option.map_eq_some_iff] at hcolour
  obtain ⟨index, hindex, rfl⟩ := hcolour
  exact ⟨index, by rw [getElem?_flatten_of_width hwidth hcolumn, hindex],
    hget⟩

/-- A sprite with two pixels, and its payload. -/
def spotted : SpriteImage :=
  ⟨3, 2, 0, 0, [some [129, 1, 3], some [128, 1, 7]]⟩

def spottedPayload : Bytes :=
  [3, 0, 2, 0, 0, 0, 0, 0, 8, 0, 0, 0, 11, 0, 0, 0,
    129, 1, 3, 128, 1, 7]

/-- Colours for one of them. -/
def fewColours : Palette :=
  [⟨0, 0, 0⟩, ⟨1, 1, 1⟩, ⟨2, 2, 2⟩, ⟨10, 20, 30⟩]

/-- Three pixels at scale two: one with a colour of the palette, a
transparent one, and one whose index the palette does not have. -/
theorem preview_shows_spotted :
    fromPayload spottedPayload = .ok spotted ∧
      spotted.width * max (2 : UInt32).toNat 1 < 0x100000000 ∧
      spotted.height * max (2 : UInt32).toNat 1 < 0x100000000 ∧
      ∃ c, spotted.paint fewColours 0 2 ⟨9, 9, 9, 9⟩ = .ok c ∧
        c.width.toNat = 6 ∧ c.height.toNat = 4 ∧
        c.get? 3 1 = some ⟨10, 20, 30, 255⟩ ∧
        c.get? 4 0 = some ⟨0, 0, 0, 0⟩ ∧
        c.get? 0 3 = some ⟨255, 0, 255, 255⟩ := by
  have h : fromPayload spottedPayload = .ok spotted := by decide +kernel
  have hright : spotted.width * max (2 : UInt32).toNat 1 <
      0x100000000 := by decide
  have hbottom : spotted.height * max (2 : UInt32).toNat 1 <
      0x100000000 := by decide
  have hread : spotted.pixels 0 = .ok [0, 3, 0, 7, 0, 0] := by
    decide +kernel
  obtain ⟨pixels, c, hpixels, hc, -, hwidth, hheight, hshown⟩ :=
    preview_shows h fewColours 0 2 ⟨9, 9, 9, 9⟩ hright hbottom
  obtain rfl := Except.ok.inj (hpixels.symm.trans hread)
  have hwidth : c.width.toNat = 6 := hwidth
  have hheight : c.height.toNat = 4 := hheight
  have hlook : ∀ x y index, x < 6 → y < 4 →
      [0, 3, 0, 7, 0, 0][y / 2 * 3 + x / 2]? = some index →
      c.get? x y = some (shade fewColours 0 index) := by
    intro x y index hx hy hindex
    obtain ⟨shown, hplace, hcolour⟩ :=
      hshown x y (hwidth ▸ hx) (hheight ▸ hy)
    obtain rfl := Option.some.inj (hplace.symm.trans hindex)
    exact hcolour
  exact ⟨h, hright, hbottom, c, hc, hwidth, hheight,
    hlook 3 1 3 (by decide) (by decide) rfl,
    hlook 4 0 0 (by decide) (by decide) rfl,
    hlook 0 3 7 (by decide) (by decide) rfl⟩

/-- A sprite of two transparent pixels, and its payload. -/
def pair : SpriteImage := ⟨2, 1, 0, 0, [none]⟩

end GamePack.SpriteImage
