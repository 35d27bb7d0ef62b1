import GamePack.Proofs.Sprite.Drawing
import GamePack.Proofs.Words
import GamePack.Sprite.Preview

/-!
Previews painted pixel by pixel. A canvas is a picture of a size in words
whose pixels are set one at a time; a place that it does not have is
refused. Every pixel of a sprite is painted as a square of single dots,
with the places of the dots computed in words, each product and each sum
of which must fit.

What a loop paints is told by `Canvas.Paints`: an area, whose pixels come
from a target, and nothing else. A loop over steps that paint is one step
that paints all their areas (`Canvas.foldlM_paints`). The three loops are
that rule three times: a dot is a pixel, a square is the places that the
scale leads back to one pixel, and the squares of all pixels are the
whole canvas.
-/
namespace GamePack

/-- A picture whose pixels are set one by one. -/
structure Canvas where
  width : UInt32
  height : UInt32
  /-- The pixels, row after row. -/
  cells : Array Rgba
  size_eq : cells.size = width.toNat * height.toNat
  deriving DecidableEq

namespace Canvas

/-- A canvas of one colour. -/
def filled (colour : Rgba) (width height : UInt32) : Canvas where
  width := width
  height := height
  cells := Array.replicate (width.toNat * height.toNat) colour
  size_eq := Array.size_replicate

/-- The pixel in a column and a row, if the canvas has it. -/
def get? (c : Canvas) (x y : Nat) : Option Rgba :=
  if x < c.width.toNat then c.cells[y * c.width.toNat + x]? else none

/-- The canvas with another pixel at a place, which it must have. -/
def put (c : Canvas) (x y : UInt32) (colour : Rgba) :
    Except Error Canvas :=
  if x < c.width ∧ y < c.height then
    .ok { c with
      cells := c.cells.setIfInBounds
        (y.toNat * c.width.toNat + x.toNat) colour
      size_eq := by simp [c.size_eq] }
  else .error (.panic "pixel")

/-- The picture on a canvas. -/
def picture (c : Canvas) : Picture where
  width := c.width.toNat
  height := c.height.toNat
  rows := if c.width.toNat = 0 then [] else
    (List.range c.height.toNat).map fun y =>
      (List.range c.width.toNat).map fun x => (c.get? x y).getD default

/-- One dot of the square of a pixel. -/
def paintDot (scale x y : UInt32) (colour : Rgba) (dy : Nat)
    (c : Canvas) (dx : Nat) : Except Error Canvas := do
  let left ← mulWords "column" x scale
  let column ← addWords "column" left (UInt32.ofNat dx)
  let top ← mulWords "row" y scale
  let row ← addWords "row" top (UInt32.ofNat dy)
  c.put column row colour

/-- One row of the square of a pixel. -/
def paintStroke (scale x y : UInt32) (colour : Rgba) (c : Canvas)
    (dy : Nat) : Except Error Canvas :=
  (List.range scale.toNat).foldlM (paintDot scale x y colour dy) c

/-- The square of a pixel. -/
def paintSquare (scale x y : UInt32) (colour : Rgba) (c : Canvas) :
    Except Error Canvas :=
  (List.range scale.toNat).foldlM (paintStroke scale x y colour) c

/-- The square of the pixel with a number, counted through rows of a
width. The number becomes a word by its lowest bits. -/
def paintPixel (width scale : UInt32) (shade : UInt8 → Rgba) (c : Canvas)
    (pixel : UInt8 × Nat) : Except Error Canvas := do
  let x ← modWords "column" (UInt32.ofNat pixel.2) width
  let y ← divWords "row" (UInt32.ofNat pixel.2) width
  paintSquare scale x y (shade pixel.1) c

-- ============================================================== areas

variable {target : Nat → Nat → Rgba} {area area' : Nat → Nat → Prop}
  {c c' c'' : Canvas} {x y w h i : Nat} {scale : UInt32}

/-- A canvas has the pixels inside its size. -/
theorem get?_eq_some (hx : x < c.width.toNat) (hy : y < c.height.toNat) :
    ∃ colour, c.get? x y = some colour := by
  have hplace : y * c.width.toNat + x < c.cells.size := by
    rw [c.size_eq, Nat.mul_comm y, Nat.mul_comm c.width.toNat c.height.toNat]
    exact Nat.mul_add_lt_mul_of_lt_of_lt hy hx
  rw [get?, if_pos hx]
  exact ⟨_, Array.getElem?_eq_getElem hplace⟩

/-- A step from one canvas to another: the pixels of an area are those of
a target, and all others stay. -/
structure Paints (target : Nat → Nat → Rgba) (area : Nat → Nat → Prop)
    (c c' : Canvas) : Prop where
  width : c'.width = c.width
  height : c'.height = c.height
  drawn : ∀ x y, area x y → c'.get? x y = some (target x y)
  kept : ∀ x y, ¬ area x y → c'.get? x y = c.get? x y

theorem Paints.refl (c : Canvas) :
    Paints target (fun _ _ => False) c c :=
  ⟨rfl, rfl, fun _ _ h => h.elim, fun _ _ _ => rfl⟩

theorem Paints.trans (hab : Paints target area c c')
    (hbc : Paints target area' c' c'') :
    Paints target (fun x y => area x y ∨ area' x y) c c'' := by
  refine ⟨hbc.width.trans hab.width, hbc.height.trans hab.height, ?_, ?_⟩
  · intro x y hxy
    by_cases hlast : area' x y
    · exact hbc.drawn x y hlast
    · rw [hbc.kept x y hlast]
      exact hab.drawn x y (hxy.resolve_right hlast)
  · intro x y hxy
    rw [not_or] at hxy
    rw [hbc.kept x y hxy.2, hab.kept x y hxy.1]

/-- The area of a step can be told in other words. -/
theorem Paints.congr (hpaints : Paints target area c c')
    (harea : ∀ x y, area' x y ↔ area x y) : Paints target area' c c' := by
  obtain rfl : area' = area := funext₂ fun x y => propext (harea x y)
  exact hpaints

/-- A step that paints an area on every canvas of a size. -/
def PaintsOn (target : Nat → Nat → Rgba) (w h : Nat)
    (area : Nat → Nat → Prop)
    (step : Canvas → Except Error Canvas) : Prop :=
  ∀ c : Canvas, c.width.toNat = w → c.height.toNat = h →
    ∃ c', step c = .ok c' ∧ Paints target area c c'

/-- A loop over steps that paint paints the areas of all of them. -/
theorem foldlM_paints {α : Type}
    {step : Canvas → α → Except Error Canvas}
    {area : α → Nat → Nat → Prop} {l : List α}
    (hstep : ∀ a ∈ l, PaintsOn target w h (area a) (step · a)) :
    PaintsOn target w h (fun x y => ∃ a ∈ l, area a x y)
      (fun c => l.foldlM step c) := by
  induction l with
  | nil =>
      intro c _ _
      exact ⟨c, rfl, (Paints.refl c).congr fun x y => by simp⟩
  | cons a l ih =>
      intro c hwidth hheight
      obtain ⟨c₁, (hfirst : step c a = .ok c₁), hpaints⟩ :=
        hstep a List.mem_cons_self c hwidth hheight
      obtain ⟨c₂, hrest, hpaints'⟩ :=
        ih (fun b hb => hstep b (List.mem_cons_of_mem a hb)) c₁
          (by rw [hpaints.width, hwidth]) (by rw [hpaints.height, hheight])
      refine ⟨c₂, ?_, (hpaints.trans hpaints').congr fun x y => ?_⟩
      · show (a :: l).foldlM step c = _
        rw [List.foldlM_cons, hfirst, ok_bind]
        exact hrest
      · simp

-- ============================================================= places

/-- A dot of a pixel's square lies inside the scaled size. -/
theorem dot_lt {scale dx : Nat} (hx : x < w) (hdx : dx < scale) :
    x * scale + dx < w * scale := by
  rw [Nat.mul_comm x]
  exact Nat.mul_add_lt_mul_of_lt_of_lt hx hdx

/-- The dots of a pixel are the places that the scale leads back to it. -/
theorem exists_dot_iff {scale : Nat} (hscale : 0 < scale) (X : Nat) :
    (∃ dx < scale, X = x * scale + dx) ↔ X / scale = x := by
  constructor
  · rintro ⟨dx, hdx, rfl⟩
    rw [Nat.add_comm, Nat.add_mul_div_right _ _ hscale,
      Nat.div_eq_of_lt hdx, Nat.zero_add]
  · rintro rfl
    exact ⟨X % scale, Nat.mod_lt _ hscale,
      (Nat.div_add_mod' X scale).symm⟩

/-- Different pixels of a canvas have different places. -/
theorem place_inj {x y x' y' w : Nat} (hx : x < w) (hx' : x' < w)
    (h : y * w + x = y' * w + x') : x = x' ∧ y = y' := by
  have hw : 0 < w := Nat.zero_lt_of_lt hx
  have hrow : (y * w + x) / w = y :=
    (exists_dot_iff hw _).1 ⟨x, hx, rfl⟩
  have hrow' : (y' * w + x') / w = y' :=
    (exists_dot_iff hw _).1 ⟨x', hx', rfl⟩
  obtain rfl : y = y' := by rw [← hrow, h, hrow']
  exact ⟨Nat.add_left_cancel h, rfl⟩

/-- Setting a pixel that the canvas has paints this pixel. -/
theorem put_paints {x y : UInt32} {colour : Rgba}
    (hx : x.toNat < c.width.toNat) (hy : y.toNat < c.height.toNat)
    (hcolour : target x.toNat y.toNat = colour) :
    ∃ c', c.put x y colour = .ok c' ∧
      Paints target (fun X Y => X = x.toNat ∧ Y = y.toNat) c c' := by
  refine ⟨_, if_pos ⟨UInt32.lt_iff_toNat_lt.2 hx,
    UInt32.lt_iff_toNat_lt.2 hy⟩, rfl, rfl, ?_, ?_⟩
  · rintro X Y ⟨rfl, rfl⟩
    obtain ⟨old, hold⟩ := get?_eq_some hx hy
    rw [get?, if_pos hx, Array.getElem?_eq_some_iff] at hold
    rw [get?, if_pos hx, Array.getElem?_setIfInBounds_self_of_lt hold.1,
      hcolour]
  · intro X Y hXY
    unfold get?
    by_cases hX : X < c.width.toNat
    · rw [if_pos hX, if_pos hX, Array.getElem?_setIfInBounds_ne]
      intro hplace
      obtain ⟨hsameX, hsameY⟩ := place_inj hx hX hplace
      exact hXY ⟨hsameX.symm, hsameY.symm⟩
    · rw [if_neg hX, if_neg hX]

-- ============================================================== loops

variable {colour : Rgba} {pixelX pixelY width : UInt32} {dx dy : Nat}
  {pixels : Bytes} {shade : UInt8 → Rgba}

/-- A dot is painted without a failing step: its place is a word, since
the size of the canvas is one. -/
theorem paintDot_paints (hx : pixelX.toNat < w) (hy : pixelY.toNat < h)
    (hdx : dx < scale.toNat) (hdy : dy < scale.toNat)
    (hcolour : target (pixelX.toNat * scale.toNat + dx)
      (pixelY.toNat * scale.toNat + dy) = colour) :
    PaintsOn target (w * scale.toNat) (h * scale.toNat)
      (fun X Y => X = pixelX.toNat * scale.toNat + dx ∧
        Y = pixelY.toNat * scale.toNat + dy)
      (paintDot scale pixelX pixelY colour dy · dx) := by
  intro c hwidth hheight
  have hword := scale.toNat_lt
  have hright := dot_lt hx hdx
  have hbottom := dot_lt hy hdy
  have hwidthWord := c.width.toNat_lt
  have hheightWord := c.height.toNat_lt
  have hdxWord : (UInt32.ofNat dx).toNat = dx :=
    UInt32.toNat_ofNat_of_lt' (by unfold UInt32.size; omega)
  have hdyWord : (UInt32.ofNat dy).toNat = dy :=
    UInt32.toNat_ofNat_of_lt' (by unfold UInt32.size; omega)
  obtain ⟨left, hleft, hleftEq⟩ := mulWords_ok "column" (a := pixelX)
    (b := scale) (by omega)
  obtain ⟨column, hcolumn, hcolumnEq⟩ := addWords_ok "column" (a := left)
    (b := UInt32.ofNat dx) (by omega)
  obtain ⟨top, htop, htopEq⟩ := mulWords_ok "row" (a := pixelY)
    (b := scale) (by omega)
  obtain ⟨row, hrow, hrowEq⟩ := addWords_ok "row" (a := top)
    (b := UInt32.ofNat dy) (by omega)
  rw [hleftEq, hdxWord] at hcolumnEq
  rw [htopEq, hdyWord] at hrowEq
  have hput : ∃ c', c.put column row colour = .ok c' ∧ Paints target
      (fun X Y => X = column.toNat ∧ Y = row.toNat) c c' :=
    put_paints (by omega) (by omega) (by rw [hcolumnEq, hrowEq, hcolour])
  rw [hcolumnEq, hrowEq] at hput
  simp only [paintDot, hleft, ok_bind, hcolumn, htop, hrow]
  exact hput

/-- The target has one colour wherever the scale leads back to a
pixel. -/
def IsSquare (target : Nat → Nat → Rgba) (scale x y : Nat)
    (colour : Rgba) : Prop :=
  ∀ X Y, X / scale = x → Y / scale = y → target X Y = colour

/-- One row of the square of a pixel is painted, and nothing else. -/
theorem paintStroke_paints (hx : pixelX.toNat < w) (hy : pixelY.toNat < h)
    (hdy : dy < scale.toNat)
    (hcolour : IsSquare target scale.toNat pixelX.toNat pixelY.toNat
      colour) :
    PaintsOn target (w * scale.toNat) (h * scale.toNat)
      (fun X Y => X / scale.toNat = pixelX.toNat ∧
        Y = pixelY.toNat * scale.toNat + dy)
      (paintStroke scale pixelX pixelY colour · dy) := by
  have hscale : 0 < scale.toNat := Nat.zero_lt_of_lt hdy
  have hback : ∀ x dx, dx < scale.toNat →
      (x * scale.toNat + dx) / scale.toNat = x :=
    fun x dx hdx => (exists_dot_iff hscale _).1 ⟨dx, hdx, rfl⟩
  have hdots := foldlM_paints (l := List.range scale.toNat)
    fun dx hdx => paintDot_paints hx hy (List.mem_range.1 hdx) hdy
      (hcolour _ _ (hback _ dx (List.mem_range.1 hdx)) (hback _ dy hdy))
  intro c hwidth hheight
  obtain ⟨c', hc', hpaints⟩ := hdots c hwidth hheight
  refine ⟨c', hc', hpaints.congr fun X Y => ?_⟩
  rw [← exists_dot_iff hscale]
  simp only [List.mem_range, ← and_assoc, exists_and_right]

/-- The square of a pixel is painted, row by row, and nothing else. -/
theorem paintSquare_paints (hscale : 0 < scale.toNat)
    (hx : pixelX.toNat < w) (hy : pixelY.toNat < h)
    (hcolour : IsSquare target scale.toNat pixelX.toNat pixelY.toNat
      colour) :
    PaintsOn target (w * scale.toNat) (h * scale.toNat)
      (fun X Y => X / scale.toNat = pixelX.toNat ∧
        Y / scale.toNat = pixelY.toNat)
      (paintSquare scale pixelX pixelY colour) := by
  have hstrokes := foldlM_paints (l := List.range scale.toNat)
    fun dy hdy => paintStroke_paints hx hy (List.mem_range.1 hdy) hcolour
  intro c hwidth hheight
  obtain ⟨c', hc', hpaints⟩ := hstrokes c hwidth hheight
  refine ⟨c', hc', hpaints.congr fun X Y => ?_⟩
  rw [← exists_dot_iff hscale Y]
  constructor
  · rintro ⟨hX, dy, hdy, hY⟩
    exact ⟨dy, List.mem_range.2 hdy, hX, hY⟩
  · rintro ⟨dy, hdy, hX, hY⟩
    exact ⟨hX, dy, List.mem_range.1 hdy, hY⟩

/-- The pixel with a number is painted without a failing step: there are
pixels, so their width is not zero, and the number is a word. -/
theorem paintPixel_paints (hscale : 0 < scale.toNat)
    (hwidth : width.toNat = w) (hi : i < w * h)
    (hword : w * h < 0x100000000) {index : UInt8}
    (hcolour : IsSquare target scale.toNat (i % w) (i / w)
      (shade index)) :
    PaintsOn target (w * scale.toNat) (h * scale.toNat)
      (fun X Y => X / scale.toNat = i % w ∧ Y / scale.toNat = i / w)
      (paintPixel width scale shade · (index, i)) := by
  have hw : 0 < w := Nat.pos_of_ne_zero fun hzero => by simp [hzero] at hi
  have hiWord : (UInt32.ofNat i).toNat = i :=
    UInt32.toNat_ofNat_of_lt' (by unfold UInt32.size; omega)
  obtain ⟨x, hx, hxEq⟩ := modWords_ok "column" (UInt32.ofNat i)
    (b := width) (by omega)
  obtain ⟨y, hy, hyEq⟩ := divWords_ok "row" (UInt32.ofNat i)
    (b := width) (by omega)
  rw [hiWord, hwidth] at hxEq hyEq
  rw [← hxEq, ← hyEq] at hcolour ⊢
  intro c hcw hch
  simp only [paintPixel, hx, ok_bind, hy]
  exact paintSquare_paints hscale (by rw [hxEq]; exact Nat.mod_lt i hw)
    (by rw [hyEq]; exact Nat.div_lt_of_lt_mul hi) hcolour c hcw hch

/-- Painting all pixels of a row after row paints every place of the
canvas. -/
theorem foldlM_paintPixel_paints (hscale : 0 < scale.toNat)
    (hwidth : width.toNat = w) (hlength : pixels.length = w * h)
    (hword : w * h < 0x100000000)
    (hcolour : ∀ i index, pixels[i]? = some index →
      IsSquare target scale.toNat (i % w) (i / w) (shade index)) :
    PaintsOn target (w * scale.toNat) (h * scale.toNat)
      (fun X Y => X < w * scale.toNat ∧ Y < h * scale.toNat)
      (fun c => pixels.zipIdx.foldlM (paintPixel width scale shade) c) := by
  have hpixels : PaintsOn target (w * scale.toNat) (h * scale.toNat)
      (fun X Y => ∃ pixel ∈ pixels.zipIdx,
        X / scale.toNat = pixel.2 % w ∧ Y / scale.toNat = pixel.2 / w)
      (fun c => pixels.zipIdx.foldlM (paintPixel width scale shade) c) := by
    apply foldlM_paints
    rintro ⟨index, i⟩ hpixel
    rw [List.mem_zipIdx_iff_getElem?] at hpixel
    have hi := (List.getElem?_eq_some_iff.1 hpixel).1
    exact paintPixel_paints hscale hwidth (by omega) hword
      (hcolour i index hpixel)
  intro c hcw hch
  obtain ⟨c', hc', hpaints⟩ := hpixels c hcw hch
  refine ⟨c', hc', hpaints.congr fun X Y => ?_⟩
  rw [← Nat.div_lt_iff_lt_mul hscale, ← Nat.div_lt_iff_lt_mul hscale]
  constructor
  · rintro ⟨hX, hY⟩
    -- the pixel that the place is led back to
    have hplace : Y / scale.toNat * w + X / scale.toNat <
        pixels.length := by
      rw [hlength, Nat.mul_comm w]
      exact dot_lt hY hX
    refine ⟨(pixels[_], _), List.mem_zipIdx_iff_getElem?.2
      (List.getElem?_eq_getElem hplace), ?_, ?_⟩
    · exact (Nat.mul_add_mod_of_lt hX).symm
    · exact ((exists_dot_iff (Nat.zero_lt_of_lt hX) _).1
        ⟨_, hX, rfl⟩).symm
  · rintro ⟨⟨index, i⟩, hpixel, hX, hY⟩
    rw [List.mem_zipIdx_iff_getElem?] at hpixel
    have hi := (List.getElem?_eq_some_iff.1 hpixel).1
    have hw : 0 < w := Nat.pos_of_ne_zero fun hzero => by
      simp [hzero, hlength] at hi
    rw [hX, hY]
    exact ⟨Nat.mod_lt i hw, Nat.div_lt_of_lt_mul (hlength ▸ hi)⟩

end Canvas

end GamePack
