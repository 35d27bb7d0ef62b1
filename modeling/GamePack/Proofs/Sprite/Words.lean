import GamePack.Binding
import GamePack.Proofs.Container.Cursor
import GamePack.Proofs.Sprite.Edges
import GamePack.Proofs.Sprite.Payload
import GamePack.Proofs.Words

/-!
Cropping in machine words. A `WordRegion` has every number of a region in
the word it has on the machine, and is cropped edge by edge. Each of these
steps fails when its exact result does not fit its word, a pixel or a
range of pixels that the bitmap does not have fails too, and so does a
loop that goes on for longer than there are columns and rows.

In a bitmap whose sizes are words, of all these steps only one can fail:
the offset that goes up. It does so exactly where the offset of what is
left does not fit a signed word. That a step in words is the step in
numbers (`WordRegion.map_stepOn`) carries it: the loops then agree by
`map_takeSteps`, and the rows are cut out where the region lies.
-/
namespace GamePack

-- ==================================================== pixels by places

/-- A bitmap whose sizes are words. -/
def Bitmap.FitsWords (b : Bitmap) : Prop :=
  b.width < 0x100000000 ∧ b.height < 0x100000000

/-- The index at a place of the pixels, which must be one of them. -/
def Bitmap.pixelAt (b : Bitmap) (x y : Nat) : Except Error UInt8 :=
  match b.pixels[y * b.width + x]? with
  | some index => .ok index
  | none => .error (.panic "pixel")

/-- The bytes from one place to another, which must be such. -/
def sliceOf (bytes : Bytes) (start stop : Nat) : Except Error Bytes :=
  match Cursor.slice? bytes start stop with
  | some slice => .ok slice
  | none => .error (.panic "slice")

/-- One row of a bitmap, cut out of its pixels. -/
def Bitmap.rowAt (b : Bitmap) (y : Nat) : Except Error Bytes :=
  sliceOf b.pixels.toList (y * b.width) (y * b.width + b.width)

/-- The places from a word on, as many as a size says, of which the end
must be a word. -/
def span (step : String) (start size : UInt32) :
    Except Error (List Nat) := do
  let stop ← addWords step start size
  return List.range' start.toNat (stop.toNat - start.toNat)

/-- A pixel inside the bitmap has a place among its pixels. -/
theorem Bitmap.place_lt {b : Bitmap} {x y : Nat} (hx : x < b.width)
    (hy : y < b.height) : y * b.width + x < b.pixels.size := by
  rw [b.size_eq, Nat.mul_comm y, Nat.mul_comm b.width b.height]
  exact Nat.mul_add_lt_mul_of_lt_of_lt hy hx

/-- Reading a pixel inside the bitmap does not fail. -/
theorem Bitmap.pixelAt_eq {b : Bitmap} {x y : Nat} (hx : x < b.width)
    (hy : y < b.height) : b.pixelAt x y = .ok (b.get x y) := by
  unfold pixelAt get
  rw [Array.getElem?_eq_getElem (place_lt hx hy)]
  rfl

/-- A span whose end is a word is the numbers from its start on. -/
theorem span_ok (step : String) {start size : UInt32}
    (h : start.toNat + size.toNat < 0x100000000) :
    span step start size = .ok (List.range' start.toNat size.toNat) := by
  obtain ⟨stop, hstop, hsum⟩ := addWords_ok step h
  unfold span
  rw [hstop, ok_bind, hsum, Nat.add_sub_cancel_left]
  rfl

namespace Sprite

-- ==================================================== regions of words

/-- A region with every number in the word that it has on the machine. -/
structure WordRegion where
  x : UInt32
  y : UInt32
  width : UInt32
  height : UInt32
  xOffset : Int32
  yOffset : Int32
  deriving DecidableEq

namespace WordRegion

/-- The region that the words stand for. -/
def toRegion (w : WordRegion) : Region where
  x := w.x.toNat
  y := w.y.toNat
  width := w.width.toNat
  height := w.height.toNat
  xOffset := w.xOffset.toInt
  yOffset := w.yOffset.toInt

/-- Whether a region has no pixels. -/
def isEmpty (w : WordRegion) : Bool := w.width == 0 || w.height == 0

/-- Whether a column of the region is transparent throughout. -/
def columnClear (w : WordRegion) (b : Bitmap) (t : UInt8) (x : UInt32) :
    Except Error Bool := do
  (← span "bottom edge" w.y w.height).allM fun y => do
    return (← b.pixelAt x.toNat y) == t

/-- Whether a row of the region is transparent throughout. -/
def rowClear (w : WordRegion) (b : Bitmap) (t : UInt8) (y : UInt32) :
    Except Error Bool := do
  (← span "right edge" w.x w.width).allM fun x => do
    return (← b.pixelAt x y.toNat) == t

/-- Whether the outermost column or row on an edge is transparent. -/
def clearOn (w : WordRegion) (b : Bitmap) (t : UInt8) :
    Edge → Except Error Bool
  | .left => w.columnClear b t w.x
  | .top => w.rowClear b t w.y
  | .right => do
    let stop ← addWords "right edge" w.x w.width
    w.columnClear b t (← subWords "right column" stop 1)
  | .bottom => do
    let stop ← addWords "bottom edge" w.y w.height
    w.rowClear b t (← subWords "bottom row" stop 1)

/-- The region without its outermost column or row on an edge. -/
def dropOn (w : WordRegion) : Edge → Except Error WordRegion
  | .left => do
    let x ← addWords "left column" w.x 1
    let width ← subWords "width" w.width 1
    let xOffset ← addSigned "sprite offset" w.xOffset 1
    return { w with x, width, xOffset }
  | .top => do
    let y ← addWords "top row" w.y 1
    let height ← subWords "height" w.height 1
    let yOffset ← addSigned "sprite offset" w.yOffset 1
    return { w with y, height, yOffset }
  | .right => do
    return { w with width := ← subWords "width" w.width 1 }
  | .bottom => do
    return { w with height := ← subWords "height" w.height 1 }

/-- One step of cropping an edge. -/
def stepOn (w : WordRegion) (b : Bitmap) (t : UInt8) (e : Edge) :
    Except Error (Option WordRegion) := do
  if w.isEmpty then return none
  if ← w.clearOn b t e then return some (← w.dropOn e)
  return none

/-- The region without its transparent columns or rows on an edge. -/
def cropOn (w : WordRegion) (b : Bitmap) (t : UInt8) (e : Edge) :
    Except Error WordRegion :=
  takeSteps (stepOn · b t e) (w.width.toNat + w.height.toNat + 1) w

/-- The region without its transparent edges. -/
def crop (w : WordRegion) (b : Bitmap) (t : UInt8) :
    Except Error WordRegion :=
  Edge.all.foldlM (fun w e => w.cropOn b t e) w

/-- The rows of a region, each cut out of its row of the bitmap. -/
def rows (w : WordRegion) (b : Bitmap) : Except Error (List Bytes) := do
  (← span "bottom edge" w.y w.height).mapM fun y => do
    let row ← b.rowAt y
    let stop ← addWords "right edge" w.x w.width
    sliceOf row w.x.toNat stop.toNat

/-- The part of a region that is encoded. -/
def taken (w : WordRegion) (b : Bitmap) (t : UInt8) (crop : Bool) :
    Except Error WordRegion :=
  if crop then w.crop b t else .ok w

/-- The sprite of a region, cropped first when asked for. -/
def encode (w : WordRegion) (b : Bitmap) (crop : Bool) (t : UInt8)
    (empty : EmptySprite) : Except Error (Option SpriteImage) := do
  (w.toRegion.checkBounds b).mapError .value
  let taken ← w.taken b t crop
  let lines := (← taken.rows b).map (SpriteImage.encodeRow t)
  if lines.all Option.isNone then
    match empty with
    | .omitted => return none
    | .blank =>
      return some ⟨w.width.toNat, w.height.toNat, w.xOffset.toInt,
        w.yOffset.toInt, List.replicate w.height.toNat none⟩
  else
    return some ⟨taken.width.toNat, taken.height.toNat,
      taken.xOffset.toInt, taken.yOffset.toInt, lines⟩

-- ============================================ steps in words, in numbers

variable {b : Bitmap} {t : UInt8} {w : WordRegion}

/-- The offsets of a region of words fit their words. -/
theorem fitsWords_toRegion (w : WordRegion) :
    w.toRegion.fitsWords = true := by
  rw [Region.fitsWords_iff]
  exact ⟨⟨w.xOffset.le_toInt, w.xOffset.toInt_lt⟩, w.yOffset.le_toInt,
    w.yOffset.toInt_lt⟩

/-- A region of words is empty when it is as a region of numbers. -/
theorem isEmpty_toRegion (w : WordRegion) :
    w.toRegion.isEmpty = w.isEmpty := by
  have hzero : ∀ a : UInt32, (a.toNat == 0) = (a == 0) := by
    intro a
    rw [Bool.eq_iff_iff, beq_iff_eq, beq_iff_eq, UInt32.ext_iff]
    exact Iff.rfl
  simp only [Region.isEmpty, isEmpty, toRegion, hzero]

/-- A region of words that is not empty has a column and a row. -/
theorem sizes_ne_zero (hne : w.toRegion.isEmpty = false) :
    w.width.toNat ≠ 0 ∧ w.height.toNat ≠ 0 := by
  simpa only [Region.isEmpty, toRegion, Bool.or_eq_false_iff,
    beq_eq_false_iff_ne] using hne

/-- The bounds of a region inside a bitmap whose sizes are words. -/
theorem bounds_of_isInside (hb : b.FitsWords)
    (h : w.toRegion.isInside b = true) :
    (w.x.toNat + w.width.toNat ≤ b.width ∧
      w.y.toNat + w.height.toNat ≤ b.height) ∧
      w.x.toNat + w.width.toNat < 0x100000000 ∧
        w.y.toNat + w.height.toNat < 0x100000000 := by
  obtain ⟨hwidth, hheight⟩ := hb
  simp only [Region.isInside, Bool.and_eq_true, decide_eq_true_eq] at h
  dsimp only [toRegion] at h
  omega

/-- Inside the bitmap the test of a column does not fail and is the one
in numbers. -/
theorem columnClear_eq (hb : b.FitsWords)
    (h : w.toRegion.isInside b = true) {x : UInt32}
    (hx : x.toNat < b.width) :
    w.columnClear b t x = .ok (w.toRegion.columnClear b t x.toNat) := by
  obtain ⟨⟨-, hbottom⟩, -, hheight⟩ := bounds_of_isInside hb h
  unfold columnClear
  rw [span_ok _ hheight, ok_bind]
  apply allM_ok
  intro y hy
  rw [List.mem_range'_1] at hy
  rw [Bitmap.pixelAt_eq hx (by omega)]
  rfl

/-- Inside the bitmap the test of a row does not fail and is the one in
numbers. -/
theorem rowClear_eq (hb : b.FitsWords)
    (h : w.toRegion.isInside b = true) {y : UInt32}
    (hy : y.toNat < b.height) :
    w.rowClear b t y = .ok (w.toRegion.rowClear b t y.toNat) := by
  obtain ⟨⟨hright, -⟩, hwidth, -⟩ := bounds_of_isInside hb h
  unfold rowClear
  rw [span_ok _ hwidth, ok_bind]
  apply allM_ok
  intro x hx
  rw [List.mem_range'_1] at hx
  rw [Bitmap.pixelAt_eq (by omega) hy]
  rfl

/-- Whether an edge is transparent is found out without a failing step. -/
theorem clearOn_eq (hb : b.FitsWords) (h : w.toRegion.isInside b = true)
    (hne : w.toRegion.isEmpty = false) (e : Edge) :
    w.clearOn b t e = .ok (e.isClear w.toRegion b t) := by
  obtain ⟨⟨hright, hbottom⟩, hwidth, hheight⟩ := bounds_of_isInside hb h
  have hone : (1 : UInt32).toNat = 1 := rfl
  have hsizes := sizes_ne_zero hne
  cases e with
  | left => exact columnClear_eq hb h (by omega)
  | top => exact rowClear_eq hb h (by omega)
  | right =>
      obtain ⟨stop, hstop, hsum⟩ := addWords_ok "right edge" hwidth
      obtain ⟨last, hlast, hdiff⟩ := subWords_ok "right column"
        (a := stop) (b := 1) (by omega)
      rw [clearOn, hstop, ok_bind, hlast, ok_bind,
        columnClear_eq hb h (by omega), hdiff, hsum]
      rfl
  | bottom =>
      obtain ⟨stop, hstop, hsum⟩ := addWords_ok "bottom edge" hheight
      obtain ⟨last, hlast, hdiff⟩ := subWords_ok "bottom row"
        (a := stop) (b := 1) (by omega)
      rw [clearOn, hstop, ok_bind, hlast, ok_bind,
        rowClear_eq hb h (by omega), hdiff, hsum]
      rfl

/-- An offset goes up by one, unless that does not fit. -/
theorem addSigned_one (a : Int32) :
    (∃ c, addSigned "sprite offset" a 1 = .ok c ∧
        c.toInt = a.toInt + 1 ∧
        Region.fitsWord (a.toInt + 1) = true) ∨
      addSigned "sprite offset" a 1 =
          .error (.panic "sprite offset") ∧
        Region.fitsWord (a.toInt + 1) = false := by
  have hone : (1 : Int32).toInt = 1 := rfl
  cases hfits : Region.fitsWord (a.toInt + 1) with
  | true =>
      obtain ⟨c, hc, hsum⟩ := addSigned_ok "sprite offset" (a := a) (b := 1)
        (by rw [hone, hfits])
      exact .inl ⟨c, hc, by rw [hsum, hone], rfl⟩
  | false =>
      refine .inr ⟨if_neg ?_, rfl⟩
      rw [hone, hfits]
      exact Bool.false_ne_true

/-- Taking a line off an edge fails exactly where the offset does not
fit. -/
theorem map_dropOn (hb : b.FitsWords) (h : w.toRegion.isInside b = true)
    (hne : w.toRegion.isEmpty = false) (e : Edge) :
    toRegion <$> w.dropOn e = (e.drop 1 w.toRegion).withinWords := by
  obtain ⟨-, hwidth, hheight⟩ := bounds_of_isInside hb h
  have hone : (1 : UInt32).toNat = 1 := rfl
  have hsizes := sizes_ne_zero hne
  have hfits := fitsWords_toRegion w
  simp only [Region.fitsWords, Bool.and_eq_true, toRegion] at hfits
  obtain ⟨x, hx, hxSum⟩ := addWords_ok "left column" (a := w.x) (b := 1)
    (by omega)
  obtain ⟨y, hy, hySum⟩ := addWords_ok "top row" (a := w.y) (b := 1)
    (by omega)
  obtain ⟨width, hw, hwDiff⟩ := subWords_ok "width" (a := w.width)
    (b := 1) (by omega)
  obtain ⟨height, hh, hhDiff⟩ := subWords_ok "height" (a := w.height)
    (b := 1) (by omega)
  rw [hone] at hxSum hySum hwDiff hhDiff
  cases e with
  | left =>
      rw [dropOn, hx, ok_bind, hw, ok_bind]
      rcases addSigned_one w.xOffset with ⟨c, hc, hsum, hc1⟩ | ⟨hc, hc1⟩
      · rw [hc, ok_bind]
        simp [Edge.drop, toRegion, Region.withinWords, Region.fitsWords,
          hc1, hfits, hxSum, hwDiff, hsum]
      · rw [hc]
        simp [Edge.drop, toRegion, Region.withinWords, Region.fitsWords,
          hc1]
  | top =>
      rw [dropOn, hy, ok_bind, hh, ok_bind]
      rcases addSigned_one w.yOffset with ⟨c, hc, hsum, hc1⟩ | ⟨hc, hc1⟩
      · rw [hc, ok_bind]
        simp [Edge.drop, toRegion, Region.withinWords, Region.fitsWords,
          hc1, hfits, hySum, hhDiff, hsum]
      · rw [hc]
        simp [Edge.drop, toRegion, Region.withinWords, Region.fitsWords,
          hc1]
  | right =>
      rw [dropOn, hw, ok_bind]
      simp [Edge.drop, toRegion, Region.withinWords, Region.fitsWords,
        hfits, hwDiff]
  | bottom =>
      rw [dropOn, hh, ok_bind]
      simp [Edge.drop, toRegion, Region.withinWords, Region.fitsWords,
        hfits, hhDiff]

/-- A step in words is the step in numbers. -/
theorem map_stepOn (hb : b.FitsWords) (h : w.toRegion.isInside b = true)
    (e : Edge) :
    Option.map toRegion <$> w.stepOn b t e = e.step b t w.toRegion := by
  unfold stepOn Edge.step
  rw [isEmpty_toRegion]
  cases hempty : w.isEmpty with
  | true => rfl
  | false =>
      have hne : w.toRegion.isEmpty = false := by
        rw [isEmpty_toRegion, hempty]
      rw [clearOn_eq hb h hne, ok_bind]
      cases e.isClear w.toRegion b t with
      | false => rfl
      | true =>
          simp only [if_true, Bool.false_eq_true, if_false]
          rw [← map_dropOn hb h hne e]
          cases w.dropOn e <;> rfl

/-- A step on an edge stays inside the bitmap. -/
theorem isInside_of_stepOn (hb : b.FitsWords)
    (h : w.toRegion.isInside b = true) {e : Edge} {next : WordRegion}
    (hnext : w.stepOn b t e = .ok (some next)) :
    next.toRegion.isInside b = true := by
  have hstep := map_stepOn (t := t) hb h e
  rw [hnext] at hstep
  obtain ⟨hne, hdrop⟩ := Edge.eq_of_step hstep.symm
  rw [hdrop]
  exact e.isInside_drop hne h

/-- Cropping an edge in words crops it, and fails exactly where an offset
of what is left does not fit. -/
theorem map_cropOn (hb : b.FitsWords) (h : w.toRegion.isInside b = true)
    (e : Edge) :
    toRegion <$> w.cropOn b t e = (e.crop w.toRegion b t).withinWords := by
  rw [cropOn, map_takeSteps (p := fun w => w.toRegion.isInside b = true)
    (fun w h => map_stepOn hb h e)
    (fun w next h => isInside_of_stepOn hb h) _ h]
  exact e.takeSteps_step (fitsWords_toRegion w) (Nat.lt_succ_self _)

/-- Cropping edges in words crops them, and fails exactly where an offset
of what is left in the end does not fit. -/
theorem map_foldlM_cropOn (hb : b.FitsWords)
    (h : w.toRegion.isInside b = true) (es : List Edge) :
    toRegion <$> es.foldlM (fun w e => w.cropOn b t e) w =
      (es.foldl (fun r e => e.crop r b t) w.toRegion).withinWords := by
  induction es generalizing w with
  | nil => exact (Region.withinWords_of_fits (fitsWords_toRegion w)).symm
  | cons e es ih =>
      have hcrop := map_cropOn (t := t) hb h e
      rw [List.foldlM_cons, List.foldl_cons]
      cases hfits : (e.crop w.toRegion b t).fitsWords with
      | true =>
          rw [Region.withinWords_of_fits hfits] at hcrop
          obtain ⟨next, hnext, heq⟩ := map_eq_ok.1 hcrop
          rw [hnext, ok_bind, ← heq]
          exact ih (by rw [heq]; exact e.crop_trims.isInside h)
      | false =>
          rw [Region.withinWords_of_not_fits hfits] at hcrop
          rw [map_eq_error.1 hcrop]
          -- what an edge has moved up too far, no later edge moves down
          have hrest : (es.foldl (fun r e => e.crop r b t)
              (e.crop w.toRegion b t)).fitsWords = false := by
            rw [Bool.eq_false_iff]
            intro hrest
            have htrims := e.crop_trims (b := b) (t := t)
              (r := w.toRegion)
            have hleft := htrims.left
            have htop := htrims.top
            have hx := htrims.xOffset
            have hy := htrims.yOffset
            have hwords := fitsWords_toRegion w
            rw [Region.fitsWords_iff] at hwords
            rw [(Edge.foldl_crop_trims es _).fitsWords (by omega)
              (by omega) hrest] at hfits
            cases hfits
          rw [Region.withinWords_of_not_fits hrest]
          rfl

/-- Cropping in words is cropping, unless an offset of what is left does
not fit. -/
theorem map_crop (hb : b.FitsWords) (h : w.toRegion.isInside b = true) :
    toRegion <$> w.crop b t = (w.toRegion.crop b t).withinWords := by
  have hfold := map_foldlM_cropOn (t := t) hb h Edge.all
  rwa [Edge.foldl_crop] at hfold

-- ======================================================= rows in words

/-- A row of a bitmap lies in its pixels. -/
theorem rowAt_ok {y : Nat} (hy : y < b.height) :
    b.rowAt y = .ok (b.row y) := by
  have hrows : (y + 1) * b.width ≤ b.height * b.width :=
    Nat.mul_le_mul_right _ hy
  rw [Nat.succ_mul, Nat.mul_comm b.height, ← b.size_eq] at hrows
  unfold Bitmap.rowAt sliceOf
  rw [Cursor.slice?_of_le hrows]
  refine congrArg Except.ok (List.ext_getElem? fun x => ?_)
  unfold Bitmap.row
  by_cases hx : x < b.width
  · have hplace := Bitmap.place_lt hx hy
    rw [List.getElem?_take_of_lt hx, List.getElem?_drop,
      List.getElem?_map, List.getElem?_range hx]
    simp [Bitmap.get, hplace]
  · rw [List.getElem?_eq_none (by simp; omega),
      List.getElem?_eq_none (by simp; omega)]

/-- The part of a row that belongs to a region lies in the row. -/
theorem sliceOf_row {r : Region} {y : Nat}
    (hx : r.x + r.width ≤ b.width) :
    sliceOf (b.row y) r.x (r.x + r.width) = .ok (r.rowOf b y) := by
  unfold sliceOf
  rw [Cursor.slice?_of_le (by simpa [Bitmap.row] using hx)]
  refine congrArg Except.ok (List.ext_getElem? fun i => ?_)
  unfold Region.rowOf Bitmap.row
  by_cases hi : i < r.width
  · rw [List.getElem?_take_of_lt hi, List.getElem?_drop,
      List.getElem?_map, List.getElem?_range (by omega),
      List.getElem?_map, List.getElem?_range' hi, Nat.one_mul]
  · rw [List.getElem?_eq_none (by simp; omega),
      List.getElem?_eq_none (by simp; omega)]

/-- The rows of a region in a bitmap are cut out without a failing
step. -/
theorem rows_ok (hb : b.FitsWords) (h : w.toRegion.isInside b = true) :
    w.rows b = .ok (w.toRegion.rows b) := by
  obtain ⟨⟨hright, hbottom⟩, hwidth, hheight⟩ := bounds_of_isInside hb h
  unfold rows
  rw [span_ok _ hheight, ok_bind]
  unfold Region.rows
  rw [mapM_eq_ok, List.forall₂_map_right_iff]
  refine List.forall₂_same.2 fun y hy => ?_
  have hbelow := (List.mem_range'_1.1 hy).2
  obtain ⟨stop, hstop, hsum⟩ := addWords_ok "right edge" hwidth
  rw [rowAt_ok (by omega), ok_bind, hstop, ok_bind, hsum]
  exact sliceOf_row (r := w.toRegion) hright

/-- What is taken of a region of words is what is taken in numbers, or a
panic where an offset is no word. -/
theorem map_taken (hb : b.FitsWords) (h : w.toRegion.isInside b = true)
    (crop : Bool) :
    toRegion <$> w.taken b t crop =
      (w.toRegion.taken b t crop).withinWords := by
  cases crop with
  | true => exact map_crop hb h
  | false => exact (Region.withinWords_of_fits (fitsWords_toRegion w)).symm

/-- Encoding in words is encoding. -/
theorem encode_words_eq (hb : b.FitsWords)
    (h : w.toRegion.checkBounds b = .ok ()) (crop : Bool)
    (empty : EmptySprite) :
    w.encode b crop t empty =
      SpriteImage.encode b w.toRegion crop t empty := by
  have hinside := Region.checkBounds_ok_iff.1 h
  have htaken := map_taken (t := t) hb hinside crop
  unfold encode SpriteImage.encode
  rw [h, mapError_ok, ok_bind, ok_bind]
  -- the encoder of numbers looks at the offsets of what is taken first
  show _ = (if (!(w.toRegion.taken b t crop).fitsWords) = true then _
    else _)
  cases hfits : (w.toRegion.taken b t crop).fitsWords with
  | false =>
      rw [Region.withinWords_of_not_fits hfits] at htaken
      rw [map_eq_error.1 htaken]
      rfl
  | true =>
      rw [Region.withinWords_of_fits hfits] at htaken
      obtain ⟨taken, htaken, heq⟩ := map_eq_ok.1 htaken
      have hrows := rows_ok hb (w := taken) (by
        rw [heq]
        exact (Region.taken_trims crop).isInside hinside)
      rw [htaken, ok_bind, hrows, ok_bind, ← SpriteImage.encodeRows_eq]
      unfold Region.taken at heq
      rw [← heq]
      rfl

/-- What is left of a region has offsets that fit exactly when the offsets
of the region have room for the columns and rows that are taken off. -/
theorem fitsWords_crop_iff :
    (w.toRegion.crop b t).fitsWords = true ↔
      w.xOffset.toInt + (w.toRegion.crop b t).x <
          0x80000000 + (w.x.toNat : Int) ∧
        w.yOffset.toInt + (w.toRegion.crop b t).y <
          0x80000000 + (w.y.toNat : Int) := by
  have hwords := fitsWords_toRegion w
  have htrims := Region.crop_trims (b := b) (t := t) (r := w.toRegion)
  have hleft := htrims.left
  have htop := htrims.top
  have hx := htrims.xOffset
  have hy := htrims.yOffset
  rw [Region.fitsWords_iff] at hwords ⊢
  dsimp only [toRegion] at hwords hleft htop hx hy ⊢
  omega

/-- For a region in a bitmap whose sizes are words, cropping in words is
cropping; of its steps only an offset that goes up can fail, and does so
exactly where the columns to the left or the rows above what is left are
more than the offset has room for. Encoding in words is encoding, so it
fails nowhere else; and what it gives is stored, or refused with the first
of its numbers that the format has no room for. -/
theorem crop_fits_words (hb : b.FitsWords)
    (h : w.toRegion.checkBounds b = .ok ()) (t : UInt8) :
    toRegion <$> w.crop b t = (w.toRegion.crop b t).withinWords ∧
      ((w.toRegion.crop b t).fitsWords = true ↔
        w.xOffset.toInt + (w.toRegion.crop b t).x <
            0x80000000 + (w.x.toNat : Int) ∧
          w.yOffset.toInt + (w.toRegion.crop b t).y <
            0x80000000 + (w.y.toNat : Int)) ∧
      (∀ crop empty, w.encode b crop t empty =
        SpriteImage.encode b w.toRegion crop t empty) ∧
      (∀ crop empty e, w.encode b crop t empty = .error e →
        e = .panic "sprite offset" ∧ crop = true ∧
          (w.toRegion.crop b t).fitsWords = false) ∧
      ∀ crop empty image, w.encode b crop t empty = .ok (some image) →
        (image.outOfRange? = none → image.toBlock = .ok image.blockOf) ∧
          ∀ number, image.outOfRange? = some number →
            image.toBlock = .error (number.1.refusal number.2) := by
  refine ⟨map_crop hb (Region.checkBounds_ok_iff.1 h), fitsWords_crop_iff,
    encode_words_eq hb h, ?_, ?_⟩
  · intro crop empty e he
    rw [encode_words_eq hb h, SpriteImage.encode_eq_error h] at he
    refine ⟨he.1, ?_⟩
    cases crop with
    | true => exact ⟨rfl, he.2⟩
    | false =>
        have hwords : w.toRegion.fitsWords = false := he.2
        rw [fitsWords_toRegion] at hwords
        cases hwords
  · intro crop empty image _
    refine ⟨fun hnone => ?_, fun number => SpriteImage.toBlock_of_outOfRange⟩
    exact SpriteImage.toBlock_ok_iff.2
      ⟨SpriteImage.fitsFormat_iff.2 hnone, rfl⟩

/-- A bitmap with an opaque pixel behind a transparent one. -/
def hidden : Bitmap := ⟨2, 1, #[0, 5], rfl, none⟩

/-- The whole of it, at a distance from the reference point. -/
def distant (xOffset : Int32) : WordRegion := ⟨0, 0, 2, 1, xOffset, 0⟩

/-- An offset that is the last of a word of two bytes: cropping goes on
to the next, which the words still hold and the sprite does not. -/
theorem crop_fits_words_distant :
    hidden.FitsWords ∧
      (distant 32767).toRegion.checkBounds hidden = .ok () ∧
      toRegion <$> (distant 32767).crop hidden 0 =
        .ok ⟨1, 0, 1, 1, 32768, 0⟩ ∧
      ∃ image, (distant 32767).encode hidden true 0 .omitted =
          .ok (some image) ∧
        image.toBlock =
          .error (.value (.outOfRange 32768 "int16" (-32768) 32767)) := by
  have hwords : hidden.FitsWords := by
    unfold Bitmap.FitsWords
    decide
  have hbounds : (distant 32767).toRegion.checkBounds hidden = .ok () := by
    decide
  obtain ⟨hcrop, -, hencode, -, hstored⟩ := crop_fits_words hwords hbounds 0
  have hcode : SpriteImage.encode hidden (distant 32767).toRegion true 0
      .omitted = .ok (some ⟨1, 1, 32768, 0, [some [128, 1, 5]]⟩) := by
    decide +kernel
  have hcoded := (hencode true .omitted).trans hcode
  have hrefused := (hstored true .omitted _ hcoded).2
    (.int16, 32768) (by decide)
  rw [hcrop]
  exact ⟨hwords, hbounds, by decide, _, hcoded, hrefused⟩

/-- The region that covers it at the greatest distance that a data file
can say. -/
def farthest : SheetRegion :=
  { sheet := ⟨"s.png"⟩, xOffset := 0x7fffffff }

/-- A data file may put a region so far from the reference point that its
offset fails when a column is taken off. -/
theorem crop_overflows :
    bind ⟨""⟩ (.mapping [(.string "sheet", .string "s.png"),
        (.string "x_offset", .int 0x7fffffff)]) (.reference .sprite) =
      .ok (.image farthest) ∧
      farthest.onBitmap hidden = (distant 0x7fffffff).toRegion ∧
      (distant 0x7fffffff).toRegion.checkBounds hidden = .ok () ∧
      (distant 0x7fffffff).crop hidden 0 =
        .error (.panic "sprite offset") ∧
      SpriteImage.encode hidden (farthest.onBitmap hidden) true 0 .omitted =
        .error (.panic "sprite offset") :=
  ⟨rfl, by decide⟩

end WordRegion

end Sprite

end GamePack
