import GamePack.Proofs.Sprite.Picture

/-!
Cropping leaves the bounding box of the opaque pixels. Every step of a
crop stops at an opaque pixel on its own edge, and the later steps keep
that pixel and the edge, so in the end all four edges have one: the
region is tight. Nothing can be taken from a tight region, nor from an
empty one, which is what is left exactly of a clear one; so cropping
again changes nothing. What a tight region shows tells where it lies and
how large it is, and then each of its pixels; so tight regions that show
the same, of whatever bitmaps, become the same sprite.
-/
namespace GamePack

namespace Sprite.Region

variable {b b' : Bitmap} {t : UInt8} {r r' : Region} {x y : Nat}
  {p q : Int} {index : UInt8}

-- ======================================================= opaque pixels

/-- A pixel of a region is not transparent. -/
def HasOpaque (r : Region) (b : Bitmap) (t : UInt8) (x y : Nat) : Prop :=
  r.Holds x y ∧ b.get x y ≠ t

/-- A region that is not clear has an opaque pixel. -/
theorem exists_hasOpaque (h : ¬ r.IsClear b t) :
    ∃ x y, r.HasOpaque b t x y := by
  unfold IsClear at h
  push Not at h
  exact h

/-- Trimming keeps the opaque pixels. -/
theorem Trims.hasOpaque (h : Trims b t r' r) (ho : r.HasOpaque b t x y) :
    r'.HasOpaque b t x y :=
  ⟨h.kept x y ho.1 ho.2, ho.2⟩

/-- A column that is not clear has an opaque pixel. -/
theorem exists_of_columnClear (h : ¬ r.columnClear b t x)
    (hleft : r.x ≤ x) (hright : x < r.x + r.width) :
    ∃ y, r.HasOpaque b t x y := by
  simp only [columnClear, List.all_eq_true, not_forall, beq_iff_eq] at h
  obtain ⟨y, hy, ho⟩ := h
  rw [List.mem_range'_1] at hy
  exact ⟨y, ⟨hleft, hright, hy.1, hy.2⟩, ho⟩

/-- A row that is not clear has an opaque pixel. -/
theorem exists_of_rowClear (h : ¬ r.rowClear b t y)
    (htop : r.y ≤ y) (hbottom : y < r.y + r.height) :
    ∃ x, r.HasOpaque b t x y := by
  simp only [rowClear, List.all_eq_true, not_forall, beq_iff_eq] at h
  obtain ⟨x, hx, ho⟩ := h
  rw [List.mem_range'_1] at hx
  exact ⟨x, ⟨hx.1, hx.2, htop, hbottom⟩, ho⟩

-- =============================================== where the edges stop

/-- Counting from the front stops at a number without the property, or
at the end. -/
theorem not_of_leading_lt {p : Nat → Bool} (start count : Nat)
    (h : leading p start count < count) :
    ¬ p (start + leading p start count) := by
  induction count generalizing start with
  | zero => exact absurd h (Nat.not_lt_zero _)
  | succ count ih =>
      simp only [leading] at h ⊢
      split at h
      next hp =>
        rw [if_pos hp]
        have hstop := ih (start + 1) (by omega)
        rwa [Nat.add_assoc, Nat.add_comm 1] at hstop
      next hp =>
        rw [if_neg hp]
        exact hp

/-- Counting from the back stops at a number without the property, or at
the front. -/
theorem not_of_trailing_lt {p : Nat → Bool} (start count : Nat) {i : Nat}
    (h : trailing p start count < count)
    (hi : i + 1 + trailing p start count = start + count) : ¬ p i := by
  induction count with
  | zero => exact absurd h (Nat.not_lt_zero _)
  | succ count ih =>
      simp only [trailing] at h hi
      split at h
      next hp =>
        rw [if_pos hp] at hi
        exact ih (by omega) (by omega)
      next hp =>
        rw [if_neg hp] at hi
        obtain rfl : i = start + count := by omega
        exact hp

-- ========================================================= tightness

/-- On each edge of a region lies an opaque pixel. -/
structure IsTight (r : Region) (b : Bitmap) (t : UInt8) : Prop where
  left : ∃ x y, r.HasOpaque b t x y ∧ x = r.x
  top : ∃ x y, r.HasOpaque b t x y ∧ y = r.y
  right : ∃ x y, r.HasOpaque b t x y ∧ x + 1 = r.x + r.width
  bottom : ∃ x y, r.HasOpaque b t x y ∧ y + 1 = r.y + r.height

/-- A region with an opaque pixel is not empty. -/
theorem HasOpaque.not_isEmpty (h : r.HasOpaque b t x y) :
    r.isEmpty = false := by
  obtain ⟨⟨hl, hr, ht, hb⟩, -⟩ := h
  simp only [isEmpty, Bool.or_eq_false_iff, beq_eq_false_iff_ne]
  omega

/-- Cropping on the left stops at a column with an opaque pixel. -/
theorem left_cropLeft (h : ¬ r.IsClear b t) :
    ∃ x y, (r.cropLeft b t).HasOpaque b t x y ∧
      x = (r.cropLeft b t).x := by
  obtain ⟨x₀, y₀, ho⟩ := exists_hasOpaque h
  have htrims := cropLeft_trims (b := b) (t := t) (r := r)
  obtain ⟨⟨hl, hr, -, -⟩, -⟩ := htrims.hasOpaque ho
  have hne := ho.not_isEmpty
  -- an opaque pixel is left, so the counting stopped in front of it
  simp only [cropLeft, hne, Bool.false_eq_true, if_false] at hl hr htrims ⊢
  have hstop : ¬ r.columnClear b t (r.x + _) :=
    not_of_leading_lt r.x r.width (by omega)
  obtain ⟨y, hy⟩ := exists_of_columnClear hstop (by omega) (by omega)
  exact ⟨_, y, htrims.hasOpaque hy, rfl⟩

/-- Cropping on the top stops at a row with an opaque pixel. -/
theorem top_cropTop (h : ¬ r.IsClear b t) :
    ∃ x y, (r.cropTop b t).HasOpaque b t x y ∧
      y = (r.cropTop b t).y := by
  obtain ⟨x₀, y₀, ho⟩ := exists_hasOpaque h
  have htrims := cropTop_trims (b := b) (t := t) (r := r)
  obtain ⟨⟨-, -, ht, hb⟩, -⟩ := htrims.hasOpaque ho
  have hne := ho.not_isEmpty
  simp only [cropTop, hne, Bool.false_eq_true, if_false] at ht hb htrims ⊢
  have hstop : ¬ r.rowClear b t (r.y + _) :=
    not_of_leading_lt r.y r.height (by omega)
  obtain ⟨x, hx⟩ := exists_of_rowClear hstop (by omega) (by omega)
  exact ⟨x, _, htrims.hasOpaque hx, rfl⟩

/-- Cropping on the right stops at a column with an opaque pixel. -/
theorem right_cropRight (h : ¬ r.IsClear b t) :
    ∃ x y, (r.cropRight b t).HasOpaque b t x y ∧
      x + 1 = (r.cropRight b t).x + (r.cropRight b t).width := by
  obtain ⟨x₀, y₀, ho⟩ := exists_hasOpaque h
  have htrims := cropRight_trims (b := b) (t := t) (r := r)
  obtain ⟨⟨hl, hr, -, -⟩, -⟩ := htrims.hasOpaque ho
  have hne := ho.not_isEmpty
  simp only [cropRight, hne, Bool.false_eq_true, if_false] at hl hr htrims ⊢
  obtain ⟨n, hn⟩ : ∃ n, n = trailing (r.columnClear b t) r.x r.width :=
    ⟨_, rfl⟩
  rw [← hn] at hr htrims ⊢
  have hstop : ¬ r.columnClear b t (r.x + (r.width - n) - 1) :=
    not_of_trailing_lt r.x r.width (by omega) (by omega)
  obtain ⟨y, hy⟩ := exists_of_columnClear hstop (by omega) (by omega)
  exact ⟨_, y, htrims.hasOpaque hy, by omega⟩

/-- Cropping on the bottom stops at a row with an opaque pixel. -/
theorem bottom_cropBottom (h : ¬ r.IsClear b t) :
    ∃ x y, (r.cropBottom b t).HasOpaque b t x y ∧
      y + 1 = (r.cropBottom b t).y + (r.cropBottom b t).height := by
  obtain ⟨x₀, y₀, ho⟩ := exists_hasOpaque h
  have htrims := cropBottom_trims (b := b) (t := t) (r := r)
  obtain ⟨⟨-, -, ht, hb⟩, -⟩ := htrims.hasOpaque ho
  have hne := ho.not_isEmpty
  simp only [cropBottom, hne, Bool.false_eq_true, if_false]
    at ht hb htrims ⊢
  obtain ⟨n, hn⟩ : ∃ n, n = trailing (r.rowClear b t) r.y r.height :=
    ⟨_, rfl⟩
  rw [← hn] at hb htrims ⊢
  have hstop : ¬ r.rowClear b t (r.y + (r.height - n) - 1) :=
    not_of_trailing_lt r.y r.height (by omega) (by omega)
  obtain ⟨x, hx⟩ := exists_of_rowClear hstop (by omega) (by omega)
  exact ⟨x, _, htrims.hasOpaque hx, by omega⟩

/-- Cropping at the top leaves the columns alone. -/
theorem columns_cropTop (r : Region) (b : Bitmap) (t : UInt8) :
    (r.cropTop b t).x = r.x ∧ (r.cropTop b t).width = r.width := by
  unfold cropTop
  split <;> exact ⟨rfl, rfl⟩

/-- Cropping on the right leaves the left column and the rows alone. -/
theorem edges_cropRight (r : Region) (b : Bitmap) (t : UInt8) :
    (r.cropRight b t).x = r.x ∧ (r.cropRight b t).y = r.y ∧
      (r.cropRight b t).height = r.height := by
  unfold cropRight
  split <;> exact ⟨rfl, rfl, rfl⟩

/-- Cropping at the bottom leaves the columns and the top row alone. -/
theorem edges_cropBottom (r : Region) (b : Bitmap) (t : UInt8) :
    (r.cropBottom b t).x = r.x ∧ (r.cropBottom b t).width = r.width ∧
      (r.cropBottom b t).y = r.y := by
  unfold cropBottom
  split <;> exact ⟨rfl, rfl, rfl⟩

/-- What is left of a region with opaque pixels is tight. -/
theorem isTight_crop (h : ¬ r.IsClear b t) :
    (r.crop b t).IsTight b t := by
  have htop := cropTop_trims (b := b) (t := t) (r := r.cropLeft b t)
  have hright := cropRight_trims (b := b) (t := t)
    (r := (r.cropLeft b t).cropTop b t)
  have hbottom := cropBottom_trims (b := b) (t := t)
    (r := ((r.cropLeft b t).cropTop b t).cropRight b t)
  have h₁ : ¬ (r.cropLeft b t).IsClear b t := by
    rwa [cropLeft_trims.isClear_iff]
  have h₂ : ¬ ((r.cropLeft b t).cropTop b t).IsClear b t := by
    rwa [htop.isClear_iff]
  have h₃ : ¬ (((r.cropLeft b t).cropTop b t).cropRight b t).IsClear b t := by
    rwa [hright.isClear_iff]
  obtain ⟨hx₂, hw₂⟩ := columns_cropTop (r.cropLeft b t) b t
  obtain ⟨hx₃, hy₃, hh₃⟩ :=
    edges_cropRight ((r.cropLeft b t).cropTop b t) b t
  obtain ⟨hx₄, hw₄, hy₄⟩ :=
    edges_cropBottom (((r.cropLeft b t).cropTop b t).cropRight b t) b t
  -- the pixel on an edge survives the steps behind its own
  refine ⟨?_, ?_, ?_, bottom_cropBottom h₃⟩
  · obtain ⟨x, y, ho, hedge⟩ := left_cropLeft h
    refine ⟨x, y, hbottom.hasOpaque (hright.hasOpaque (htop.hasOpaque ho)),
      ?_⟩
    rw [crop, hx₄, hx₃, hx₂, hedge]
  · obtain ⟨x, y, ho, hedge⟩ := top_cropTop h₁
    refine ⟨x, y, hbottom.hasOpaque (hright.hasOpaque ho), ?_⟩
    rw [crop, hy₄, hy₃, hedge]
  · obtain ⟨x, y, ho, hedge⟩ := right_cropRight h₂
    refine ⟨x, y, hbottom.hasOpaque ho, ?_⟩
    rw [crop, hx₄, hw₄, hedge]

-- ===================================================== cropping again

/-- An empty region has no pixel. -/
theorem not_holds_of_isEmpty (h : r.isEmpty = true) : ¬ r.Holds x y := by
  simp only [isEmpty, Bool.or_eq_true, beq_iff_eq] at h
  unfold Holds
  omega

/-- A region that is empty without its columns on the left loses nothing
more. -/
theorem crop_eq_cropLeft (h : (r.cropLeft b t).isEmpty = true) :
    r.crop b t = r.cropLeft b t := by
  have htop : (r.cropLeft b t).cropTop b t = r.cropLeft b t := if_pos h
  have hright : (r.cropLeft b t).cropRight b t = r.cropLeft b t :=
    if_pos h
  have hbottom : (r.cropLeft b t).cropBottom b t = r.cropLeft b t :=
    if_pos h
  rw [crop, htop, hright, hbottom]

/-- There is nothing to take off an empty region. -/
theorem crop_of_isEmpty (h : r.isEmpty = true) : r.crop b t = r := by
  have hleft : r.cropLeft b t = r := if_pos h
  rw [crop_eq_cropLeft (by rw [hleft]; exact h), hleft]

/-- Of a clear region all columns are taken off on the left. -/
theorem isEmpty_cropLeft (h : r.IsClear b t) :
    (r.cropLeft b t).isEmpty = true := by
  cases hempty : r.isEmpty with
  | true =>
      rw [cropLeft, if_pos hempty]
      exact hempty
  | false =>
      simp only [cropLeft, hempty, Bool.false_eq_true, if_false]
      have hle := leading_le (r.columnClear b t) r.x r.width
      -- a column where the counting stopped would have an opaque pixel
      have hall : ¬ leading (r.columnClear b t) r.x r.width < r.width := by
        intro hlt
        obtain ⟨y, hr, ho⟩ := exists_of_columnClear
          (not_of_leading_lt r.x r.width hlt) (by omega) (by omega)
        exact ho (h _ y hr)
      simp only [isEmpty, Bool.or_eq_true, beq_iff_eq]
      exact .inl (by omega)

/-- What is left of a region is empty exactly when the region is
clear. -/
theorem isEmpty_crop_iff :
    (r.crop b t).isEmpty = true ↔ r.IsClear b t := by
  constructor
  · intro hempty
    rw [← crop_trims.isClear_iff]
    intro x y hr
    exact absurd hr (not_holds_of_isEmpty hempty)
  · intro hclear
    have hempty := isEmpty_cropLeft hclear
    rw [crop_eq_cropLeft hempty]
    exact hempty

/-- Nothing can be taken off a tight region. -/
theorem IsTight.eq_of_trims (h : r.IsTight b t) (htrims : Trims b t r' r) :
    r' = r := by
  have hkept : ∀ {x y}, r.HasOpaque b t x y → r'.Holds x y :=
    fun ho => (htrims.hasOpaque ho).1
  obtain ⟨xl, _, hol, hl⟩ := h.left
  obtain ⟨_, yt, hot, ht⟩ := h.top
  obtain ⟨xr, _, hor, hr⟩ := h.right
  obtain ⟨_, yb, hob, hb⟩ := h.bottom
  obtain ⟨hleft, -, -, -⟩ := hkept hol
  obtain ⟨-, -, htop, -⟩ := hkept hot
  obtain ⟨-, hright, -, -⟩ := hkept hor
  obtain ⟨-, -, -, hbottom⟩ := hkept hob
  obtain ⟨hx, hw, hy, hh, hxo, hyo, -⟩ := htrims
  obtain ⟨x, y, width, height, xOffset, yOffset⟩ := r
  obtain ⟨x', y', width', height', xOffset', yOffset'⟩ := r'
  rw [mk.injEq]
  dsimp only at *
  omega

/-- The check of the bounds passes for the regions inside the sheet. -/
theorem checkBounds_ok_iff :
    r.checkBounds b = .ok () ↔ r.isInside b = true := by
  unfold checkBounds
  cases r.isInside b <;> simp

/-- Cropping leaves the bounding box of the opaque pixels: a region inside
the region that lies where it lay from the reference point, empty where
there is no opaque pixel, and else with all of them and with one on each
edge; from which cropping takes nothing more. -/
theorem crop_boundingBox (h : r.checkBounds b = .ok ()) :
    (r.crop b t).checkBounds b = .ok () ∧
      Trims b t (r.crop b t) r ∧
      ((r.crop b t).isEmpty = true ↔ ¬ ∃ x y, r.HasOpaque b t x y) ∧
      ((∃ x y, r.HasOpaque b t x y) →
        (∀ x y, r.HasOpaque b t x y → (r.crop b t).Holds x y) ∧
          (r.crop b t).IsTight b t) ∧
      (r.crop b t).crop b t = r.crop b t := by
  have htrims := crop_trims (b := b) (t := t) (r := r)
  have hclear : r.IsClear b t ↔ ¬ ∃ x y, r.HasOpaque b t x y := by
    unfold IsClear HasOpaque
    push Not
    exact Iff.rfl
  refine ⟨?_, htrims, ?_, ?_, ?_⟩
  · rw [checkBounds_ok_iff] at h ⊢
    exact htrims.isInside h
  · rw [isEmpty_crop_iff, hclear]
  · intro hopaque
    have hne : ¬ r.IsClear b t := fun hc => hclear.1 hc hopaque
    exact ⟨fun x y ho => htrims.kept x y ho.1 ho.2, isTight_crop hne⟩
  · by_cases hc : r.IsClear b t
    · exact crop_of_isEmpty (isEmpty_crop_iff.2 hc)
    · exact (isTight_crop hc).eq_of_trims crop_trims

/-- Three opaque pixels, none in a corner of their bounding box. -/
def peaks : Bitmap where
  width := 5
  height := 4
  pixels := #[0, 0, 0, 0, 0, 0, 0, 3, 0, 0, 0, 4, 0, 5, 0, 0, 0, 0, 0, 0]
  size_eq := rfl

/-- The bounding box of the peaks, with the reference point where it was.
-/
theorem crop_boundingBox_peaks :
    (⟨0, 0, 5, 4, -2, -3⟩ : Region).checkBounds peaks = .ok () ∧
      (⟨0, 0, 5, 4, -2, -3⟩ : Region).crop peaks 0 = ⟨1, 1, 3, 2, -1, -2⟩ ∧
      (⟨1, 1, 3, 2, -1, -2⟩ : Region).IsTight peaks 0 ∧
      (⟨1, 1, 3, 2, -1, -2⟩ : Region).crop peaks 0 =
        ⟨1, 1, 3, 2, -1, -2⟩ := by
  have hbounds : (⟨0, 0, 5, 4, -2, -3⟩ : Region).checkBounds peaks =
      .ok () := by
    decide
  have hcrop : (⟨0, 0, 5, 4, -2, -3⟩ : Region).crop peaks 0 =
      ⟨1, 1, 3, 2, -1, -2⟩ := by
    decide
  have hopaque : ∃ x y, (⟨0, 0, 5, 4, -2, -3⟩ : Region).HasOpaque
      peaks 0 x y := by
    refine ⟨2, 1, ?_, ?_⟩
    · simp [Holds]
    · decide
  obtain ⟨-, -, -, htight, hagain⟩ := crop_boundingBox (t := 0) hbounds
  rw [hcrop] at htight hagain
  exact ⟨hbounds, hcrop, (htight hopaque).2, hagain⟩

-- ================================================== what is shown

/-- An opaque pixel is shown at its place from the reference point. -/
theorem HasOpaque.shows (h : r.HasOpaque b t x y) :
    r.Shows b t ((x : Int) - r.x + r.xOffset)
      ((y : Int) - r.y + r.yOffset) (b.get x y) :=
  ⟨x, y, h.1, rfl, h.2, rfl, rfl⟩

/-- Nothing is shown outside the frame of a region. -/
theorem Shows.bounds (h : r.Shows b t p q index) :
    (r.xOffset ≤ p ∧ p < r.xOffset + r.width) ∧
      r.yOffset ≤ q ∧ q < r.yOffset + r.height := by
  obtain ⟨x, y, ⟨hl, hr, ht, hb⟩, -, -, rfl, rfl⟩ := h
  omega

/-- The frame of a tight region lies inside that of any region which
shows as much. -/
theorem IsTight.frame_le (h : r.IsTight b t)
    (hshows : ∀ p q index, r.Shows b t p q index →
      r'.Shows b' t p q index) :
    (r'.xOffset ≤ r.xOffset ∧
      r.xOffset + r.width ≤ r'.xOffset + r'.width) ∧
      r'.yOffset ≤ r.yOffset ∧
        r.yOffset + r.height ≤ r'.yOffset + r'.height := by
  have hframe : ∀ {x y}, r.HasOpaque b t x y →
      (r'.xOffset ≤ (x : Int) - r.x + r.xOffset ∧
        (x : Int) - r.x + r.xOffset < r'.xOffset + r'.width) ∧
      r'.yOffset ≤ (y : Int) - r.y + r.yOffset ∧
        (y : Int) - r.y + r.yOffset < r'.yOffset + r'.height :=
    fun ho => (hshows _ _ _ ho.shows).bounds
  obtain ⟨_, _, hol, hl⟩ := h.left
  obtain ⟨_, _, hot, ht⟩ := h.top
  obtain ⟨_, _, hor, hr⟩ := h.right
  obtain ⟨_, _, hob, hb⟩ := h.bottom
  have hleft := (hframe hol).1
  have htop := (hframe hot).2
  have hright := (hframe hor).1
  have hbottom := (hframe hob).2
  omega

/-- A region shows the index of each of its pixels that is opaque, at
the place of the pixel, and no other there. -/
theorem shows_iff_get {i j : Nat} (hi : i < r.width) (hj : j < r.height) :
    r.Shows b t (i + r.xOffset) (j + r.yOffset) index ↔
      b.get (r.x + i) (r.y + j) = index ∧ index ≠ t := by
  constructor
  · rintro ⟨x, y, ⟨hl, -, ht, -⟩, hindex, ho, hp, hq⟩
    obtain rfl : x = r.x + i := by omega
    obtain rfl : y = r.y + j := by omega
    exact ⟨hindex, ho⟩
  · rintro ⟨hindex, ho⟩
    refine ⟨r.x + i, r.y + j, ?_, hindex, ho, by omega, by omega⟩
    unfold Holds
    omega

/-- Pixels at one place of regions that show the same are the same,
transparent or not. -/
theorem get_eq_of_shows {i j : Nat}
    (hx : r.xOffset = r'.xOffset) (hy : r.yOffset = r'.yOffset)
    (hshows : ∀ p q index, r.Shows b t p q index ↔
      r'.Shows b' t p q index)
    (hi : i < r.width) (hi' : i < r'.width) (hj : j < r.height)
    (hj' : j < r'.height) :
    b.get (r.x + i) (r.y + j) = b'.get (r'.x + i) (r'.y + j) := by
  have hindex : ∀ index,
      b.get (r.x + i) (r.y + j) = index ∧ index ≠ t ↔
        b'.get (r'.x + i) (r'.y + j) = index ∧ index ≠ t := by
    intro index
    rw [← shows_iff_get hi hj, hshows, hx, hy, shows_iff_get hi' hj']
  by_cases ho : b.get (r.x + i) (r.y + j) = t
  · -- a pixel that is opaque in the other region only would be shown here
    by_contra hne
    have ho' : b'.get (r'.x + i) (r'.y + j) ≠ t :=
      fun h => hne (ho.trans h.symm)
    exact hne ((hindex _).2 ⟨rfl, ho'⟩).1
  · exact ((hindex _).1 ⟨rfl, ho⟩).1.symm

/-- The rows of a region, counted from its corner. -/
theorem rows_eq (r : Region) (b : Bitmap) :
    r.rows b = (List.range r.height).map fun j =>
      (List.range r.width).map fun i => b.get (r.x + i) (r.y + j) := by
  simp only [rows, rowOf, List.range'_eq_map_range, List.map_map,
    Function.comp_def]

/-- Tight regions that show the same have the same frame and the same
rows. -/
theorem IsTight.eq_of_shows (h : r.IsTight b t) (h' : r'.IsTight b' t)
    (hshows : ∀ p q index, r.Shows b t p q index ↔
      r'.Shows b' t p q index) :
    r.xOffset = r'.xOffset ∧ r.yOffset = r'.yOffset ∧
      r.width = r'.width ∧ r.height = r'.height ∧
        r.rows b = r'.rows b' := by
  have hle := h.frame_le fun p q index => (hshows p q index).1
  have hle' := h'.frame_le fun p q index => (hshows p q index).2
  have hx : r.xOffset = r'.xOffset := by omega
  have hy : r.yOffset = r'.yOffset := by omega
  have hw : r.width = r'.width := by omega
  have hh : r.height = r'.height := by omega
  refine ⟨hx, hy, hw, hh, ?_⟩
  rw [rows_eq, rows_eq, hw, hh]
  refine List.map_congr_left fun j hj => List.map_congr_left fun i hi => ?_
  rw [List.mem_range] at hi hj
  exact get_eq_of_shows hx hy hshows (by omega) hi (by omega) hj

end Sprite.Region

namespace SpriteImage

open Sprite

variable {b b' : Bitmap} {t : UInt8} {r r' : Region}

/-- Tight regions become the same sprite exactly when they show the
same. -/
theorem ofTaken_eq_iff (h : r.IsTight b t) (h' : r'.IsTight b' t) :
    ofTaken b r t = ofTaken b' r' t ↔
      ∀ p q index, r.Shows b t p q index ↔ r'.Shows b' t p q index := by
  have hdepicts := ofTaken_depicts (b := b) (t := t) (r := r)
  have hdepicts' := ofTaken_depicts (b := b') (t := t) (r := r')
  constructor
  · intro heq p q index
    -- the pixels of a sprite are what it shows, from which the region is
    -- read off
    have hpixels : (r.rows b).flatten = (r'.rows b').flatten := by
      have hok := hdepicts.pixels_eq
      rw [heq, hdepicts'.pixels_eq] at hok
      exact (Except.ok.inj hok).symm
    rw [← hdepicts.shows_iff rfl rfl rfl rfl,
      ← hdepicts'.shows_iff rfl rfl rfl rfl, heq, hpixels]
  · intro hshows
    obtain ⟨hx, hy, hw, hh, hrows⟩ := h.eq_of_shows h' hshows
    simp only [ofTaken, encodeRows_eq, hx, hy, hw, hh, hrows]

/-- Regions with opaque pixels, cropped, become the same sprite exactly
when they show the same. -/
theorem ofTaken_crop_eq_iff (h : ¬ r.IsClear b t) (h' : ¬ r'.IsClear b' t) :
    ofTaken b (r.crop b t) t = ofTaken b' (r'.crop b' t) t ↔
      ∀ p q index, r.Shows b t p q index ↔ r'.Shows b' t p q index := by
  rw [ofTaken_eq_iff (Region.isTight_crop h) (Region.isTight_crop h')]
  simp only [Region.crop_trims.shows_iff]

/-- A sprite whose offsets must fit their words. -/
def withinWords (image : SpriteImage) :
    Except Error (Option SpriteImage) :=
  if Region.fitsWord image.xOffset && Region.fitsWord image.yOffset then
    .ok (some image)
  else .error (.panic "sprite offset")

/-- A region with opaque pixels, cropped, is encoded as the sprite of
what is left, whatever is done with empty sprites. -/
theorem encode_crop_eq {empty : EmptySprite}
    (hbounds : r.checkBounds b = .ok ()) (h : ¬ r.IsClear b t) :
    encode b r true t empty =
      (ofTaken b (r.crop b t) t).withinWords := by
  have htaken : r.taken b t true = r.crop b t := if_pos rfl
  have hfits : (Region.fitsWord (ofTaken b (r.crop b t) t).xOffset &&
      Region.fitsWord (ofTaken b (r.crop b t) t).yOffset) =
        (r.crop b t).fitsWords := rfl
  rw [encode_eq hbounds, htaken, if_neg h, withinWords, hfits]
  cases (r.crop b t).fitsWords <;> simp

end SpriteImage

end GamePack
