import GamePack.Sprite.Region
import Mathlib.Tactic

/-!
What cropping keeps. `Trims` says that one region is another without
some transparent edges; every step of a crop does that, and doing it
twice does it again. A trimmed region shows what the region showed:
the same indices at the same places from the reference point.
-/
namespace GamePack.Sprite.Region

variable {b : Bitmap} {t : UInt8} {r r' r'' : Region}

-- ================================================= what a region shows

/-- A pixel of the bitmap belongs to a region. -/
def Holds (r : Region) (x y : Nat) : Prop :=
  r.x ≤ x ∧ x < r.x + r.width ∧ r.y ≤ y ∧ y < r.y + r.height

/-- A region has an opaque pixel of an index at a place, counted from
the reference point. -/
def Shows (r : Region) (b : Bitmap) (t : UInt8) (p q : Int)
    (index : UInt8) : Prop :=
  ∃ x y, r.Holds x y ∧ b.get x y = index ∧ index ≠ t ∧
    (x : Int) - r.x + r.xOffset = p ∧ (y : Int) - r.y + r.yOffset = q

/-- One region is another without some transparent edges. -/
structure Trims (b : Bitmap) (t : UInt8) (r' r : Region) : Prop where
  left : r.x ≤ r'.x
  right : r'.x + r'.width ≤ r.x + r.width
  top : r.y ≤ r'.y
  bottom : r'.y + r'.height ≤ r.y + r.height
  xOffset : r'.xOffset - r'.x = r.xOffset - r.x
  yOffset : r'.yOffset - r'.y = r.yOffset - r.y
  kept : ∀ x y, r.Holds x y → b.get x y ≠ t → r'.Holds x y

theorem Trims.refl (r : Region) : Trims b t r r where
  left := Nat.le_refl _
  right := Nat.le_refl _
  top := Nat.le_refl _
  bottom := Nat.le_refl _
  xOffset := rfl
  yOffset := rfl
  kept := fun _ _ h _ => h

theorem Trims.trans (h' : Trims b t r'' r') (h : Trims b t r' r) :
    Trims b t r'' r where
  left := Nat.le_trans h.left h'.left
  right := Nat.le_trans h'.right h.right
  top := Nat.le_trans h.top h'.top
  bottom := Nat.le_trans h'.bottom h.bottom
  xOffset := h'.xOffset.trans h.xOffset
  yOffset := h'.yOffset.trans h.yOffset
  kept := fun x y hr ho => h'.kept x y (h.kept x y hr ho) ho

/-- A trimmed region has no pixel that the region has not. -/
theorem Trims.holds {x y : Nat} (h : Trims b t r' r)
    (hr : r'.Holds x y) : r.Holds x y := by
  obtain ⟨hl, hx, ht, hy⟩ := hr
  exact ⟨Nat.le_trans h.left hl, Nat.lt_of_lt_of_le hx h.right,
    Nat.le_trans h.top ht, Nat.lt_of_lt_of_le hy h.bottom⟩

/-- A trimmed region lies inside the bitmap where the region does. -/
theorem Trims.isInside (h : Trims b t r' r) (hr : r.isInside b) :
    r'.isInside b := by
  have hright := h.right
  have hbottom := h.bottom
  simp only [Region.isInside, Bool.and_eq_true, decide_eq_true_eq]
    at hr ⊢
  omega

/-- A trimmed region shows what the region shows. -/
theorem Trims.shows_iff {p q : Int} {index : UInt8}
    (h : Trims b t r' r) :
    r'.Shows b t p q index ↔ r.Shows b t p q index := by
  have hx := h.xOffset
  have hy := h.yOffset
  constructor
  · rintro ⟨x, y, hr, hindex, ho, hp, hq⟩
    exact ⟨x, y, h.holds hr, hindex, ho, by omega, by omega⟩
  · rintro ⟨x, y, hr, hindex, ho, hp, hq⟩
    have hkept := h.kept x y hr (by rw [hindex]; exact ho)
    exact ⟨x, y, hkept, hindex, ho, by omega, by omega⟩

-- ==================================================== counting edges

theorem leading_le (p : Nat → Bool) (start count : Nat) :
    leading p start count ≤ count := by
  induction count generalizing start with
  | zero => exact Nat.le_refl 0
  | succ count ih =>
      have := ih (start + 1)
      simp only [leading]
      split <;> omega

/-- The counted numbers at the front have the property. -/
theorem of_lt_leading {p : Nat → Bool} {start i : Nat} (count : Nat)
    (hi : start ≤ i) (hlt : i < start + leading p start count) :
    p i := by
  induction count generalizing start with
  | zero =>
      simp only [leading] at hlt
      omega
  | succ count ih =>
      simp only [leading] at hlt
      split at hlt
      next hp =>
        rcases Nat.eq_or_lt_of_le hi with rfl | hi
        · exact hp
        · have hnext : start + 1 ≤ i := hi
          exact ih hnext (by omega)
      next => omega

theorem trailing_le (p : Nat → Bool) (start count : Nat) :
    trailing p start count ≤ count := by
  induction count with
  | zero => exact Nat.le_refl 0
  | succ count ih =>
      simp only [trailing]
      split <;> omega

/-- The counted numbers at the back have the property. -/
theorem of_trailing_le {p : Nat → Bool} {start count i : Nat}
    (hi : start + count ≤ i + trailing p start count)
    (hlt : i < start + count) : p i := by
  induction count with
  | zero =>
      simp only [trailing] at hi
      omega
  | succ count ih =>
      simp only [trailing] at hi
      split at hi
      next hp =>
        rcases Nat.eq_or_lt_of_le (Nat.le_of_lt_succ hlt) with rfl | hlt
        · exact hp
        · exact ih (by omega) hlt
      next => omega

-- ============================================================ cropping

/-- The pixels of a clear column are transparent. -/
theorem eq_of_columnClear {x y : Nat} (h : r.columnClear b t x)
    (hr : r.Holds x y) : b.get x y = t := by
  unfold columnClear at h
  rw [List.all_eq_true] at h
  have hy : y ∈ List.range' r.y r.height := by
    rw [List.mem_range'_1]
    exact ⟨hr.2.2.1, hr.2.2.2⟩
  exact beq_iff_eq.1 (h y hy)

/-- The pixels of a clear row are transparent. -/
theorem eq_of_rowClear {x y : Nat} (h : r.rowClear b t y)
    (hr : r.Holds x y) : b.get x y = t := by
  unfold rowClear at h
  rw [List.all_eq_true] at h
  have hx : x ∈ List.range' r.x r.width := by
    rw [List.mem_range'_1]
    exact ⟨hr.1, hr.2.1⟩
  exact beq_iff_eq.1 (h x hx)

/-- Taking off clear columns on both sides. -/
theorem trims_columns (skipped width : Nat)
    (hwidth : skipped + width ≤ r.width)
    (hclear : ∀ x, r.x ≤ x → x < r.x + r.width →
      x < r.x + skipped ∨ r.x + skipped + width ≤ x →
        r.columnClear b t x) :
    Trims b t { r with
      x := r.x + skipped, width, xOffset := r.xOffset + skipped } r := by
  refine ⟨?_, ?_, Nat.le_refl _, Nat.le_refl _, ?_, rfl,
    fun x y hr ho => ?_⟩
  · exact Nat.le_add_right _ _
  · show r.x + skipped + width ≤ r.x + r.width
    omega
  · show r.xOffset + (skipped : Int) - ((r.x + skipped : Nat) : Int) = _
    omega
  · by_contra hout
    -- an opaque pixel left outside would lie in a clear column
    refine ho (eq_of_columnClear (hclear x hr.1 hr.2.1 ?_) hr)
    unfold Holds at hr hout
    dsimp only at hout
    omega

/-- Taking off clear rows at the top and at the bottom. -/
theorem trims_rows (skipped height : Nat)
    (hheight : skipped + height ≤ r.height)
    (hclear : ∀ y, r.y ≤ y → y < r.y + r.height →
      y < r.y + skipped ∨ r.y + skipped + height ≤ y →
        r.rowClear b t y) :
    Trims b t { r with
      y := r.y + skipped, height, yOffset := r.yOffset + skipped } r := by
  refine ⟨Nat.le_refl _, Nat.le_refl _, ?_, ?_, rfl, ?_,
    fun x y hr ho => ?_⟩
  · exact Nat.le_add_right _ _
  · show r.y + skipped + height ≤ r.y + r.height
    omega
  · show r.yOffset + (skipped : Int) - ((r.y + skipped : Nat) : Int) = _
    omega
  · by_contra hout
    -- an opaque pixel left outside would lie in a clear row
    refine ho (eq_of_rowClear (hclear y hr.2.2.1 hr.2.2.2 ?_) hr)
    unfold Holds at hr hout
    dsimp only at hout
    omega

/-- Cropping on the left takes off transparent columns. -/
theorem cropLeft_trims : Trims b t (r.cropLeft b t) r := by
  unfold cropLeft
  split
  · exact Trims.refl r
  · have hle := leading_le (r.columnClear b t) r.x r.width
    apply trims_columns _ _ (by omega)
    intro x hx hlt hout
    exact of_lt_leading r.width hx (by omega)

/-- Cropping on the top takes off transparent rows. -/
theorem cropTop_trims : Trims b t (r.cropTop b t) r := by
  unfold cropTop
  split
  · exact Trims.refl r
  · have hle := leading_le (r.rowClear b t) r.y r.height
    apply trims_rows _ _ (by omega)
    intro y hy hlt hout
    exact of_lt_leading r.height hy (by omega)

/-- Cropping on the right takes off transparent columns. -/
theorem cropRight_trims : Trims b t (r.cropRight b t) r := by
  unfold cropRight
  split
  · exact Trims.refl r
  · have hle := trailing_le (r.columnClear b t) r.x r.width
    have h := trims_columns (b := b) (t := t) (r := r) 0
      (r.width - trailing (r.columnClear b t) r.x r.width)
      (by omega) fun x hx hlt hout => of_trailing_le (by omega) hlt
    simpa using h

/-- Cropping on the bottom takes off transparent rows. -/
theorem cropBottom_trims : Trims b t (r.cropBottom b t) r := by
  unfold cropBottom
  split
  · exact Trims.refl r
  · have hle := trailing_le (r.rowClear b t) r.y r.height
    have h := trims_rows (b := b) (t := t) (r := r) 0
      (r.height - trailing (r.rowClear b t) r.y r.height)
      (by omega) fun y hy hlt hout => of_trailing_le (by omega) hlt
    simpa using h

/-- Cropping takes transparent edges off and nothing else. -/
theorem crop_trims : Trims b t (r.crop b t) r := by
  unfold crop
  exact cropBottom_trims.trans
    (cropRight_trims.trans (cropTop_trims.trans cropLeft_trims))

end GamePack.Sprite.Region
