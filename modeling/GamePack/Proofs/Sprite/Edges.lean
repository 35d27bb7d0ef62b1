import GamePack.Proofs.Sprite.Tight

/-!
Cropping edge by edge. As long as the outermost column or row on an edge
is transparent, it is taken off, and on the left and at the top the offset
goes up by one. The four edges are treated alike: what holds of taking one
line off an edge (`Edge.crop_drop`) is said once, with the edge as a
parameter.

A step fails when the offset it moves does not fit a signed word.
`Edge.takeSteps_step` is what a whole loop comes to: it fails exactly when
an offset of what is left in the end does not fit, since an offset only
moves up, so that one which fails on the way also fails at the end.
-/
namespace GamePack

namespace Sprite

variable {b : Bitmap} {t : UInt8} {r r' : Region}

-- ============================================================== edges

/-- The edges of a region. -/
inductive Edge where
  | left | top | right | bottom
  deriving DecidableEq, Repr

namespace Edge

/-- The edges in the order in which they are cropped. -/
def all : List Edge := [left, top, right, bottom]

/-- A region without so many columns or rows on an edge. -/
def drop (e : Edge) (n : Nat) (r : Region) : Region :=
  match e with
  | left =>
    { r with x := r.x + n, width := r.width - n, xOffset := r.xOffset + n }
  | top =>
    { r with
      y := r.y + n, height := r.height - n, yOffset := r.yOffset + n }
  | right => { r with width := r.width - n }
  | bottom => { r with height := r.height - n }

/-- Whether the outermost column or row on an edge is transparent. -/
def isClear (e : Edge) (r : Region) (b : Bitmap) (t : UInt8) : Bool :=
  match e with
  | left => r.columnClear b t r.x
  | top => r.rowClear b t r.y
  | right => r.columnClear b t (r.x + r.width - 1)
  | bottom => r.rowClear b t (r.y + r.height - 1)

/-- How many columns or rows on an edge are transparent. -/
def clearing (e : Edge) (r : Region) (b : Bitmap) (t : UInt8) : Nat :=
  match e with
  | left => Region.leading (r.columnClear b t) r.x r.width
  | top => Region.leading (r.rowClear b t) r.y r.height
  | right => Region.trailing (r.columnClear b t) r.x r.width
  | bottom => Region.trailing (r.rowClear b t) r.y r.height

/-- A region without its transparent columns or rows on an edge. -/
def crop (e : Edge) (r : Region) (b : Bitmap) (t : UInt8) : Region :=
  match e with
  | left => r.cropLeft b t
  | top => r.cropTop b t
  | right => r.cropRight b t
  | bottom => r.cropBottom b t

/-- Cropping on an edge takes off transparent columns or rows. -/
theorem crop_trims (e : Edge) : Region.Trims b t (e.crop r b t) r := by
  cases e with
  | left => exact Region.cropLeft_trims
  | top => exact Region.cropTop_trims
  | right => exact Region.cropRight_trims
  | bottom => exact Region.cropBottom_trims

/-- Nothing is taken off an empty region. -/
theorem crop_of_isEmpty (e : Edge) (h : r.isEmpty = true) :
    e.crop r b t = r := by
  cases e <;> exact if_pos h

/-- Cropping drops what is transparent on the edge. -/
theorem crop_eq_drop (e : Edge) (h : r.isEmpty = false) :
    e.crop r b t = e.drop (e.clearing r b t) r := by
  cases e <;> exact if_neg (by rw [h]; exact Bool.false_ne_true)

theorem drop_zero (e : Edge) (r : Region) : e.drop 0 r = r := by
  cases e <;> simp [drop]

/-- Columns or rows can be dropped one by one. -/
theorem drop_succ (e : Edge) (n : Nat) (r : Region) :
    e.drop (n + 1) r = e.drop n (e.drop 1 r) := by
  cases e <;>
    simp only [drop, Region.mk.injEq, and_true, true_and] <;> omega

/-- A region that is not empty has a column and a row. -/
theorem sizes_of_not_isEmpty (h : r.isEmpty = false) :
    (∃ w, r.width = w + 1) ∧ ∃ n, r.height = n + 1 := by
  simp only [Region.isEmpty, Bool.or_eq_false_iff,
    beq_eq_false_iff_ne] at h
  exact ⟨Nat.exists_eq_succ_of_ne_zero h.1,
    Nat.exists_eq_succ_of_ne_zero h.2⟩

/-- Where an edge is opaque, there is nothing to take off. -/
theorem clearing_of_not_isClear {e : Edge} (h : r.isEmpty = false)
    (hshown : e.isClear r b t = false) : e.clearing r b t = 0 := by
  obtain ⟨x, y, width, height, xOffset, yOffset⟩ := r
  obtain ⟨⟨w, rfl⟩, n, rfl⟩ := sizes_of_not_isEmpty h
  cases e <;>
    exact if_neg (by rw [Bool.not_eq_true]; exact hshown)

/-- Where an edge is transparent, its outermost column or row is one of
those that are. -/
theorem clearing_of_isClear {e : Edge} (h : r.isEmpty = false)
    (hclear : e.isClear r b t = true) :
    e.clearing r b t = e.clearing (e.drop 1 r) b t + 1 := by
  obtain ⟨x, y, width, height, xOffset, yOffset⟩ := r
  obtain ⟨⟨w, rfl⟩, n, rfl⟩ := sizes_of_not_isEmpty h
  cases e <;> exact if_pos hclear

/-- When the last column or row is dropped, there is nothing more to take
off. -/
theorem clearing_of_drop_isEmpty {e : Edge} (h : r.isEmpty = false)
    (hempty : (e.drop 1 r).isEmpty = true) :
    e.clearing (e.drop 1 r) b t = 0 := by
  obtain ⟨x, y, width, height, xOffset, yOffset⟩ := r
  simp only [Region.isEmpty, Bool.or_eq_false_iff,
    beq_eq_false_iff_ne] at h
  cases e <;>
    simp_all [drop, Region.isEmpty, clearing, Region.leading,
      Region.trailing]

/-- Where an edge is opaque, nothing is taken off it. -/
theorem crop_of_not_isClear {e : Edge} (h : r.isEmpty = false)
    (hshown : e.isClear r b t = false) : e.crop r b t = r := by
  rw [e.crop_eq_drop h, clearing_of_not_isClear h hshown, drop_zero]

/-- Where an edge is transparent, its outermost column or row is taken off
first. -/
theorem crop_drop {e : Edge} (h : r.isEmpty = false)
    (hclear : e.isClear r b t = true) :
    e.crop (e.drop 1 r) b t = e.crop r b t := by
  rw [e.crop_eq_drop h, clearing_of_isClear h hclear,
    e.drop_succ (e.clearing (e.drop 1 r) b t)]
  cases hempty : (e.drop 1 r).isEmpty with
  | true =>
      rw [e.crop_of_isEmpty hempty, clearing_of_drop_isEmpty h hempty,
        drop_zero]
  | false => rw [e.crop_eq_drop hempty]

/-- Cropping is cropping on all edges. -/
theorem foldl_crop (r : Region) (b : Bitmap) (t : UInt8) :
    all.foldl (fun r e => e.crop r b t) r = r.crop b t :=
  rfl

/-- Cropping on some edges, one after the other, takes off transparent
columns and rows. -/
theorem foldl_crop_trims (es : List Edge) (r : Region) :
    Region.Trims b t (es.foldl (fun r e => e.crop r b t) r) r := by
  induction es generalizing r with
  | nil => exact Region.Trims.refl r
  | cons e es ih => exact (ih _).trans e.crop_trims

end Edge

-- ============================================================== loops

/-- Steps are taken for as long as there is one. A loop that takes more
steps than a bound fails. -/
def takeSteps {α : Type} (step : α → Except Error (Option α)) :
    Nat → α → Except Error α
  | 0, _ => .error (.panic "loop")
  | bound + 1, a => do
    match ← step a with
    | none => return a
    | some next => takeSteps step bound next

theorem takeSteps_none {α : Type} {step : α → Except Error (Option α)}
    {a : α} (h : step a = .ok none) (bound : Nat) :
    takeSteps step (bound + 1) a = .ok a := by
  rw [takeSteps, h]
  rfl

theorem takeSteps_some {α : Type} {step : α → Except Error (Option α)}
    {a next : α} (h : step a = .ok (some next)) (bound : Nat) :
    takeSteps step (bound + 1) a = takeSteps step bound next := by
  rw [takeSteps, h]
  rfl

theorem takeSteps_error {α : Type} {step : α → Except Error (Option α)}
    {a : α} {e : Error} (h : step a = .error e) (bound : Nat) :
    takeSteps step (bound + 1) a = .error e := by
  rw [takeSteps, h]
  rfl

/-- A loop whose steps keep something and lower a measure stops within a
bound above the measure, at a place where there is no step. -/
theorem takeSteps_of_measure {α : Type}
    {step : α → Except Error (Option α)} {p : α → Prop}
    {left : α → Nat}
    (hstep : ∀ a, p a → step a = .ok none ∨
      ∃ next, step a = .ok (some next) ∧ p next ∧ left next < left a)
    (bound : Nat) {a : α} (ha : p a) (hbound : left a < bound) :
    ∃ last, takeSteps step bound a = .ok last ∧ p last ∧
      step last = .ok none := by
  induction bound generalizing a with
  | zero => exact absurd hbound (Nat.not_lt_zero _)
  | succ bound ih =>
      rcases hstep a ha with hstop | ⟨next, hnext, hkeep, hless⟩
      · exact ⟨a, takeSteps_none hstop bound, ha, hstop⟩
      · rw [takeSteps_some hnext]
        exact ih hkeep (by omega)

/-- Loops agree when their steps do, as long as something holds that the
steps keep. -/
theorem map_takeSteps {α β : Type} {f : α → β} {p : α → Prop}
    {step : α → Except Error (Option α)}
    {step' : β → Except Error (Option β)}
    (hstep : ∀ a, p a → Option.map f <$> step a = step' (f a))
    (hkeep : ∀ a next, p a → step a = .ok (some next) → p next)
    (bound : Nat) {a : α} (ha : p a) :
    f <$> takeSteps step bound a = takeSteps step' bound (f a) := by
  induction bound generalizing a with
  | zero => rfl
  | succ bound ih =>
      have hagree := hstep a ha
      rcases hnext : step a with e | _ | next
      · rw [hnext] at hagree
        rw [takeSteps_error hnext, takeSteps_error hagree.symm]
        rfl
      · rw [hnext] at hagree
        rw [takeSteps_none hnext, takeSteps_none hagree.symm]
        rfl
      · rw [hnext] at hagree
        rw [takeSteps_some hnext, takeSteps_some hagree.symm]
        exact ih (hkeep a next ha hnext)

-- =================================================== offsets that fit

/-- The offsets of a region fit when words with a sign hold them. -/
theorem Region.fitsWords_iff :
    r.fitsWords = true ↔
      (-0x80000000 ≤ r.xOffset ∧ r.xOffset < 0x80000000) ∧
        -0x80000000 ≤ r.yOffset ∧ r.yOffset < 0x80000000 := by
  simp only [fitsWords, fitsWord, Bool.and_eq_true, decide_eq_true_eq]

/-- A region whose offsets must fit their words. -/
def Region.withinWords (r : Region) : Except Error Region :=
  if r.fitsWords then .ok r else .error (.panic "sprite offset")

theorem Region.withinWords_of_fits (h : r.fitsWords = true) :
    r.withinWords = .ok r :=
  if_pos h

/-- A region with an offset that does not fit ends in a panic. -/
theorem Region.withinWords_of_not_fits (h : r.fitsWords = false) :
    r.withinWords = .error (.panic "sprite offset") :=
  if_neg (by rw [h]; exact Bool.false_ne_true)

/-- Trimming moves offsets up, so where what is left of a region fits, so
does the region. -/
theorem Region.Trims.fitsWords (htrims : Trims b t r' r)
    (hx : -0x80000000 ≤ r.xOffset) (hy : -0x80000000 ≤ r.yOffset)
    (h : r'.fitsWords = true) : r.fitsWords = true := by
  have hleft := htrims.left
  have htop := htrims.top
  have hxOffset := htrims.xOffset
  have hyOffset := htrims.yOffset
  rw [fitsWords_iff] at h ⊢
  omega

namespace Edge

/-- One step of cropping an edge, with offsets that must fit. -/
def step (e : Edge) (b : Bitmap) (t : UInt8) (r : Region) :
    Except Error (Option Region) :=
  if r.isEmpty then .ok none
  else if e.isClear r b t then some <$> (e.drop 1 r).withinWords
  else .ok none

/-- Taking one line off makes a region smaller. -/
theorem sizes_drop (e : Edge) (h : r.isEmpty = false) :
    (e.drop 1 r).width + (e.drop 1 r).height + 1 =
      r.width + r.height := by
  obtain ⟨x, y, width, height, xOffset, yOffset⟩ := r
  obtain ⟨⟨w, rfl⟩, n, rfl⟩ := sizes_of_not_isEmpty h
  cases e <;> simp only [drop] <;> omega

/-- What is left of a region in a bitmap lies in the bitmap. -/
theorem isInside_drop (e : Edge) (hne : r.isEmpty = false)
    (h : r.isInside b = true) : (e.drop 1 r).isInside b = true := by
  obtain ⟨x, y, width, height, xOffset, yOffset⟩ := r
  obtain ⟨⟨w, rfl⟩, n, rfl⟩ := sizes_of_not_isEmpty hne
  simp only [Region.isInside, Bool.and_eq_true, decide_eq_true_eq] at h ⊢
  cases e <;> dsimp only [drop] <;> omega

/-- Taking lines off moves no offset down. -/
theorem offsets_drop (e : Edge) (n : Nat) (r : Region) :
    r.xOffset ≤ (e.drop n r).xOffset ∧
      r.yOffset ≤ (e.drop n r).yOffset := by
  cases e <;> simp only [drop] <;> omega

/-- A step drops one column or row of a region that is not empty. -/
theorem eq_of_step {e : Edge} (h : e.step b t r = .ok (some r')) :
    r.isEmpty = false ∧ r' = e.drop 1 r := by
  unfold step at h
  split at h
  next => cases h
  next hne =>
    refine ⟨Bool.eq_false_of_not_eq_true hne, ?_⟩
    split at h
    next =>
      obtain ⟨left, hleft, hsome⟩ := map_eq_ok.1 h
      cases hfits : (e.drop 1 r).fitsWords with
      | true =>
          rw [Region.withinWords_of_fits hfits] at hleft
          obtain rfl := Except.ok.inj hleft
          exact (Option.some.inj hsome).symm
      | false =>
          rw [Region.withinWords_of_not_fits hfits] at hleft
          cases hleft
    next => cases h

/-- The steps of an edge crop it, and fail exactly where an offset of what
is left does not fit. -/
theorem takeSteps_step (e : Edge) {bound : Nat} (hfits : r.fitsWords = true)
    (hbound : r.width + r.height < bound) :
    takeSteps (e.step b t) bound r = (e.crop r b t).withinWords := by
  induction bound generalizing r with
  | zero => exact absurd hbound (Nat.not_lt_zero _)
  | succ bound ih =>
      cases hempty : r.isEmpty with
      | true =>
          have hstep : e.step b t r = .ok none := if_pos hempty
          rw [takeSteps_none hstep, e.crop_of_isEmpty hempty,
            Region.withinWords_of_fits hfits]
      | false =>
          cases hclear : e.isClear r b t with
          | false =>
              have hstep : e.step b t r = .ok none := by
                simp [step, hempty, hclear]
              rw [takeSteps_none hstep, crop_of_not_isClear hempty hclear,
                Region.withinWords_of_fits hfits]
          | true =>
              have hstep : e.step b t r =
                  some <$> (e.drop 1 r).withinWords := by
                simp [step, hempty, hclear]
              have hsmaller := e.sizes_drop hempty
              cases hdrop : (e.drop 1 r).fitsWords with
              | true =>
                  rw [Region.withinWords_of_fits hdrop] at hstep
                  rw [takeSteps_some hstep, ih hdrop (by omega),
                    crop_drop hempty hclear]
              | false =>
                  rw [Region.withinWords_of_not_fits hdrop] at hstep
                  -- the offset that fails stays in what is left
                  have hleft : (e.crop r b t).fitsWords = false := by
                    rw [Bool.eq_false_iff]
                    intro hcrop
                    obtain ⟨hx, hy⟩ := e.offsets_drop 1 r
                    rw [← crop_drop hempty hclear] at hcrop
                    rw [Region.fitsWords_iff] at hfits
                    rw [e.crop_trims.fitsWords (by omega) (by omega)
                      hcrop] at hdrop
                    cases hdrop
                  rw [takeSteps_error hstep,
                    Region.withinWords_of_not_fits hleft]

end Edge

end Sprite

end GamePack
