import GamePack.Proofs.Sprite.Drawing

/-!
The maximal runs of a row. A run is maximal when its pixels stand in the
row side by side, none of them is transparent, and on either side there
is a transparent pixel or the row has an end. Scanning finds exactly
these runs.

Both directions go through the columns. The runs of a scan have a pixel
just where the row has one that is not transparent, and they are
separated, so a run is bounded where the next column has none. Maximal
runs that share a column are one and the same, so a maximal run is the
run of the scan that has its first pixel.
-/
namespace GamePack.Sprite

variable {x column : Nat} {p t : UInt8} {row : Bytes} {r s : Run}
  {runs : List Run}

-- ============================================ the columns of the scan

/-- A pixel is put in front of runs like a run of its own. -/
theorem addPixel_eq_joinRun (x : Nat) (pixel : UInt8) (runs : List Run) :
    addPixel x pixel runs = joinRun ⟨x, [pixel]⟩ runs := by
  cases runs with
  | nil => rfl
  | cons r rest =>
      by_cases hnext : r.start = x + 1
      · rw [addPixel_adjacent hnext, joinRun_adjacent (by simp) hnext]
        rfl
      · rw [addPixel_apart hnext, joinRun_apart (by simp) hnext]

/-- A run of one pixel has that pixel. -/
theorem Run.hasPixel_single {pixel : UInt8} :
    Run.HasPixel ⟨x, [pixel]⟩ column p ↔ column = x ∧ p = pixel := by
  constructor
  · intro h
    obtain ⟨i, hi, hcolumn⟩ := h
    cases i with
    | zero => exact ⟨hcolumn, (Option.some.inj hi).symm⟩
    | succ i => cases hi
  · intro h
    exact ⟨0, by rw [h.2]; rfl, h.1⟩

/-- A pixel of a row that is not transparent is the first or stands in
the rest. -/
theorem exists_shown_cons {pixel : UInt8} :
    (∃ i, (pixel :: row)[i]? = some p ∧ column = x + i ∧ p ≠ t) ↔
      (column = x ∧ p = pixel) ∧ p ≠ t ∨
        ∃ i, row[i]? = some p ∧ column = x + 1 + i ∧ p ≠ t := by
  constructor
  · intro h
    obtain ⟨i, hi, hcolumn, hne⟩ := h
    cases i with
    | zero => exact .inl ⟨⟨hcolumn, (Option.some.inj hi).symm⟩, hne⟩
    | succ i => exact .inr ⟨i, hi, by omega, hne⟩
  · intro h
    rcases h with ⟨⟨hcolumn, hp⟩, hne⟩ | ⟨i, hi, hcolumn, hne⟩
    · exact ⟨0, by rw [hp]; rfl, hcolumn, hne⟩
    · exact ⟨i + 1, hi, by omega, hne⟩

/-- The runs found from a column on have the pixels of the row that are
not transparent. -/
theorem hasPixel_scanFrom (t : UInt8) (x : Nat) (row : Bytes) :
    HasPixel (scanFrom t x row) column p ↔
      ∃ i, row[i]? = some p ∧ column = x + i ∧ p ≠ t := by
  induction row generalizing x with
  | nil => simp [scanFrom]
  | cons pixel row ih =>
      rw [exists_shown_cons]
      unfold scanFrom
      by_cases h : pixel = t
      · have hclear : ¬ ((column = x ∧ p = pixel) ∧ p ≠ t) := by
          intro hfirst
          exact hfirst.2 (hfirst.1.2.trans h)
        simp only [if_pos h]
        rw [ih, or_iff_right hclear]
      · have hshown : (column = x ∧ p = pixel) ∧ p ≠ t ↔
            column = x ∧ p = pixel :=
          and_iff_left_of_imp fun hfirst => hfirst.2 ▸ h
        simp only [if_neg h]
        rw [addPixel_eq_joinRun, hasPixel_joinRun, Run.hasPixel_single,
          ih, hshown]

/-- The scanned runs have the pixels of the row that are not transparent,
and no others. -/
theorem hasPixel_scanLine (row : Bytes) (t : UInt8) :
    HasPixel (scanLine row t) column p ↔ row[column]? = some p ∧ p ≠ t := by
  unfold scanLine
  rw [hasPixel_scanFrom]
  constructor
  · intro h
    obtain ⟨i, hi, hcolumn, hne⟩ := h
    rw [Nat.zero_add] at hcolumn
    exact ⟨hcolumn ▸ hi, hne⟩
  · intro h
    exact ⟨column, h.1, (Nat.zero_add column).symm, h.2⟩

/-- Separated runs that overlap or touch are the same run. -/
theorem SeparatedFrom.eq_of_touch (h : SeparatedFrom x runs) (hr : r ∈ runs)
    (hs : s ∈ runs) (hrs : r.start ≤ s.stop) (hsr : s.start ≤ r.stop) :
    r = s := by
  by_contra hne
  have hsymm : Std.Symm fun r s : Run =>
      r.stop < s.start ∨ s.stop < r.start :=
    ⟨fun _ _ => Or.symm⟩
  have hapart : runs.Pairwise fun r s =>
      r.stop < s.start ∨ s.stop < r.start :=
    h.pairwise.imp Or.inl
  rcases hapart.forall hr hs hne with hlt | hlt
  · omega
  · omega

-- ======================================================= maximal runs

/-- A maximal run of a row: pixels that stand side by side in the row,
none of them transparent, with a transparent pixel or an end of the row
on either side. -/
structure IsMaximal (row : Bytes) (t : UInt8) (r : Run) : Prop where
  nonempty : r.pixels ≠ []
  stands : r.pixels <+: row.drop r.start
  shown : ∀ p ∈ r.pixels, p ≠ t
  left : r.start = 0 ∨ row[r.start - 1]? = some t
  right : r.stop = row.length ∨ row[r.stop]? = some t

/-- The row has the pixels of a maximal run in its columns. -/
theorem IsMaximal.exists_pixel (h : IsMaximal row t r)
    (hstart : r.start ≤ column) (hstop : column < r.stop) :
    ∃ p, row[column]? = some p ∧ p ≠ t := by
  unfold Run.stop at hstop
  have hlt : column - r.start < r.pixels.length := by omega
  have hpixel := List.prefix_iff_getElem?.1 h.stands _ hlt
  rw [List.getElem?_drop, Nat.add_sub_cancel' hstart] at hpixel
  exact ⟨_, hpixel, h.shown _ (List.getElem_mem hlt)⟩

/-- A maximal run has a pixel. -/
theorem IsMaximal.start_lt_stop (h : IsMaximal row t r) :
    r.start < r.stop := by
  have hpos := List.length_pos_iff.2 h.nonempty
  unfold Run.stop
  omega

/-- Of two maximal runs that share a column none starts later. -/
theorem IsMaximal.start_le (hr : IsMaximal row t r) (hs : IsMaximal row t s)
    (hshare : r.start < s.stop) : r.start ≤ s.start := by
  by_contra hlate
  -- the column in front of the later start lies in the other run
  have hcolumn : s.start ≤ r.start - 1 := by omega
  obtain ⟨p, hp, hne⟩ := hs.exists_pixel hcolumn (by omega)
  rcases hr.left with hfirst | hclear
  · omega
  · rw [hclear] at hp
    exact hne (Option.some.inj hp).symm

/-- Of two maximal runs that share a column none stops sooner. -/
theorem IsMaximal.stop_le (hr : IsMaximal row t r) (hs : IsMaximal row t s)
    (hshare : s.start < r.stop) : s.stop ≤ r.stop := by
  by_contra hsoon
  -- the column behind the sooner stop lies in the other run
  have hcolumn : s.start ≤ r.stop := Nat.le_of_lt hshare
  obtain ⟨p, hp, hne⟩ := hs.exists_pixel hcolumn (by omega)
  rcases hr.right with hlast | hclear
  · obtain ⟨hlt, -⟩ := List.getElem?_eq_some_iff.1 hp
    omega
  · rw [hclear] at hp
    exact hne (Option.some.inj hp).symm

/-- Maximal runs that share a column are the same. -/
theorem IsMaximal.eq_of_share (hr : IsMaximal row t r)
    (hs : IsMaximal row t s) (hrs : r.start < s.stop)
    (hsr : s.start < r.stop) : r = s := by
  have hstart : r.start = s.start :=
    Nat.le_antisymm (hr.start_le hs hrs) (hs.start_le hr hsr)
  have hstop : r.stop = s.stop :=
    Nat.le_antisymm (hs.stop_le hr hrs) (hr.stop_le hs hsr)
  have hlen : r.pixels.length = s.pixels.length := by
    unfold Run.stop at hstop
    omega
  have hpixels : r.pixels = s.pixels := by
    have hstands := hs.stands
    rw [← hstart] at hstands
    have hfront := List.prefix_of_prefix_length_le hr.stands hstands
      (Nat.le_of_eq hlen)
    exact hfront.eq_of_length hlen
  cases r
  cases s
  rw [Run.mk.injEq]
  exact ⟨hstart, hpixels⟩

-- ========================================================== scanning

/-- A column of the row right beside a run that a scan finds is
transparent. -/
theorem clear_beside (hr : r ∈ scanLine row t) (hcolumn : column < row.length)
    (hbeside : column + 1 = r.start ∨ column = r.stop) :
    row[column]? = some t := by
  rw [List.getElem?_eq_getElem hcolumn, Option.some.injEq]
  by_contra hne
  have hsep := separatedFrom_scanLine row t
  -- the run with this pixel touches the given one, so it is the same
  obtain ⟨s, hs, hpixel⟩ := (hasPixel_scanLine row t).2
    ⟨List.getElem?_eq_getElem hcolumn, hne⟩
  obtain ⟨hstart, hstop⟩ := hpixel.bounds
  have hlt := Nat.lt_of_le_of_lt hstart hstop
  have hle : r.start ≤ r.stop := by
    unfold Run.stop
    omega
  obtain rfl : r = s := hsep.eq_of_touch hr hs (by omega) (by omega)
  omega

/-- Every run that a scan finds is maximal. -/
theorem isMaximal_of_mem_scanLine (h : r ∈ scanLine row t) :
    IsMaximal row t r := by
  have hsep := separatedFrom_scanLine row t
  have hne := hsep.ne_nil r h
  have hpixel : ∀ i (hi : i < r.pixels.length),
      row[r.start + i]? = some r.pixels[i] ∧ r.pixels[i] ≠ t := by
    intro i hi
    rw [← hasPixel_scanLine]
    exact ⟨r, h, i, List.getElem?_eq_getElem hi, rfl⟩
  -- the last pixel of the run stands in the row
  have hpos := List.length_pos_iff.2 hne
  obtain ⟨hinside, -⟩ := List.getElem?_eq_some_iff.1
    (hpixel (r.pixels.length - 1) (by omega)).1
  refine ⟨hne, ?_, ?_, ?_, ?_⟩
  · rw [List.prefix_iff_getElem?]
    intro i hi
    rw [List.getElem?_drop]
    exact (hpixel i hi).1
  · intro p hp
    obtain ⟨i, hi, rfl⟩ := List.getElem_of_mem hp
    exact (hpixel i hi).2
  · by_cases hfirst : r.start = 0
    · exact .inl hfirst
    · exact .inr (clear_beside h (by omega) (.inl (by omega)))
  · by_cases hlast : r.stop = row.length
    · exact .inl hlast
    · have hcolumn : r.stop < row.length := by
        unfold Run.stop at hlast ⊢
        omega
      exact .inr (clear_beside h hcolumn (.inr rfl))

/-- A scan finds exactly the maximal runs of a row. -/
theorem mem_scanLine : r ∈ scanLine row t ↔ IsMaximal row t r := by
  constructor
  · exact isMaximal_of_mem_scanLine
  · intro h
    -- the run with the first pixel of a maximal run is that run
    obtain ⟨p, hp⟩ := h.exists_pixel (Nat.le_refl _) h.start_lt_stop
    obtain ⟨s, hs, hpixel⟩ := (hasPixel_scanLine row t).2 hp
    obtain ⟨hstart, hstop⟩ := hpixel.bounds
    have hmaximal := isMaximal_of_mem_scanLine hs
    have hshare := Nat.lt_of_le_of_lt hstart h.start_lt_stop
    rw [h.eq_of_share hmaximal hstop hshare]
    exact hs

/-- Painted over a transparent row of the same length, the runs that a
scan finds give the row. -/
theorem drawRuns_scanLine (row : Bytes) (t : UInt8) :
    SpriteImage.drawRuns 0 (List.replicate row.length t)
        (scanLine row t) = .ok row := by
  have hsep := separatedFrom_scanLine row t
  have hdrawn : SpriteImage.drawRuns 0
      ([] ++ (List.replicate (row.length - 0) t ++ [])) (scanLine row t) =
        .ok ([] ++ (paintLine t row.length (scanLine row t) ++ [])) :=
    SpriteImage.drawRuns_eq hsep.ordered (stopFrom_scanLine_le row t) rfl
  rw [paintLine_scanLine] at hdrawn
  simpa using hdrawn

end GamePack.Sprite
