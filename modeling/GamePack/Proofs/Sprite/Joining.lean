import GamePack.Proofs.Sprite.Scan

/-!
What joining makes of runs. The joined form of ordered runs has the same
pixels in the same columns, no run without pixels and no two runs without
a column between them, and it is the only row of runs like that: where a
run of one starts and stops can be read off the columns that have a
pixel. So what the code of a line is decoded to is known from the pixels
of its runs alone.
-/
namespace GamePack.Sprite

variable {x y column : Nat} {p : UInt8} {r s : Run}
  {runs rest later : List Run}

-- ============================================================ pixels

/-- A run has a pixel in a column. -/
def Run.HasPixel (r : Run) (column : Nat) (p : UInt8) : Prop :=
  ∃ i, r.pixels[i]? = some p ∧ column = r.start + i

/-- One of several runs has a pixel in a column. -/
def HasPixel (runs : List Run) (column : Nat) (p : UInt8) : Prop :=
  ∃ r ∈ runs, r.HasPixel column p

/-- A pixel of a run is in a column between its start and its end. -/
theorem Run.HasPixel.bounds (h : r.HasPixel column p) :
    r.start ≤ column ∧ column < r.stop := by
  obtain ⟨i, hpixel, rfl⟩ := h
  obtain ⟨hlt, -⟩ := List.getElem?_eq_some_iff.1 hpixel
  unfold Run.stop
  omega

/-- A run that is not empty has a pixel in its first column. -/
theorem Run.exists_hasPixel (h : r.pixels ≠ []) :
    ∃ p, r.HasPixel r.start p := by
  cases hpixels : r.pixels with
  | nil => exact absurd hpixels h
  | cons p pixels => exact ⟨p, 0, by rw [hpixels]; rfl, rfl⟩

/-- The pixels of a run cut in two are those of its parts. -/
theorem Run.hasPixel_append (start : Nat) (front back : Bytes)
    (column : Nat) (p : UInt8) :
    Run.HasPixel ⟨start, front ++ back⟩ column p ↔
      Run.HasPixel ⟨start, front⟩ column p ∨
        Run.HasPixel ⟨start + front.length, back⟩ column p := by
  simp only [Run.HasPixel]
  constructor
  · rintro ⟨i, hpixel, hcolumn⟩
    by_cases hi : i < front.length
    · rw [List.getElem?_append_left hi] at hpixel
      exact .inl ⟨i, hpixel, hcolumn⟩
    · have hle := Nat.not_lt.1 hi
      rw [List.getElem?_append_right hle] at hpixel
      exact .inr ⟨i - front.length, hpixel, by omega⟩
  · rintro (⟨i, hpixel, hcolumn⟩ | ⟨i, hpixel, hcolumn⟩)
    · obtain ⟨hi, -⟩ := List.getElem?_eq_some_iff.1 hpixel
      exact ⟨i, by rw [List.getElem?_append_left hi]; exact hpixel,
        hcolumn⟩
    · refine ⟨front.length + i, ?_, by omega⟩
      rw [List.getElem?_append_right (by omega), Nat.add_sub_cancel_left]
      exact hpixel

@[simp] theorem not_hasPixel_nil : ¬ HasPixel [] column p := by
  simp [HasPixel]

@[simp] theorem hasPixel_cons :
    HasPixel (r :: rest) column p ↔
      r.HasPixel column p ∨ HasPixel rest column p := by
  simp [HasPixel]

/-- No pixel of separated runs is in front of the column they are
separated from. -/
theorem SeparatedFrom.le_of_hasPixel (h : SeparatedFrom x runs)
    (hpixel : HasPixel runs column p) : x ≤ column := by
  induction runs generalizing x with
  | nil => exact absurd hpixel not_hasPixel_nil
  | cons r rest ih =>
      obtain ⟨hstart, -, hrest⟩ := h
      rcases hasPixel_cons.1 hpixel with hr | hlater
      · exact Nat.le_trans hstart hr.bounds.1
      · have hcolumn := ih hrest hlater
        unfold Run.stop at hcolumn
        omega

/-- A pixel behind a first run belongs to the runs behind it. -/
theorem hasPixel_behind (h : SeparatedFrom (r.stop + 1) rest)
    (hrest : HasPixel rest column p)
    (hpixel : HasPixel (r :: later) column p) :
    HasPixel later column p := by
  have hcolumn := h.le_of_hasPixel hrest
  rcases hasPixel_cons.1 hpixel with hr | hlater
  · have hbefore := hr.bounds.2
    omega
  · exact hlater

-- =========================================================== joining

/-- A run put in front of others adds its own pixels. -/
theorem hasPixel_joinRun :
    HasPixel (joinRun r later) column p ↔
      r.HasPixel column p ∨ HasPixel later column p := by
  obtain ⟨start, pixels⟩ := r
  by_cases hempty : pixels = []
  · subst hempty
    have hnone : ¬ Run.HasPixel ⟨start, []⟩ column p := by
      rintro ⟨i, hpixel, -⟩
      cases hpixel
    rw [joinRun_empty, or_iff_right hnone]
  · cases later with
    | nil => rw [joinRun_nil hempty, hasPixel_cons]
    | cons next rest =>
        by_cases hnext : next.start = start + pixels.length
        · have happ := Run.hasPixel_append start pixels next.pixels
            column p
          rw [← hnext] at happ
          rw [joinRun_adjacent hempty hnext, hasPixel_cons, happ,
            hasPixel_cons, or_assoc]
        · rw [joinRun_apart hempty hnext, hasPixel_cons]

/-- Joining keeps the pixels in their columns. -/
theorem hasPixel_joinRuns (runs : List Run) :
    HasPixel (joinRuns runs) column p ↔ HasPixel runs column p := by
  induction runs with
  | nil => exact Iff.rfl
  | cons r rest ih =>
      show HasPixel (joinRun r (joinRuns rest)) column p ↔ _
      rw [hasPixel_joinRun, ih, hasPixel_cons]

/-- A run that is put in front of separated runs to its right either
joins the first of them or stays apart from it. -/
theorem separatedFrom_joinRun (hstart : x ≤ r.start)
    (h : SeparatedFrom r.stop later) :
    SeparatedFrom x (joinRun r later) := by
  obtain ⟨start, pixels⟩ := r
  by_cases hempty : pixels = []
  · subst hempty
    rw [joinRun_empty]
    exact h.of_le hstart
  · cases later with
    | nil =>
        rw [joinRun_nil hempty]
        exact ⟨hstart, hempty, trivial⟩
    | cons next rest =>
        obtain ⟨hnext, hne, hrest⟩ := h
        by_cases hadjacent : next.start = start + pixels.length
        · rw [joinRun_adjacent hempty hadjacent]
          refine ⟨hstart, by simp [hempty], ?_⟩
          rw [stop_joined hadjacent]
          exact hrest
        · rw [joinRun_apart hempty hadjacent]
          refine ⟨hstart, hempty, ?_, hne, hrest⟩
          exact Nat.lt_of_le_of_ne hnext (Ne.symm hadjacent)

/-- The joined form of ordered runs is separated. -/
theorem separatedFrom_joinRuns (h : OrderedFrom x runs) :
    SeparatedFrom x (joinRuns runs) := by
  induction runs generalizing x with
  | nil => trivial
  | cons r rest ih => exact separatedFrom_joinRun h.1 (ih h.2)

-- ======================================================== uniqueness

/-- The pixels of a first run are found in the first of other separated
runs that start in the same column, when these have all its pixels: the
column behind that one has none, so it does not stop earlier. -/
theorem pixels_of_hasPixel (hstart : r.start = s.start)
    (hs : SeparatedFrom y (s :: later))
    (h : ∀ column p, r.HasPixel column p →
      HasPixel (s :: later) column p)
    {i : Nat} (hi : r.pixels[i]? = some p) : s.pixels[i]? = some p := by
  have hlater := hs.2.2
  rcases hasPixel_cons.1 (h (r.start + i) p ⟨i, hi, rfl⟩) with hin | hout
  · obtain ⟨j, hj, hcolumn⟩ := hin
    obtain rfl : i = j := by omega
    exact hj
  · -- then `r` reaches past `s`, so it has a pixel right behind `s`
    have hbehind := hlater.le_of_hasPixel hout
    obtain ⟨hlt, -⟩ := List.getElem?_eq_some_iff.1 hi
    have hshort : s.pixels.length < r.pixels.length := by
      unfold Run.stop at hbehind
      omega
    have hgap : r.HasPixel s.stop r.pixels[s.pixels.length] := by
      refine ⟨s.pixels.length, List.getElem?_eq_getElem hshort, ?_⟩
      unfold Run.stop
      omega
    rcases hasPixel_cons.1 (h _ _ hgap) with hin | hout
    · have := hin.bounds.2
      omega
    · have := hlater.le_of_hasPixel hout
      omega

/-- Separated runs with the same pixels in the same columns are the
same. -/
theorem SeparatedFrom.ext {a b : List Run} (ha : SeparatedFrom x a)
    (hb : SeparatedFrom y b)
    (h : ∀ column p, HasPixel a column p ↔ HasPixel b column p) :
    a = b := by
  induction a generalizing b x y with
  | nil =>
      cases b with
      | nil => rfl
      | cons s later =>
          obtain ⟨p, hp⟩ := Run.exists_hasPixel hb.2.1
          exact absurd ((h _ _).2 (hasPixel_cons.2 (.inl hp)))
            not_hasPixel_nil
  | cons r rest ih =>
      cases b with
      | nil =>
          obtain ⟨p, hp⟩ := Run.exists_hasPixel ha.2.1
          exact absurd ((h _ _).1 (hasPixel_cons.2 (.inl hp)))
            not_hasPixel_nil
      | cons s later =>
          -- each first column is among the columns of the other
          have hrs : SeparatedFrom r.start (r :: rest) :=
            ⟨Nat.le_refl _, ha.2⟩
          have hss : SeparatedFrom s.start (s :: later) :=
            ⟨Nat.le_refl _, hb.2⟩
          obtain ⟨p, hp⟩ := Run.exists_hasPixel ha.2.1
          obtain ⟨q, hq⟩ := Run.exists_hasPixel hb.2.1
          have hle := hss.le_of_hasPixel
            ((h _ _).1 (hasPixel_cons.2 (.inl hp)))
          have hge := hrs.le_of_hasPixel
            ((h _ _).2 (hasPixel_cons.2 (.inl hq)))
          have hstart : r.start = s.start := Nat.le_antisymm hge hle
          have hpixels : r.pixels = s.pixels := by
            apply List.ext_getElem?
            intro i
            apply Option.ext
            intro p
            constructor
            · exact pixels_of_hasPixel hstart hb fun column p hpixel =>
                (h column p).1 (hasPixel_cons.2 (.inl hpixel))
            · exact pixels_of_hasPixel hstart.symm ha
                fun column p hpixel =>
                  (h column p).2 (hasPixel_cons.2 (.inl hpixel))
          have heq : r = s := by
            cases r
            cases s
            rw [Run.mk.injEq]
            exact ⟨hstart, hpixels⟩
          subst heq
          -- what is not in the first run is behind it on both sides
          have hrest : rest = later := by
            apply ih ha.2.2 hb.2.2
            intro column p
            constructor
            · intro hpixel
              exact hasPixel_behind ha.2.2 hpixel
                ((h _ _).1 (hasPixel_cons.2 (.inr hpixel)))
            · intro hpixel
              exact hasPixel_behind hb.2.2 hpixel
                ((h _ _).2 (hasPixel_cons.2 (.inr hpixel)))
          rw [hrest]

/-- Runs joined: the pixels of the given runs, in runs of which none is
empty and no two are adjacent. -/
structure IsJoined (runs joined : List Run) : Prop where
  separated : SeparatedFrom 0 joined
  pixels : ∀ column p, HasPixel joined column p ↔ HasPixel runs column p

/-- The joined form is the only one. -/
theorem isJoined_iff {joined : List Run} (h : OrderedFrom 0 runs) :
    IsJoined runs joined ↔ joined = joinRuns runs := by
  have hself : IsJoined runs (joinRuns runs) :=
    ⟨separatedFrom_joinRuns h, fun _ _ => hasPixel_joinRuns runs⟩
  constructor
  · intro hjoined
    apply hjoined.separated.ext hself.separated
    intro column p
    rw [hjoined.pixels, hself.pixels]
  · rintro rfl
    exact hself

-- ======================================================== round trip

/-- A line of ordered runs is decoded from the front of any bytes that
start with its code, and exactly the code is used. What comes out is the
runs joined, which for the runs of a row that is not clear throughout
are these runs. -/
theorem decodeLine_encodeLine_joined (tail : Bytes) :
    (∀ (runs : List Run) (width : Nat), runs ≠ [] →
      OrderedFrom 0 runs → stopFrom 0 runs ≤ width →
      decodeLine (encodeLine runs ++ tail) width =
          .ok (joinRuns runs, (encodeLine runs).length) ∧
        ∀ joined, IsJoined runs joined ↔ joined = joinRuns runs) ∧
    ∀ (row : Bytes) (t : UInt8), (∃ p ∈ row, p ≠ t) →
      decodeLine (encodeLine (scanLine row t) ++ tail) row.length =
        .ok (scanLine row t, (encodeLine (scanLine row t)).length) := by
  constructor
  · intro runs width hne hordered hwidth
    exact ⟨decodeLine_encodeLine_append hne hordered hwidth tail,
      fun joined => isJoined_iff hordered⟩
  · intro row t hopaque
    apply decodeLine_scanLine_append
    intro hnone
    obtain ⟨p, hp, hne⟩ := hopaque
    exact hne (scanFrom_eq_nil.1 hnone p hp)

/-- A run in two parts, an empty run between them, and a run behind a gap
that takes three steps. -/
def patchedRuns : List Run :=
  [⟨0, [5]⟩, ⟨1, []⟩, ⟨1, [6]⟩, ⟨300, [7]⟩]

/-- The run in two parts comes back as one, and the runs of a row come
back as they were scanned, with other bytes behind the code. -/
theorem decodeLine_encodeLine_joined_patched :
    (patchedRuns ≠ [] ∧ OrderedFrom 0 patchedRuns ∧
      stopFrom 0 patchedRuns ≤ 301) ∧
    decodeLine (encodeLine patchedRuns ++ [128, 0]) 301 =
      .ok ([⟨0, [5, 6]⟩, ⟨300, [7]⟩], (encodeLine patchedRuns).length) ∧
    IsJoined patchedRuns [⟨0, [5, 6]⟩, ⟨300, [7]⟩] ∧
    (∃ p ∈ ([0, 9, 9, 0] : Bytes), p ≠ 0) ∧
    decodeLine (encodeLine (scanLine [0, 9, 9, 0] 0) ++ [128, 0]) 4 =
      .ok ([⟨1, [9, 9]⟩],
        (encodeLine (scanLine [0, 9, 9, 0] 0)).length) := by
  have hne : patchedRuns ≠ [] := by decide
  have hordered : OrderedFrom 0 patchedRuns := by
    simp [patchedRuns, OrderedFrom, Run.stop]
  have hstop : stopFrom 0 patchedRuns ≤ 301 := by decide
  have hopaque : ∃ p ∈ ([0, 9, 9, 0] : Bytes), p ≠ 0 := by decide
  obtain ⟨hruns, hrows⟩ := decodeLine_encodeLine_joined [128, 0]
  obtain ⟨hdecode, hjoined⟩ := hruns patchedRuns 301 hne hordered hstop
  exact ⟨⟨hne, hordered, hstop⟩, hdecode, (hjoined _).2 rfl, hopaque,
    hrows [0, 9, 9, 0] 0 hopaque⟩

end GamePack.Sprite
