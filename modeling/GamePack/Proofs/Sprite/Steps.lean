import GamePack.Proofs.Sprite.Joining

/-!
What can be read as a line. `IsSteps` is the grammar of the line code: a
row of steps inside the width, each a gap, a count and as many pixels,
of which the last one is marked, with the runs that they stand for.
Reading succeeds exactly on bytes that start with such a row, and uses
the bytes of the row; so what holds of every line that can be read is one
induction on its steps.

The last section bounds the code of runs by any row of steps that stands
for them. A step adds its two bytes and its pixels to the row, and to
the code at most as many: a gap of one step takes at most one more step
of a bridge, and pixels that fit one step at most one more piece.
-/
namespace GamePack.Sprite

variable {width x gap used : Nat} {bytes code : Bytes} {r : Run}
  {runs later : List Run}

-- =============================================================== steps

/-- A row of steps from a column on, with the runs it stands for. -/
inductive IsSteps (width : Nat) : Nat → Bytes → List Run → Prop where
  | last {x gap : Nat} {pixels : Bytes} (hgap : gap ≤ maxGap)
      (hlen : pixels.length ≤ maxRun)
      (hwidth : x + gap + pixels.length ≤ width) :
      IsSteps width x (encodeStep true gap pixels)
        (joinRun ⟨x + gap, pixels⟩ [])
  | more {x gap : Nat} {pixels code : Bytes} {runs : List Run}
      (hgap : gap ≤ maxGap) (hlen : pixels.length ≤ maxRun)
      (hwidth : x + gap + pixels.length ≤ width)
      (h : IsSteps width (x + gap + pixels.length) code runs) :
      IsSteps width x (encodeStep false gap pixels ++ code)
        (joinRun ⟨x + gap, pixels⟩ runs)

/-- No control byte gives a gap above the longest. -/
theorem gapOf_le (control : UInt8) : gapOf control ≤ maxGap := by
  unfold gapOf maxGap
  omega

/-- A control byte is its mark and its gap. -/
theorem control_eq (control : UInt8) :
    UInt8.ofNat (lastMark (isLast control) + gapOf control) = control := by
  apply UInt8.toNat_inj.1
  have hlt := control.toNat_lt
  by_cases hlast : 128 ≤ control.toNat
  · simp [isLast, gapOf, hlast]
    omega
  · simp [isLast, gapOf, hlast]
    omega

/-- A row of steps is decoded to the runs it stands for. -/
theorem IsSteps.decodes (h : IsSteps width x code runs) :
    Decodes width x code runs := by
  induction h with
  | last hgap hlen hwidth =>
      have hstep := decodes_step hgap hlen hwidth .last
      rwa [List.append_nil] at hstep
  | more hgap hlen hwidth _ ih =>
      exact decodes_step hgap hlen hwidth (.more ih)

/-- What can be read starts with a step inside the width, which either is
the last or stands in front of more that can be read. -/
theorem exists_step (h : decodeFrom width x bytes = .ok (runs, used)) :
    ∃ last gap pixels rest, bytes = encodeStep last gap pixels ++ rest ∧
      gap ≤ maxGap ∧ pixels.length ≤ maxRun ∧
      x + gap + pixels.length ≤ width ∧
      if last then
        runs = joinRun ⟨x + gap, pixels⟩ [] ∧ used = 2 + pixels.length
      else ∃ later n,
        decodeFrom width (x + gap + pixels.length) rest = .ok (later, n) ∧
          runs = joinRun ⟨x + gap, pixels⟩ later ∧
            used = 2 + pixels.length + n := by
  unfold decodeFrom at h
  split at h
  next control count rest =>
    dsimp only at h
    split at h
    next => cases h
    next hwidth =>
    split at h
    next => cases h
    next hlen =>
    have hcut : (rest.take count.toNat).length = count.toNat :=
      List.length_take_of_le (Nat.not_lt.1 hlen)
    refine ⟨isLast control, gapOf control, rest.take count.toNat,
      rest.drop count.toNat, ?_, gapOf_le control, ?_, ?_, ?_⟩
    · rw [encodeStep, control_eq, hcut, UInt8.ofNat_toNat,
        List.cons_append, List.cons_append, List.take_append_drop]
    · rw [hcut]
      exact Nat.le_of_lt_succ count.toNat_lt
    · rw [hcut]
      exact Nat.not_lt.1 hwidth
    · rw [hcut]
      split at h
      next hlast =>
        rw [if_pos hlast]
        cases h
        exact ⟨rfl, rfl⟩
      next hmore =>
        rw [if_neg hmore]
        split at h
        next => cases h
        next later n hlater =>
          cases h
          exact ⟨later, n, hlater, rfl, rfl⟩
  next => cases h

/-- What can be read starts with a row of steps, which is what is used of
it. -/
theorem exists_isSteps
    (h : decodeFrom width x bytes = .ok (runs, used)) :
    ∃ code rest, bytes = code ++ rest ∧ used = code.length ∧
      IsSteps width x code runs := by
  -- each step takes bytes away, so the induction is on how many there are
  induction hn : bytes.length using Nat.strong_induction_on
    generalizing x bytes runs used with
  | _ n ih =>
      obtain ⟨last, gap, pixels, rest, rfl, hgap, hlen, hwidth, hnext⟩ :=
        exists_step h
      have hstep := length_encodeStep last gap pixels
      cases last with
      | true =>
          obtain ⟨rfl, rfl⟩ := hnext
          exact ⟨_, rest, rfl, hstep.symm, .last hgap hlen hwidth⟩
      | false =>
          obtain ⟨later, m, hlater, rfl, rfl⟩ := hnext
          rw [List.length_append, hstep] at hn
          obtain ⟨code, behind, rfl, rfl, hsteps⟩ :=
            ih rest.length (by omega) hlater rfl
          refine ⟨_, behind, (List.append_assoc _ _ _).symm, ?_,
            .more hgap hlen hwidth hsteps⟩
          rw [List.length_append, hstep]

/-- Exactly the bytes that start with a row of steps can be read. -/
theorem decodeLine_ok_iff :
    decodeLine bytes width = .ok (runs, used) ↔
      ∃ code rest, bytes = code ++ rest ∧ used = code.length ∧
        IsSteps width 0 code runs := by
  constructor
  · exact exists_isSteps
  · rintro ⟨code, rest, rfl, rfl, hsteps⟩
    exact hsteps.decodes rest

-- ================================================ the runs of steps

/-- Joining a run to later ones does not make them end later. -/
theorem stopFrom_joinRun_le (hstart : x ≤ r.start) (hstop : r.stop ≤ width)
    (h : stopFrom r.stop later ≤ width) :
    stopFrom x (joinRun r later) ≤ width := by
  obtain ⟨start, pixels⟩ := r
  by_cases hempty : pixels = []
  · subst hempty
    rw [joinRun_empty]
    cases later with
    | nil => exact Nat.le_trans hstart hstop
    | cons next rest => exact h
  · cases later with
    | nil =>
        rw [joinRun_nil hempty]
        exact hstop
    | cons next rest =>
        by_cases hadjacent : next.start = start + pixels.length
        · rw [joinRun_adjacent hempty hadjacent, stopFrom,
            stop_joined hadjacent]
          exact h
        · rw [joinRun_apart hempty hadjacent]
          exact h

/-- Steps stand for runs that are separated and lie inside the width. -/
theorem IsSteps.separated_and_inside (h : IsSteps width x code runs) :
    SeparatedFrom x runs ∧ stopFrom x runs ≤ width := by
  induction h with
  | @last x gap pixels hgap hlen hwidth =>
      have hstart : x ≤ x + gap := Nat.le_add_right x gap
      exact ⟨separatedFrom_joinRun hstart trivial,
        stopFrom_joinRun_le hstart hwidth hwidth⟩
  | @more x gap pixels code runs hgap hlen hwidth _ ih =>
      have hstart : x ≤ x + gap := Nat.le_add_right x gap
      exact ⟨separatedFrom_joinRun hstart ih.1,
        stopFrom_joinRun_le hstart hwidth ih.2⟩

-- ========================================================= code length

/-- A bridge is an empty step, of two bytes, for each longest gap that
lies in front of the last column. -/
theorem length_bridge (gap : Nat) :
    (bridge gap).length = 2 * ((gap - 1) / maxGap) := by
  unfold bridge
  rw [List.length_flatten, List.map_replicate, List.sum_replicate_nat]
  show _ * 2 = _
  omega

/-- A run takes a piece more for each full piece in front of its last
pixel. -/
theorem length_encodePieces (last : Bool) (gap : Nat) (pixels : Bytes) :
    (encodePieces last gap pixels).length =
      2 + 2 * ((pixels.length - 1) / maxRun) + pixels.length := by
  fun_induction encodePieces last gap pixels with
  | case1 gap pixels hlong ih =>
      rw [List.length_append, ih, length_encodeStep, List.length_take,
        List.length_drop]
      unfold maxRun at hlong ⊢
      omega
  | case2 gap pixels hshort =>
      rw [length_encodeStep]
      unfold maxRun at hshort ⊢
      omega

/-- A run takes the steps that bridge its gap and the pieces of its
pixels, two bytes each, and its pixels. -/
theorem length_encodeRun (last : Bool) (gap : Nat) (pixels : Bytes) :
    (encodeRun last gap pixels).length =
      2 * ((gap - 1) / maxGap) +
        (2 + 2 * ((pixels.length - 1) / maxRun) + pixels.length) := by
  rw [encodeRun, List.length_append, length_bridge, length_encodePieces]

/-- A run that fits a step adds to the code of separated runs at most
what the step takes. -/
theorem length_encodeFrom_joinRun_le {pixels : Bytes} (hgap : gap ≤ maxGap)
    (hlen : pixels.length ≤ maxRun)
    (h : SeparatedFrom (x + gap + pixels.length) later) :
    (encodeFrom x (joinRun ⟨x + gap, pixels⟩ later)).length ≤
      2 + pixels.length +
        (encodeFrom (x + gap + pixels.length) later).length := by
  unfold maxGap at hgap
  unfold maxRun at hlen
  by_cases hempty : pixels = []
  · subst hempty
    rw [joinRun_empty]
    cases later with
    | nil => exact Nat.zero_le _
    | cons next rest =>
        -- the gap is bridged with that of the next run
        simp only [encodeFrom, List.length_append, length_encodeRun,
          List.length_nil, maxGap]
        omega
  · have hpos := List.length_pos_iff.2 hempty
    cases later with
    | nil =>
        rw [joinRun_nil hempty]
        simp only [encodeFrom, List.length_append, length_encodeRun,
          List.length_nil, maxGap, maxRun]
        omega
    | cons next rest =>
        have hnext := List.length_pos_iff.2 h.2.1
        by_cases hadjacent : next.start = x + gap + pixels.length
        · -- the pixels are cut into pieces with those of the next run
          rw [joinRun_adjacent hempty hadjacent]
          simp only [encodeFrom, stop_joined (r := ⟨x + gap, pixels⟩)
            hadjacent, List.length_append, length_encodeRun, maxGap,
            maxRun]
          omega
        · rw [joinRun_apart hempty hadjacent]
          simp only [encodeFrom, Run.stop, List.length_append,
            length_encodeRun, maxGap, maxRun]
          omega

/-- The code of the runs that steps stand for is no longer than the
steps. -/
theorem IsSteps.length_encodeFrom_le (h : IsSteps width x code runs) :
    (encodeFrom x runs).length ≤ code.length := by
  induction h with
  | @last x gap pixels hgap hlen hwidth =>
      have hrun : (encodeFrom x (joinRun ⟨x + gap, pixels⟩ [])).length ≤
          2 + pixels.length + 0 :=
        length_encodeFrom_joinRun_le hgap hlen trivial
      rw [length_encodeStep]
      exact hrun
  | @more x gap pixels code runs hgap hlen hwidth hsteps ih =>
      have hrun := length_encodeFrom_joinRun_le hgap hlen
        hsteps.separated_and_inside.1
      rw [List.length_append, length_encodeStep]
      omega

/-- What is used of a line is at least as long as the code of its runs,
and this code is read as the same runs: of all bytes that are read as
these runs, none are fewer. -/
theorem encodeLine_shortest
    (h : decodeLine bytes width = .ok (runs, used)) :
    (encodeLine runs).length ≤ used ∧ used ≤ bytes.length ∧
      (runs ≠ [] → ∀ rest, decodeLine (encodeLine runs ++ rest) width =
        .ok (runs, (encodeLine runs).length)) := by
  obtain ⟨code, behind, rfl, rfl, hsteps⟩ := decodeLine_ok_iff.1 h
  obtain ⟨hseparated, hinside⟩ := hsteps.separated_and_inside
  refine ⟨hsteps.length_encodeFrom_le, ?_, fun hne rest => ?_⟩
  · rw [List.length_append]
    exact Nat.le_add_right _ _
  · have hcode := decodeLine_encodeLine_append hne hseparated.ordered
      hinside rest
    rwa [hseparated.joinRuns_eq] at hcode

/-- A gap in three steps and a run in two, and a byte behind the line. -/
def wastefulLine : Bytes :=
  [100, 0, 0, 0, 28, 1, 9, 0, 0, 128, 2, 8, 7, 55]

/-- The line is decoded up to the byte behind it; the code of its run is
not longer and is read as the same run. -/
theorem encodeLine_shortest_wasteful :
    decodeLine wastefulLine 131 = .ok ([⟨128, [9, 8, 7]⟩], 13) ∧
      (encodeLine [⟨128, [9, 8, 7]⟩]).length ≤ 13 ∧
      decodeLine (encodeLine [⟨128, [9, 8, 7]⟩] ++ [55]) 131 =
        .ok ([⟨128, [9, 8, 7]⟩],
          (encodeLine [⟨128, [9, 8, 7]⟩]).length) := by
  have h : decodeLine wastefulLine 131 = .ok ([⟨128, [9, 8, 7]⟩], 13) := by
    decide +kernel
  obtain ⟨hle, -, hread⟩ := encodeLine_shortest h
  exact ⟨h, hle, hread (by simp) [55]⟩

end GamePack.Sprite
