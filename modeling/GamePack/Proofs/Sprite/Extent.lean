import GamePack.Proofs.Sprite.Steps

/-!
How far a line reaches. A line ends with the step that is marked, so the
bytes of the line alone tell where it ends and what it stands for: bytes
behind it change nothing, and bytes that stop short of it cannot be read
for want of the rest.

The second half is one induction on the steps of the line. Bytes that
stop short either end inside the first step, which then lacks its head or
some of its pixels, or hold the step whole and stop short in what follows
it. No other failure comes up on the way, since the step lies inside the
width whether or not there is more behind it.
-/
namespace GamePack.Sprite

variable {width x gap used n : Nat} {bytes code front : Bytes}
  {runs : List Run}

-- ======================================================= missing bytes

/-- A failure that says that bytes are missing. -/
def IsTruncation (cause : ReadError) : Prop :=
  cause = .corrupt .truncatedLine ∨ cause = .corrupt .truncatedRun

/-- Reading a line fails since bytes are missing. -/
def LacksBytes (width x : Nat) (bytes : Bytes) : Prop :=
  ∃ cause, decodeFrom width x bytes = .error cause ∧ IsTruncation cause

/-- A piece of a step that is not the whole step lacks bytes. -/
theorem lacksBytes_of_cut {last : Bool} {pixels : Bytes}
    (hlen : pixels.length ≤ maxRun) (hgap : gap ≤ maxGap)
    (hwidth : x + gap + pixels.length ≤ width)
    (hn : n < 2 + pixels.length) :
    LacksBytes width x ((encodeStep last gap pixels).take n) := by
  cases n with
  | zero => exact ⟨_, by simp [decodeFrom], .inl rfl⟩
  | succ n =>
      cases n with
      | zero => exact ⟨_, by simp [encodeStep, decodeFrom], .inl rfl⟩
      | succ n =>
          -- the head is there, and tells how many pixels there must be
          have hin : ¬ width < x + gap + pixels.length := by omega
          have hshort : (pixels.take n).length < pixels.length := by
            rw [List.length_take]
            omega
          refine ⟨.corrupt .truncatedRun, ?_, .inr rfl⟩
          simp only [encodeStep, List.take_succ_cons]
          rw [decodeFrom]
          simp only [gapOf_control last hgap, toNat_count hlen,
            if_neg hin, if_pos hshort]

/-- What lacks bytes lacks them behind a step that is not the last. -/
theorem LacksBytes.behind_step {pixels : Bytes} (hgap : gap ≤ maxGap)
    (hlen : pixels.length ≤ maxRun)
    (hwidth : x + gap + pixels.length ≤ width)
    (h : LacksBytes width (x + gap + pixels.length) bytes) :
    LacksBytes width x (encodeStep false gap pixels ++ bytes) := by
  obtain ⟨cause, hcause, htruncation⟩ := h
  refine ⟨cause, ?_, htruncation⟩
  rw [decodeFrom_encodeStep hgap hlen hwidth, hcause]
  rfl

/-- The front of a step with bytes behind it is either short of the step
or the step with a front of these bytes. -/
theorem front_of_step {last : Bool} {pixels : Bytes}
    (h : front <+: encodeStep last gap pixels ++ bytes) :
    (∃ n < 2 + pixels.length,
        front = (encodeStep last gap pixels).take n) ∨
      ∃ behind, front = encodeStep last gap pixels ++ behind ∧
        behind <+: bytes := by
  have hstep := length_encodeStep last gap pixels
  by_cases hshort : front.length < 2 + pixels.length
  · refine .inl ⟨front.length, hshort, ?_⟩
    rw [List.prefix_iff_eq_take] at h
    rw [h, List.length_take, List.length_append, hstep,
      Nat.min_eq_left (by omega),
      List.take_append_of_le_length (by omega)]
  · obtain ⟨behind, hbehind⟩ := List.prefix_of_prefix_length_le
      (List.prefix_append _ bytes) h (by omega)
    rw [← hbehind, List.prefix_append_right_inj] at h
    exact .inr ⟨behind, hbehind.symm, h⟩

/-- What stops short of a row of steps lacks bytes. -/
theorem IsSteps.lacksBytes (h : IsSteps width x code runs)
    (hfront : front <+: code) (hne : front ≠ code) :
    LacksBytes width x front := by
  induction h generalizing front with
  | @last x gap pixels hgap hlen hwidth =>
      rw [← List.append_nil (encodeStep true gap pixels)] at hfront
      rcases front_of_step hfront with ⟨n, hn, hcut⟩ | ⟨behind, hstep, hnil⟩
      · rw [hcut]
        exact lacksBytes_of_cut hlen hgap hwidth hn
      · -- nothing stands behind the last step, so this is all of it
        rw [List.prefix_nil.1 hnil, List.append_nil] at hstep
        exact absurd hstep hne
  | @more x gap pixels code runs hgap hlen hwidth _ ih =>
      rcases front_of_step hfront with ⟨n, hn, hcut⟩ | ⟨behind, hstep, hcode⟩
      · rw [hcut]
        exact lacksBytes_of_cut hlen hgap hwidth hn
      · rw [hstep]
        apply LacksBytes.behind_step hgap hlen hwidth
        apply ih hcode
        intro hwhole
        rw [hstep, hwhole] at hne
        exact hne rfl

-- ============================================================== extent

/-- A line that can be read takes some of the bytes from the front. Its
runs have pixels, lie inside the width and leave a column between any two
of them. The bytes that it takes are read alike whatever follows them,
and no less than all of them can be read. -/
theorem decodeLine_extent
    (h : decodeLine bytes width = .ok (runs, used)) :
    used ≤ bytes.length ∧
      (∀ r ∈ runs, r.pixels ≠ [] ∧ r.stop ≤ width) ∧
      runs.Pairwise (fun r later => r.stop < later.start) ∧
      (∀ rest, decodeLine (bytes.take used ++ rest) width =
        .ok (runs, used)) ∧
      ∀ front, front <+: bytes.take used → front ≠ bytes.take used →
        ∃ cause, decodeLine front width = .error cause ∧
          IsTruncation cause := by
  obtain ⟨code, behind, rfl, rfl, hsteps⟩ := decodeLine_ok_iff.1 h
  obtain ⟨hseparated, hinside⟩ := hsteps.separated_and_inside
  have hcode : (code ++ behind).take code.length = code :=
    List.take_left' rfl
  refine ⟨?_, ?_, hseparated.pairwise, ?_, ?_⟩
  · rw [List.length_append]
    exact Nat.le_add_right _ _
  · intro r hr
    exact ⟨hseparated.ne_nil r hr, hseparated.ordered.stop_le hinside r hr⟩
  · intro rest
    rw [hcode]
    exact hsteps.decodes rest
  · intro front hfront hne
    rw [hcode] at hfront hne
    exact hsteps.lacksBytes hfront hne

/-- Two runs that join up, a gap in two steps, and a last step without
pixels, with a byte behind the line. -/
def raggedLine : Bytes :=
  [2, 1, 9, 0, 2, 8, 7, 127, 0, 0, 0, 3, 1, 6, 128, 0, 55]

/-- The line uses all but its last byte, whatever stands behind, and is
refused as truncated when it is cut inside its second step. -/
theorem decodeLine_extent_ragged :
    decodeLine raggedLine 140 =
        .ok ([⟨2, [9, 8, 7]⟩, ⟨135, [6]⟩], 16) ∧
      (16 ≤ raggedLine.length ∧ Run.stop ⟨135, [6]⟩ ≤ 140 ∧
        Run.stop ⟨2, [9, 8, 7]⟩ < 135) ∧
      decodeLine (raggedLine.take 16 ++ [128, 1]) 140 =
        .ok ([⟨2, [9, 8, 7]⟩, ⟨135, [6]⟩], 16) ∧
      ([2, 1, 9, 0, 2, 8] <+: raggedLine.take 16 ∧
        [2, 1, 9, 0, 2, 8] ≠ raggedLine.take 16) ∧
      ∃ cause, decodeLine [2, 1, 9, 0, 2, 8] 140 = .error cause ∧
        IsTruncation cause := by
  have h : decodeLine raggedLine 140 =
      .ok ([⟨2, [9, 8, 7]⟩, ⟨135, [6]⟩], 16) := by
    decide +kernel
  have hfront : [2, 1, 9, 0, 2, 8] <+: raggedLine.take 16 := by decide
  have hne : [2, 1, 9, 0, 2, 8] ≠ raggedLine.take 16 := by decide
  obtain ⟨hused, hruns, hapart, hrest, hshort⟩ := decodeLine_extent h
  have hstop := (hruns ⟨135, [6]⟩ (by simp)).2
  have hgap := (List.pairwise_cons.1 hapart).1 ⟨135, [6]⟩ (by simp)
  exact ⟨h, ⟨hused, hstop, hgap⟩, hrest [128, 1], ⟨hfront, hne⟩,
    hshort _ hfront hne⟩

end GamePack.Sprite
