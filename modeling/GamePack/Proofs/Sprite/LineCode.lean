import GamePack.Sprite.Scanline
import Mathlib.Tactic

/-!
Reading back the line code. `Decodes` says what a piece of code stands
for whatever bytes follow it; the code of a step, of a bridge, of the
pieces of a run and of a whole run are taken in turn, each in front of
code whose meaning is known. A line then decodes to its runs with empty
runs dropped and adjacent runs joined.

The runs of a row are separated, which makes them a fixed point of the
joining, and painting them gives the row again.
-/
namespace GamePack.Sprite

variable {width x gap : Nat} {code : Bytes} {runs : List Run}

-- ===================================================== control bytes

@[simp] theorem lastMark_true : lastMark true = 128 := rfl

@[simp] theorem lastMark_false : lastMark false = 0 := rfl

/-- The gap that is put into a control byte is read from it. -/
theorem gapOf_control (last : Bool) (h : gap ≤ maxGap) :
    gapOf (UInt8.ofNat (lastMark last + gap)) = gap := by
  unfold maxGap at h
  cases last <;> simp [gapOf] <;> omega

/-- The mark that is put into a control byte is read from it. -/
theorem isLast_control (last : Bool) (h : gap ≤ maxGap) :
    isLast (UInt8.ofNat (lastMark last + gap)) = last := by
  unfold maxGap at h
  cases last <;> simp [isLast] <;> omega

/-- The count of a step tells how many pixels it has. -/
theorem toNat_count {pixels : Bytes} (h : pixels.length ≤ maxRun) :
    (UInt8.ofNat pixels.length).toNat = pixels.length := by
  unfold maxRun at h
  simp
  omega

/-- What a bridge leaves of a gap fits a control byte. -/
theorem bridgedGap_le (gap : Nat) : bridgedGap gap ≤ maxGap := by
  unfold bridgedGap maxGap
  omega

/-- A bridge and what it leaves make up the gap. -/
theorem bridge_add_bridgedGap (gap : Nat) :
    (gap - 1) / maxGap * maxGap + bridgedGap gap = gap := by
  unfold bridgedGap maxGap
  omega

-- ==================================================== joining of runs

@[simp] theorem joinRun_empty (start : Nat) (later : List Run) :
    joinRun ⟨start, []⟩ later = later := rfl

/-- A run with nothing behind it stays alone. -/
theorem joinRun_nil {r : Run} (h : r.pixels ≠ []) :
    joinRun r [] = [r] := by
  simp [joinRun, h]

/-- A run that ends where the next starts becomes a part of it. -/
theorem joinRun_adjacent {r next : Run} {rest : List Run}
    (hne : r.pixels ≠ []) (h : next.start = r.stop) :
    joinRun r (next :: rest) =
      ⟨r.start, r.pixels ++ next.pixels⟩ :: rest := by
  simp [joinRun, hne, h]

/-- A run that ends before the next starts stays apart. -/
theorem joinRun_apart {r next : Run} {rest : List Run}
    (hne : r.pixels ≠ []) (h : next.start ≠ r.stop) :
    joinRun r (next :: rest) = r :: next :: rest := by
  simp [joinRun, hne, h]

/-- Two runs that touch end, joined, where the second does. -/
theorem stop_joined {r next : Run} (h : next.start = r.stop) :
    Run.stop ⟨r.start, r.pixels ++ next.pixels⟩ = next.stop := by
  simp only [Run.stop, List.length_append] at h ⊢
  omega

/-- A run cut in two is joined again. -/
theorem joinRun_joinRun {start : Nat} {front back : Bytes}
    (hf : front ≠ []) (hb : back ≠ []) (later : List Run) :
    joinRun ⟨start, front⟩ (joinRun ⟨start + front.length, back⟩ later) =
      joinRun ⟨start, front ++ back⟩ later := by
  cases later with
  | nil => simp [joinRun, Run.stop, hf, hb]
  | cons next rest =>
      by_cases h : next.start = start + (front.length + back.length)
      · simp [joinRun, Run.stop, hf, hb, h, Nat.add_assoc]
      · simp [joinRun, Run.stop, hf, hb, h, Nat.add_assoc]

-- ============================================== meaning of some code

/-- Some code stands for runs from a column on: with any bytes behind it,
decoding gives the runs and stops at the end of the code. -/
def Decodes (width x : Nat) (code : Bytes) (runs : List Run) : Prop :=
  ∀ rest, decodeFrom width x (code ++ rest) = .ok (runs, code.length)

/-- What may stand behind a step: nothing behind the last, and code with
a meaning behind any other. -/
inductive Follows (width x : Nat) : Bool → Bytes → List Run → Prop where
  | last : Follows width x true [] []
  | more {code : Bytes} {runs : List Run}
      (h : Decodes width x code runs) : Follows width x false code runs

/-- A step takes its control byte, its count and its pixels. -/
theorem length_encodeStep (last : Bool) (gap : Nat) (pixels : Bytes) :
    (encodeStep last gap pixels).length = 2 + pixels.length := by
  rw [encodeStep, List.length_cons, List.length_cons]
  omega

/-- A step inside the width is read, and behind it, unless it is the last,
what follows. -/
theorem decodeFrom_encodeStep {last : Bool} {pixels : Bytes}
    (hgap : gap ≤ maxGap) (hlen : pixels.length ≤ maxRun)
    (hwidth : x + gap + pixels.length ≤ width) (rest : Bytes) :
    decodeFrom width x (encodeStep last gap pixels ++ rest) =
      if last then .ok (joinRun ⟨x + gap, pixels⟩ [], 2 + pixels.length)
      else
        (fun behind => (joinRun ⟨x + gap, pixels⟩ behind.1,
          2 + pixels.length + behind.2)) <$>
        decodeFrom width (x + gap + pixels.length) rest := by
  have hin : ¬ width < x + gap + pixels.length := by omega
  have hrest : ¬ (pixels ++ rest).length < pixels.length := by simp
  rw [encodeStep, List.cons_append, List.cons_append, decodeFrom]
  simp only [gapOf_control last hgap, isLast_control last hgap,
    toNat_count hlen, if_neg hin, if_neg hrest, List.take_left',
    List.drop_left']
  cases decodeFrom width (x + gap + pixels.length) rest with
  | error cause => rfl
  | ok behind => rfl

/-- A step puts its run in front of what follows. -/
theorem decodes_step {last : Bool} {pixels : Bytes}
    (hgap : gap ≤ maxGap) (hlen : pixels.length ≤ maxRun)
    (hwidth : x + gap + pixels.length ≤ width)
    (h : Follows width (x + gap + pixels.length) last code runs) :
    Decodes width x (encodeStep last gap pixels ++ code)
      (joinRun ⟨x + gap, pixels⟩ runs) := by
  intro rest
  rw [List.append_assoc, decodeFrom_encodeStep hgap hlen hwidth]
  -- the mark tells the two ways on apart: after the last step
  -- decoding stops, so only the length of the step is left
  cases h with
  | last => simp [length_encodeStep]
  | more h =>
      rw [h rest, List.length_append, length_encodeStep]
      rfl

/-- A bridge moves the column and leaves no run. -/
theorem decodes_bridge {n : Nat} (hwidth : x + n * maxGap ≤ width)
    (h : Decodes width (x + n * maxGap) code runs) :
    Decodes width x ((List.replicate n [127, 0]).flatten ++ code) runs := by
  induction n generalizing x with
  | zero => simpa using h
  | succ n ih =>
      have hstop : x + maxGap + n * maxGap = x + (n + 1) * maxGap := by
        ring
      rw [← hstop] at hwidth h
      have hcode := ih hwidth h
      have hstep : Decodes width x (encodeStep false maxGap [] ++ _)
          (joinRun ⟨x + maxGap, []⟩ runs) :=
        decodes_step (Nat.le_refl maxGap) (Nat.zero_le _)
          (by simp only [List.length_nil]; omega) (.more hcode)
      rw [List.replicate_succ, List.flatten_cons, List.append_assoc]
      exact hstep

/-- The pieces of a run are joined in front of what follows. -/
theorem decodes_pieces {last : Bool} {pixels : Bytes}
    (hgap : gap ≤ maxGap) (hwidth : x + gap + pixels.length ≤ width)
    (h : Follows width (x + gap + pixels.length) last code runs) :
    Decodes width x (encodePieces last gap pixels ++ code)
      (joinRun ⟨x + gap, pixels⟩ runs) := by
  fun_induction encodePieces last gap pixels generalizing x with
  | case1 gap pixels hlong ih =>
      have hfront : (pixels.take maxRun).length = maxRun := by
        rw [List.length_take]
        omega
      have hpixels := List.take_append_drop maxRun pixels
      generalize pixels.take maxRun = front at *
      generalize pixels.drop maxRun = back at *
      subst hpixels
      simp only [List.length_append, ← Nat.add_assoc] at hlong hwidth h
      -- the other pieces follow without a gap, behind a full piece
      have hcode := ih (x := x + gap + front.length) (Nat.zero_le _)
        hwidth h
      have hstep := decodes_step hgap (Nat.le_of_eq hfront) (by omega)
        (.more hcode)
      have hne : front ≠ [] := by
        rw [← List.length_pos_iff, hfront]
        decide
      have hne' : back ≠ [] := by
        rw [← List.length_pos_iff]
        omega
      rw [List.append_assoc, ← joinRun_joinRun hne hne']
      exact hstep
  | case2 gap pixels hshort =>
      exact decodes_step hgap (by omega) hwidth h

/-- A run after a gap of any size. -/
theorem decodes_run {last : Bool} {pixels : Bytes}
    (hwidth : x + gap + pixels.length ≤ width)
    (h : Follows width (x + gap + pixels.length) last code runs) :
    Decodes width x (encodeRun last gap pixels ++ code)
      (joinRun ⟨x + gap, pixels⟩ runs) := by
  -- the gap splits into the bridge and what a control byte holds
  have hgap := bridge_add_bridgedGap gap
  rw [← hgap, ← Nat.add_assoc] at hwidth h
  have hpieces := decodes_pieces (bridgedGap_le gap) hwidth h
  have hbridge := decodes_bridge (by omega) hpieces
  rw [Nat.add_assoc, hgap, ← List.append_assoc] at hbridge
  exact hbridge

-- ======================================================= whole lines

/-- Runs in order from a column on: each starts at or after the end of
the one before. -/
def OrderedFrom : Nat → List Run → Prop
  | _, [] => True
  | x, r :: rest => x ≤ r.start ∧ OrderedFrom r.stop rest

/-- The column after the last of the runs from a column on. -/
def stopFrom : Nat → List Run → Nat
  | x, [] => x
  | _, r :: rest => stopFrom r.stop rest

/-- Runs that are ordered from a column on end there or later. -/
theorem le_stopFrom (h : OrderedFrom x runs) : x ≤ stopFrom x runs := by
  induction runs generalizing x with
  | nil => exact Nat.le_refl x
  | cons r rest ih =>
      have hrest := ih h.2
      have hstart := h.1
      simp only [stopFrom]
      unfold Run.stop at hrest ⊢
      omega

/-- Runs in order stop no later than the last of them. -/
theorem OrderedFrom.stop_le (h : OrderedFrom x runs)
    (hwidth : stopFrom x runs ≤ width) : ∀ r ∈ runs, r.stop ≤ width := by
  induction runs generalizing x with
  | nil => simp
  | cons r rest ih =>
      intro s hs
      rcases List.mem_cons.1 hs with rfl | hs
      · exact Nat.le_trans (le_stopFrom h.2) hwidth
      · exact ih h.2 hwidth s hs

/-- The code of ordered runs stands for the runs, joined. -/
theorem decodes_encodeFrom (hne : runs ≠ []) (ho : OrderedFrom x runs)
    (hwidth : stopFrom x runs ≤ width) :
    Decodes width x (encodeFrom x runs) (joinRuns runs) := by
  induction runs generalizing x with
  | nil => exact absurd rfl hne
  | cons r rest ih =>
      obtain ⟨hstart, hrest⟩ := ho
      have hx : x + (r.start - x) = r.start := by omega
      have hle := le_stopFrom hrest
      have hfollows : Follows width (x + (r.start - x) + r.pixels.length)
          rest.isEmpty (encodeFrom r.stop rest) (joinRuns rest) := by
        rw [hx]
        -- the mark of a run is set exactly where no run follows
        cases rest with
        | nil => exact .last
        | cons next rest => exact .more (ih (by simp) hrest hwidth)
      have hrun := decodes_run
        (by rw [hx]; exact Nat.le_trans hle hwidth) hfollows
      rw [hx] at hrun
      exact hrun

/-- A line decodes to its runs with empty runs dropped and adjacent runs
joined, and what follows the line is not touched. -/
theorem decodeLine_encodeLine_append (hne : runs ≠ [])
    (ho : OrderedFrom 0 runs) (hwidth : stopFrom 0 runs ≤ width)
    (rest : Bytes) :
    decodeLine (encodeLine runs ++ rest) width =
      .ok (joinRuns runs, (encodeLine runs).length) :=
  decodes_encodeFrom hne ho hwidth rest

end GamePack.Sprite
