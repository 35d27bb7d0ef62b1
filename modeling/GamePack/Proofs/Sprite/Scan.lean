import GamePack.Proofs.Sprite.LineCode
import GamePack.Sprite.Image

/-!
The runs of a row. Scanning gives separated runs: none is empty and at
least one pixel lies between two of them. Separated runs are their own
joined form, so the code of a row decodes to the runs that were scanned,
and painting these gives the row. `linePixels_encodeRow` is the whole
way for one row, and `IsCode` is what makes a stored line readable among
others: its code ends where its last run says.
-/
namespace GamePack.Sprite

variable {x : Nat} {runs : List Run} {t : UInt8} {row : Bytes}

/-- Runs from a column on, none empty and no two adjacent. -/
def SeparatedFrom : Nat → List Run → Prop
  | _, [] => True
  | x, r :: rest =>
    x ≤ r.start ∧ r.pixels ≠ [] ∧ SeparatedFrom (r.stop + 1) rest

/-- Runs that are separated from a column on are so from an earlier one.
-/
theorem SeparatedFrom.of_le {y : Nat} (h : SeparatedFrom x runs)
    (hle : y ≤ x) : SeparatedFrom y runs := by
  cases runs with
  | nil => trivial
  | cons r rest => exact ⟨Nat.le_trans hle h.1, h.2⟩

theorem SeparatedFrom.ordered (h : SeparatedFrom x runs) :
    OrderedFrom x runs := by
  induction runs generalizing x with
  | nil => trivial
  | cons r rest ih =>
      exact ⟨h.1, ih (h.2.2.of_le (Nat.le_succ r.stop))⟩

theorem SeparatedFrom.le_start (h : SeparatedFrom x runs) :
    ∀ r ∈ runs, x ≤ r.start := by
  induction runs generalizing x with
  | nil => simp
  | cons r rest ih =>
      intro s hs
      rcases List.mem_cons.1 hs with rfl | hs
      · exact h.1
      · have hrest := ih h.2.2 s hs
        have hstart := h.1
        unfold Run.stop at hrest
        omega

theorem SeparatedFrom.ne_nil (h : SeparatedFrom x runs) :
    ∀ r ∈ runs, r.pixels ≠ [] := by
  induction runs generalizing x with
  | nil => simp
  | cons r rest ih =>
      intro s hs
      rcases List.mem_cons.1 hs with rfl | hs
      · exact h.2.1
      · exact ih h.2.2 s hs

/-- A column lies between any two separated runs. -/
theorem SeparatedFrom.pairwise (h : SeparatedFrom x runs) :
    runs.Pairwise fun r later => r.stop < later.start := by
  induction runs generalizing x with
  | nil => exact List.Pairwise.nil
  | cons r rest ih =>
      exact List.pairwise_cons.2 ⟨h.2.2.le_start, ih h.2.2⟩

/-- A run in front of separated runs stays apart when a column lies
between. -/
theorem joinRun_of_separated {r : Run} (hne : r.pixels ≠ [])
    (h : SeparatedFrom (r.stop + 1) runs) : joinRun r runs = r :: runs := by
  cases runs with
  | nil => exact joinRun_nil hne
  | cons next rest =>
      have hgap : next.start ≠ r.stop := by
        have := h.1
        omega
      exact joinRun_apart hne hgap

/-- There is nothing to join in separated runs. -/
theorem SeparatedFrom.joinRuns_eq (h : SeparatedFrom x runs) :
    joinRuns runs = runs := by
  induction runs generalizing x with
  | nil => rfl
  | cons r rest ih =>
      obtain ⟨-, hne, hrest⟩ := h
      show joinRun r (joinRuns rest) = r :: rest
      rw [ih hrest, joinRun_of_separated hne hrest]

-- ========================================================== scanning

/-- A pixel right in front of a run makes it longer. -/
theorem addPixel_adjacent {pixel : UInt8} {r : Run} {rest : List Run}
    (h : r.start = x + 1) :
    addPixel x pixel (r :: rest) = ⟨x, pixel :: r.pixels⟩ :: rest :=
  if_pos h

/-- A pixel that is not right in front of a run is a run of its own. -/
theorem addPixel_apart {pixel : UInt8} {r : Run} {rest : List Run}
    (h : r.start ≠ x + 1) :
    addPixel x pixel (r :: rest) = ⟨x, [pixel]⟩ :: r :: rest :=
  if_neg h

/-- A run that is made longer at its front ends where it did. -/
theorem stop_adjacent {pixel : UInt8} {r : Run} (h : r.start = x + 1) :
    Run.stop ⟨x, pixel :: r.pixels⟩ = r.stop := by
  simp only [Run.stop, List.length_cons, h]
  omega

/-- With a pixel there is a run. -/
theorem addPixel_ne_nil (x : Nat) (pixel : UInt8) (runs : List Run) :
    addPixel x pixel runs ≠ [] := by
  unfold addPixel
  split
  · simp
  · split <;> simp

/-- A pixel in front of separated runs either joins the first or stays
apart from it. -/
theorem separatedFrom_addPixel (pixel : UInt8)
    (h : SeparatedFrom (x + 1) runs) :
    SeparatedFrom x (addPixel x pixel runs) := by
  cases runs with
  | nil => exact ⟨Nat.le_refl x, by simp, trivial⟩
  | cons r rest =>
      obtain ⟨hstart, hne, hrest⟩ := h
      by_cases hnext : r.start = x + 1
      · rw [addPixel_adjacent hnext]
        refine ⟨Nat.le_refl x, by simp, ?_⟩
        rw [stop_adjacent hnext]
        exact hrest
      · rw [addPixel_apart hnext]
        refine ⟨Nat.le_refl x, by simp, ?_, hne, hrest⟩
        simp only [Run.stop, List.length_cons, List.length_nil]
        omega

/-- The runs of the rest of a row are separated. -/
theorem separatedFrom_scanFrom (t : UInt8) (x : Nat) (row : Bytes) :
    SeparatedFrom x (scanFrom t x row) := by
  induction row generalizing x with
  | nil => trivial
  | cons pixel row ih =>
      unfold scanFrom
      by_cases h : pixel = t
      · simp only [if_pos h]
        exact (ih (x + 1)).of_le (Nat.le_succ x)
      · simp only [if_neg h]
        exact separatedFrom_addPixel pixel (ih (x + 1))

/-- A pixel inside the width keeps the runs inside it. -/
theorem stopFrom_addPixel_le {width : Nat} (pixel : UInt8)
    (hx : x + 1 ≤ width) (h : stopFrom (x + 1) runs ≤ width) :
    stopFrom x (addPixel x pixel runs) ≤ width := by
  cases runs with
  | nil => exact hx
  | cons r rest =>
      by_cases hnext : r.start = x + 1
      · rw [addPixel_adjacent hnext, stopFrom, stop_adjacent hnext]
        exact h
      · rw [addPixel_apart hnext]
        exact h

/-- The runs of a row end inside it. -/
theorem stopFrom_scanFrom_le (t : UInt8) (x : Nat) (row : Bytes) :
    stopFrom x (scanFrom t x row) ≤ x + row.length := by
  induction row generalizing x with
  | nil => exact Nat.le_refl x
  | cons pixel row ih =>
      have hrest := ih (x + 1)
      have hlen : x + 1 + row.length = x + (pixel :: row).length := by
        rw [List.length_cons]
        omega
      rw [hlen] at hrest
      unfold scanFrom
      by_cases h : pixel = t
      · simp only [if_pos h]
        cases hruns : scanFrom t (x + 1) row with
        | nil => exact Nat.le_add_right x _
        | cons r rest =>
            rw [hruns] at hrest
            exact hrest
      · simp only [if_neg h]
        exact stopFrom_addPixel_le pixel (by omega) hrest

theorem separatedFrom_scanLine (row : Bytes) (t : UInt8) :
    SeparatedFrom 0 (scanLine row t) :=
  separatedFrom_scanFrom t 0 row

/-- The runs of a row end inside it. -/
theorem stopFrom_scanLine_le (row : Bytes) (t : UInt8) :
    stopFrom 0 (scanLine row t) ≤ row.length := by
  have h := stopFrom_scanFrom_le t 0 row
  rw [Nat.zero_add] at h
  exact h

/-- A row has no runs exactly when it is transparent throughout. -/
theorem scanFrom_eq_nil : scanFrom t x row = [] ↔ ∀ p ∈ row, p = t := by
  induction row generalizing x with
  | nil => simp [scanFrom]
  | cons pixel row ih =>
      unfold scanFrom
      by_cases h : pixel = t
      · simp [h, ih]
      · simp [h, addPixel_ne_nil]

-- ========================================================== painting

/-- A column before the first run is transparent. -/
theorem paintFrom_of_separated {width : Nat} (hx : x < width)
    (h : SeparatedFrom (x + 1) runs) :
    paintFrom t width x runs = t :: paintFrom t width (x + 1) runs := by
  cases runs with
  | nil =>
      have hlen : width - x = width - (x + 1) + 1 := by omega
      simp only [paintFrom, hlen, List.replicate_succ]
  | cons r rest =>
      have hstart := h.1
      have hlen : r.start - x = r.start - (x + 1) + 1 := by omega
      simp only [paintFrom, hlen, List.replicate_succ, List.cons_append]

/-- A pixel in front of runs is painted in front of them. -/
theorem paintFrom_addPixel (t : UInt8) (width x : Nat) (pixel : UInt8)
    (runs : List Run) :
    paintFrom t width x (addPixel x pixel runs) =
      pixel :: paintFrom t width (x + 1) runs := by
  cases runs with
  | nil => simp [addPixel, paintFrom, Run.stop]
  | cons r rest =>
      by_cases hnext : r.start = x + 1
      · rw [addPixel_adjacent hnext, paintFrom, stop_adjacent hnext]
        simp [paintFrom, hnext]
      · rw [addPixel_apart hnext]
        simp [paintFrom, Run.stop]

/-- Painting the runs of a row gives the row. -/
theorem paintFrom_scanFrom (t : UInt8) (x : Nat) (row : Bytes) :
    paintFrom t (x + row.length) x (scanFrom t x row) = row := by
  induction row generalizing x with
  | nil => simp [scanFrom, paintFrom]
  | cons pixel row ih =>
      have hrest := ih (x + 1)
      have hlen : x + 1 + row.length = x + (pixel :: row).length := by
        rw [List.length_cons]
        omega
      rw [hlen] at hrest
      have hsep := separatedFrom_scanFrom t (x + 1) row
      unfold scanFrom
      by_cases h : pixel = t
      · simp only [if_pos h]
        rw [paintFrom_of_separated (by omega) hsep, hrest, h]
      · simp only [if_neg h]
        rw [paintFrom_addPixel, hrest]

/-- Painting the runs of a row gives the row. -/
theorem paintLine_scanLine (t : UInt8) (row : Bytes) :
    paintLine t row.length (scanLine row t) = row := by
  have h := paintFrom_scanFrom t 0 row
  rw [Nat.zero_add] at h
  exact h

-- ======================================================= code of rows

/-- Bytes that are the code of one line: whatever follows them, reading
a line gives some runs and uses exactly these bytes. -/
def IsCode (width : Nat) (data : Bytes) : Prop :=
  ∃ runs, ∀ rest, decodeLine (data ++ rest) width = .ok (runs, data.length)

/-- The code of the runs of a row decodes to these runs, and what
follows the code is not touched. -/
theorem decodeLine_scanLine_append (hne : scanLine row t ≠ [])
    (rest : Bytes) :
    decodeLine (encodeLine (scanLine row t) ++ rest) row.length =
      .ok (scanLine row t, (encodeLine (scanLine row t)).length) := by
  have hsep := separatedFrom_scanLine row t
  have h := decodeLine_encodeLine_append hne hsep.ordered
    (stopFrom_scanLine_le row t) rest
  rw [hsep.joinRuns_eq] at h
  exact h

end GamePack.Sprite

namespace GamePack.SpriteImage

open Sprite

variable {t : UInt8} {row : Bytes}

/-- A row has no code exactly when it is transparent throughout. -/
theorem encodeRow_eq_none : encodeRow t row = none ↔ ∀ p ∈ row, p = t := by
  unfold encodeRow
  rw [← scanFrom_eq_nil (x := 0)]
  show (if (scanFrom t 0 row).isEmpty then none else _) = none ↔ _
  cases scanFrom t 0 row <;> simp

/-- What a row is stored as is the code of a line. -/
theorem isCode_of_encodeRow {data : Bytes}
    (h : encodeRow t row = some data) : IsCode row.length data := by
  unfold encodeRow at h
  by_cases hruns : scanLine row t = []
  · simp [hruns] at h
  · simp only [List.isEmpty_iff, if_neg hruns, Option.some.injEq] at h
    exact ⟨_, h ▸ decodeLine_scanLine_append hruns⟩

/-- Decoding and painting the code of a row gives the row. -/
theorem linePixels_encodeRow (t : UInt8) (row : Bytes) :
    linePixels t row.length (encodeRow t row) = .ok row := by
  by_cases hruns : scanLine row t = []
  · have hclear : ∀ p ∈ row, p = t := scanFrom_eq_nil.1 hruns
    rw [encodeRow_eq_none.2 hclear]
    show Except.ok (List.replicate row.length t) = .ok row
    rw [← List.eq_replicate_of_mem hclear]
  · have hcode := decodeLine_scanLine_append hruns []
    rw [List.append_nil] at hcode
    have hrow : encodeRow t row = some (encodeLine (scanLine row t)) := by
      simp [encodeRow, hruns]
    rw [hrow]
    unfold linePixels
    simp only [hcode, paintLine_scanLine]

end GamePack.SpriteImage
