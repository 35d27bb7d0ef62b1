import GamePack.Proofs.Sprite.Maximal
import GamePack.Proofs.Sprite.Words

/-!
Scanning a row with one cursor. Two loops share it: the outer one moves it
over transparent pixels, and where a run starts the inner one moves it to
the end of the run, which is then cut out of the row. `LineScan` is where
the loops stand and `LineScan.step` what they do next.

What carries the loops is `LineScan.Fits`: the runs found so far, followed
by what the rest of the row still has, are the runs of the row. In the
inner loop the rest is joined to the part of the run that lies behind the
cursor, so moving on cuts the run at another place and changes nothing.
Every step moves the cursor or hands it from one loop to the other, which
happens at most once in a column; this bounds the steps.
-/
namespace GamePack.Sprite

variable {x start : Nat} {p t : UInt8} {row : Bytes}

-- ========================================================== the loops

/-- A scan on its way along a row. -/
structure LineScan where
  /-- The column that is looked at. -/
  cursor : Nat
  /-- Where the run starts that the inner loop goes along, if it does. -/
  since : Option Nat
  /-- The runs that were found, from left to right. -/
  runs : List Run
  /-- The columns that the cursor has moved over, the latest last. -/
  passed : List Nat
  deriving DecidableEq, Repr

/-- Whether a row has a pixel in a column that is not transparent. -/
def shows (row : Bytes) (t : UInt8) (x : Nat) : Bool :=
  row[x]?.any (· != t)

namespace LineScan

variable {s next : LineScan}

/-- A scan that has not looked at the row yet. -/
def fresh : LineScan := ⟨0, none, [], []⟩

/-- The cursor moves over its column. -/
def advance (s : LineScan) : LineScan :=
  { s with cursor := s.cursor + 1, passed := s.passed ++ [s.cursor] }

/-- A run starts at the cursor. -/
def enter (s : LineScan) : LineScan := { s with since := some s.cursor }

/-- The run from a column on ends at the cursor. -/
def leave (s : LineScan) (row : Bytes) (start : Nat) :
    Except Error LineScan := do
  let pixels ← sliceOf row start s.cursor
  return { s with since := none, runs := s.runs ++ [⟨start, pixels⟩] }

/-- What the loops do next; nothing, when the outer loop has come to the
end of the row. -/
def step (row : Bytes) (t : UInt8) (s : LineScan) :
    Except Error (Option LineScan) :=
  match s.since with
  | none =>
    if row.length ≤ s.cursor then .ok none
    else if shows row t s.cursor then .ok (some s.enter)
    else .ok (some s.advance)
  | some start =>
    if shows row t s.cursor then .ok (some s.advance)
    else some <$> s.leave row start

/-- The pixels from a column to the cursor. -/
def along (s : LineScan) (row : Bytes) (start : Nat) : Bytes :=
  (row.take s.cursor).drop start

/-- The runs that are still to come: those of the rest of the row, the
first of them joined to what the inner loop has gone along. -/
def pending (s : LineScan) (row : Bytes) (t : UInt8) : List Run :=
  match s.since with
  | none => scanFrom t s.cursor (row.drop s.cursor)
  | some start =>
    joinRun ⟨start, s.along row start⟩
      (scanFrom t s.cursor (row.drop s.cursor))

/-- A bound on the steps that are left: two for each column, and one when
the cursor is handed over right here. -/
def left (row : Bytes) (t : UInt8) (s : LineScan) : Nat :=
  2 * (row.length - s.cursor) +
    if s.since.isNone = shows row t s.cursor then 1 else 0

end LineScan

-- =================================================== the rest of a row

/-- Where a row shows something, there is a pixel that is not
transparent. -/
theorem exists_of_shows (h : shows row t x = true) :
    ∃ p, row[x]? = some p ∧ p ≠ t := by
  unfold shows at h
  cases hp : row[x]? with
  | none => simp [hp] at h
  | some p => exact ⟨p, rfl, by simpa [hp] using h⟩

/-- Where a row shows nothing, its pixel is transparent. -/
theorem clear_of_not_shows (h : shows row t x = false)
    (hx : x < row.length) : row[x]? = some t := by
  rw [shows, List.getElem?_eq_getElem hx] at h
  rw [List.getElem?_eq_getElem hx]
  simpa using h

/-- What a row has from a column on begins with the pixel there. -/
theorem drop_of_getElem? (h : row[x]? = some p) :
    row.drop x = p :: row.drop (x + 1) := by
  obtain ⟨hx, hp⟩ := List.getElem?_eq_some_iff.1 h
  rw [List.drop_eq_getElem_cons hx, hp]

/-- A pixel that is not transparent is joined to the runs behind it. -/
theorem scanFrom_of_shown (h : row[x]? = some p) (hne : p ≠ t) :
    scanFrom t x (row.drop x) =
      joinRun ⟨x, [p]⟩ (scanFrom t (x + 1) (row.drop (x + 1))) := by
  rw [drop_of_getElem? h, ← addPixel_eq_joinRun]
  exact if_neg hne

/-- A transparent pixel adds nothing to the runs behind it. -/
theorem scanFrom_of_clear (h : row[x]? = some t) :
    scanFrom t x (row.drop x) =
      scanFrom t (x + 1) (row.drop (x + 1)) := by
  rw [drop_of_getElem? h]
  exact if_pos rfl

/-- Where no run goes on, there is a column between what was found and the
runs to come. -/
theorem separatedFrom_of_not_shows (h : shows row t x = false) :
    SeparatedFrom (x + 1) (scanFrom t x (row.drop x)) := by
  by_cases hx : x < row.length
  · rw [scanFrom_of_clear (clear_of_not_shows h hx)]
    exact separatedFrom_scanFrom t (x + 1) _
  · rw [List.drop_eq_nil_of_le (Nat.not_lt.1 hx)]
    trivial

namespace LineScan

variable {s next : LineScan}

-- ======================================================== the invariant

/-- A scan that is on its way to the runs of a row: it stands in the row,
an inner loop has gone along something or is about to, what was found and
what is to come make up the runs of the row, and every column in front of
the cursor was passed once. -/
structure Fits (row : Bytes) (t : UInt8) (s : LineScan) : Prop where
  inside : s.cursor ≤ row.length
  since : ∀ start, s.since = some start → start ≤ s.cursor ∧
    (start = s.cursor → shows row t s.cursor = true)
  runs : s.runs ++ s.pending row t = scanLine row t
  passed : s.passed = List.range s.cursor

/-- A scan that begins is on its way: all runs are still to come. -/
theorem fits_fresh (row : Bytes) (t : UInt8) : Fits row t fresh where
  inside := Nat.zero_le _
  since := by
    intro start h
    cases h
  runs := rfl
  passed := rfl

/-- The inner loop has gone along the columns from its start to the
cursor. -/
theorem length_along (h : s.cursor ≤ row.length) :
    (s.along row start).length = s.cursor - start := by
  unfold along
  rw [List.length_drop, List.length_take_of_le h]

/-- One column on, the inner loop has gone along one pixel more. -/
theorem along_advance (hstart : start ≤ s.cursor)
    (hp : row[s.cursor]? = some p) :
    s.advance.along row start = s.along row start ++ [p] := by
  obtain ⟨hx, -⟩ := List.getElem?_eq_some_iff.1 hp
  show (row.take (s.cursor + 1)).drop start = _
  rw [List.take_add_one, hp, List.drop_append_of_le_length]
  · rfl
  · rw [List.length_take_of_le (Nat.le_of_lt hx)]
    exact hstart

/-- What is to come does not change when the outer loop moves over a
transparent pixel. -/
theorem pending_advance_outside (hsince : s.since = none)
    (hp : row[s.cursor]? = some t) :
    s.advance.pending row t = s.pending row t := by
  simp only [pending, advance, hsince]
  rw [scanFrom_of_clear hp]

/-- Nor does it when the inner loop moves over another pixel: the run so
far takes it over from the rest. -/
theorem pending_advance_inside (hsince : s.since = some start)
    (hstart : start ≤ s.cursor) (hp : row[s.cursor]? = some p)
    (hne : p ≠ t) : s.advance.pending row t = s.pending row t := by
  obtain ⟨hx, -⟩ := List.getElem?_eq_some_iff.1 hp
  have hlen : (s.along row start).length = s.cursor - start :=
    length_along (Nat.le_of_lt hx)
  have hsince' : s.advance.since = some start := hsince
  have hcursor : s.advance.cursor = s.cursor + 1 := rfl
  simp only [pending, hsince, hsince', hcursor]
  rw [along_advance hstart hp, scanFrom_of_shown hp hne]
  by_cases hempty : s.along row start = []
  · -- this is the first pixel of the run
    have hfirst : start = s.cursor := by
      rw [hempty, List.length_nil] at hlen
      omega
    rw [hempty, joinRun_empty, List.nil_append, hfirst]
  · have hstop : start + (s.along row start).length = s.cursor := by omega
    rw [← joinRun_joinRun hempty (List.cons_ne_nil p []), hstop]

/-- Going on by a column keeps a scan on its way, when it changes nothing
of what is to come. -/
theorem Fits.advance (h : Fits row t s) (hx : s.cursor < row.length)
    (hpending : s.advance.pending row t = s.pending row t) :
    Fits row t s.advance where
  inside := hx
  since := by
    intro start hstart
    obtain ⟨hle, -⟩ := h.since start hstart
    refine ⟨Nat.le_succ_of_le hle, fun heq => ?_⟩
    have hbehind : start = s.cursor + 1 := heq
    omega
  runs := by
    rw [hpending]
    exact h.runs
  passed := by
    show s.passed ++ [s.cursor] = List.range (s.cursor + 1)
    rw [h.passed, List.range_succ]

/-- Entering the inner loop at a pixel that is not transparent keeps a
scan on its way. -/
theorem Fits.enter (h : Fits row t s) (hsince : s.since = none)
    (hshows : shows row t s.cursor = true) : Fits row t s.enter where
  inside := h.inside
  since := by
    intro start hstart
    obtain rfl := Option.some.inj hstart
    exact ⟨Nat.le_refl _, fun _ => hshows⟩
  runs := by
    -- nothing of the run lies behind the cursor yet
    have hempty : s.enter.along row s.cursor = [] :=
      List.drop_eq_nil_of_le (List.length_take_le _ _)
    have hpending : s.enter.pending row t = s.pending row t := by
      show joinRun ⟨s.cursor, s.enter.along row s.cursor⟩ _ = _
      rw [hempty, joinRun_empty]
      simp only [pending, hsince, LineScan.enter]
    rw [hpending]
    exact h.runs
  passed := h.passed

/-- The scan behind a run that ends at the cursor. -/
def ended (s : LineScan) (row : Bytes) (start : Nat) : LineScan :=
  { s with since := none, runs := s.runs ++ [⟨start, s.along row start⟩] }

/-- A run that ends at the cursor can be cut out of the row. -/
theorem leave_ok (h : Fits row t s) (hsince : s.since = some start) :
    s.leave row start = .ok (s.ended row start) := by
  have hslice : sliceOf row start s.cursor = .ok (s.along row start) := by
    unfold sliceOf Cursor.slice?
    rw [if_pos ⟨(h.since start hsince).1, h.inside⟩]
    rfl
  unfold leave
  rw [hslice]
  rfl

/-- A run that ends at the cursor is the next of the runs to come. -/
theorem Fits.ended (h : Fits row t s) (hsince : s.since = some start)
    (hshows : shows row t s.cursor = false) :
    Fits row t (s.ended row start) where
  inside := h.inside
  since := by
    intro first hfirst
    cases hfirst
  runs := by
    have hlen : (s.along row start).length = s.cursor - start :=
      length_along h.inside
    -- the inner loop was entered at a pixel, so it has gone along some
    obtain ⟨hle, hentered⟩ := h.since start hsince
    have hlt : start < s.cursor := by
      apply Nat.lt_of_le_of_ne hle
      intro heq
      rw [hentered heq] at hshows
      cases hshows
    have hne : s.along row start ≠ [] := by
      rw [← List.length_pos_iff]
      omega
    have hstop : Run.stop ⟨start, s.along row start⟩ = s.cursor := by
      show start + (s.along row start).length = s.cursor
      omega
    have hjoin : joinRun ⟨start, s.along row start⟩
        (scanFrom t s.cursor (row.drop s.cursor)) = _ :: _ :=
      joinRun_of_separated hne
        (by rw [hstop]; exact separatedFrom_of_not_shows hshows)
    rw [← h.runs]
    show (s.runs ++ [⟨start, s.along row start⟩]) ++
      scanFrom t s.cursor (row.drop s.cursor) = s.runs ++ s.pending row t
    simp only [pending, hsince]
    rw [hjoin, List.append_assoc]
    rfl
  passed := h.passed

-- ========================================================= termination

/-- A column that is passed leaves fewer steps. -/
theorem left_advance_lt (hx : s.cursor < row.length) :
    s.advance.left row t < s.left row t := by
  have hcursor : s.advance.cursor = s.cursor + 1 := rfl
  unfold left
  rw [hcursor]
  split <;> split <;> omega

/-- The cursor is handed to the inner loop at a pixel that is not
transparent, and back at any other place. -/
theorem left_lt_of_turn (hcursor : next.cursor = s.cursor)
    (hturn : next.since.isNone = !s.since.isNone)
    (hshows : s.since.isNone = shows row t s.cursor) :
    next.left row t < s.left row t := by
  unfold left
  rw [hcursor, hturn, hshows, if_pos rfl]
  cases shows row t s.cursor <;> simp

/-- The loops stop at the end of the row, or take a step that keeps what
holds of a scan and leaves fewer steps. -/
theorem Fits.step (h : Fits row t s) :
    s.step row t = .ok none ∨
      ∃ next, s.step row t = .ok (some next) ∧ Fits row t next ∧
        next.left row t < s.left row t := by
  unfold LineScan.step
  cases hsince : s.since with
  | none =>
      by_cases hend : row.length ≤ s.cursor
      · exact .inl (if_pos hend)
      · right
        have hx := Nat.not_le.1 hend
        simp only [if_neg hend]
        cases hshows : shows row t s.cursor with
        | true =>
            exact ⟨s.enter, rfl, h.enter hsince hshows,
              left_lt_of_turn rfl (by rw [hsince]; rfl)
                (by rw [hsince, hshows]; rfl)⟩
        | false =>
            have hclear := clear_of_not_shows hshows hx
            exact ⟨s.advance, rfl,
              h.advance hx (pending_advance_outside hsince hclear),
              left_advance_lt hx⟩
  | some start =>
      right
      cases hshows : shows row t s.cursor with
      | true =>
          obtain ⟨p, hp, hne⟩ := exists_of_shows hshows
          obtain ⟨hx, -⟩ := List.getElem?_eq_some_iff.1 hp
          have hstart := (h.since start hsince).1
          exact ⟨s.advance, rfl,
            h.advance hx (pending_advance_inside hsince hstart hp hne),
            left_advance_lt hx⟩
      | false =>
          refine ⟨s.ended row start, ?_, h.ended hsince hshows,
            left_lt_of_turn rfl (by rw [hsince]; rfl)
              (by rw [hsince, hshows]; rfl)⟩
          simp only [leave_ok h hsince]
          rfl

/-- A scan stops behind the last column, outside the inner loop. -/
theorem ended_of_step (h : s.step row t = .ok none) :
    s.since = none ∧ row.length ≤ s.cursor := by
  unfold LineScan.step at h
  cases hsince : s.since with
  | none =>
      refine ⟨rfl, ?_⟩
      by_contra hinside
      simp only [hsince, if_neg hinside] at h
      cases hshows : shows row t s.cursor with
      | true => simp [hshows] at h
      | false => simp [hshows] at h
  | some start =>
      simp only [hsince] at h
      cases hshows : shows row t s.cursor with
      | true => simp [hshows] at h
      | false =>
          simp only [hshows, Bool.false_eq_true, if_false] at h
          obtain ⟨_, -, hnone⟩ := map_eq_ok.1 h
          cases hnone

/-- A scan that has no step left has passed the whole row and found its
runs. -/
theorem Fits.eq_of_step (h : Fits row t s)
    (hstop : s.step row t = .ok none) :
    s = ⟨row.length, none, scanLine row t, List.range row.length⟩ := by
  obtain ⟨hsince, hend⟩ := ended_of_step hstop
  have hcursor := Nat.le_antisymm h.inside hend
  have hpassed := h.passed
  have hruns := h.runs
  simp only [pending, hsince] at hruns
  rw [List.drop_eq_nil_of_le hend] at hruns
  rw [hcursor] at hpassed
  cases s
  rw [LineScan.mk.injEq]
  exact ⟨hcursor, hsince, (List.append_nil _).symm.trans hruns, hpassed⟩

/-- The loops stop, and have then moved over every column once and found
the runs of the row. -/
theorem takeSteps_fresh (row : Bytes) (t : UInt8) :
    takeSteps (LineScan.step row t) (2 * row.length + 2) fresh =
      .ok ⟨row.length, none, scanLine row t, List.range row.length⟩ := by
  have hstep : ∀ s, Fits row t s → s.step row t = .ok none ∨
      ∃ next, s.step row t = .ok (some next) ∧ Fits row t next ∧
        next.left row t < s.left row t :=
    fun _ h => h.step
  have hbound : fresh.left row t < 2 * row.length + 2 := by
    show 2 * (row.length - 0) + _ < _
    split <;> omega
  obtain ⟨last, hlast, hfits, hstop⟩ :=
    takeSteps_of_measure hstep _ (fits_fresh row t) hbound
  rw [hlast, hfits.eq_of_step hstop]

end LineScan

-- =============================================================== runs

/-- Scanning a row finds exactly its maximal runs, from left to right and
with a column between any two. Painted over a transparent row of the same
length they give the row. The two loops come to an end with these runs:
the cursor looks again at a column where it is handed over, but moves over
each column once. -/
theorem scanLine_exact (row : Bytes) (t : UInt8) :
    (∀ r, r ∈ scanLine row t ↔ IsMaximal row t r) ∧
      (scanLine row t).Pairwise (fun r later => r.stop < later.start) ∧
      SpriteImage.drawRuns 0 (List.replicate row.length t)
        (scanLine row t) = .ok row ∧
      takeSteps (LineScan.step row t) (2 * row.length + 2)
          LineScan.fresh =
        .ok ⟨row.length, none, scanLine row t,
          List.range row.length⟩ := by
  have hmaximal : ∀ r, r ∈ scanLine row t ↔ IsMaximal row t r :=
    fun _ => mem_scanLine
  have hapart := (separatedFrom_scanLine row t).pairwise
  have hpainted := drawRuns_scanLine row t
  exact ⟨hmaximal, hapart, hpainted, LineScan.takeSteps_fresh row t⟩

example : scanLine [0, 1, 2, 0, 0, 3] 0 = [⟨1, [1, 2]⟩, ⟨5, [3]⟩] := by
  decide

end GamePack.Sprite
