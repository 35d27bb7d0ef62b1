import GamePack.Encoding
import GamePack.Proofs.Outcome
import Mathlib.Tactic

/-!
What writing a value succeeds with. A number type writes the numbers in
its range, as words of its width; the table of image data holds an
offset for each line, which must fit a word of four bytes.
-/
namespace GamePack

-- ============================================================= numbers

/-- The word that stands for a number fits its bytes. -/
theorem wordOfInt_lt (width : Nat) (v : Int) :
    wordOfInt width v < wordCount width := by
  have hpos := wordCount_pos width
  have hlt : v % (wordCount width : Int) < wordCount width :=
    Int.emod_lt_of_pos v (by omega)
  have hnonneg : 0 ≤ v % (wordCount width : Int) :=
    Int.emod_nonneg v (by omega)
  unfold wordOfInt
  omega

/-- A word that is split off the front of the bytes is what they begin
with. -/
theorem readLE_eq_some_iff {width n : Nat} {bytes rest : Bytes} :
    readLE width bytes = some (n, rest) ↔
      n < wordCount width ∧ bytes = leBytes width n ++ rest := by
  constructor
  · intro h
    unfold readLE at h
    split at h
    next => cases h
    next hlen =>
      cases h
      have htake : (bytes.take width).length = width :=
        List.length_take_of_le (Nat.not_lt.1 hlen)
      have hlt := ofLE_lt (bytes.take width)
      have hword := leBytes_ofLE (bytes.take width)
      rw [htake] at hlt hword
      exact ⟨hlt, by rw [hword, List.take_append_drop]⟩
  · rintro ⟨hlt, rfl⟩
    exact readLE_leBytes_append hlt rest

namespace Numeric

variable {n : Numeric} {v : Int}

/-- The range of a number type holds zero and lies among the signed and
unsigned words of 32 bits. -/
theorem range_bounds (n : Numeric) :
    (-0x80000000 ≤ n.min ∧ n.min ≤ 0) ∧ 0 ≤ n.max ∧
      n.max ≤ 0xffffffff := by
  cases n <;> decide

theorem bits_le (n : Numeric) : n.bits ≤ 32 := by
  cases n <;> decide

theorem check_eq_ok_iff {result : Int} :
    n.check v = .ok result ↔ n.check v = .ok v ∧ result = v := by
  simp only [check_ok_iff]
  tauto

/-- A number type writes the numbers in its range. -/
theorem encode_ok_iff {bytes : Bytes} :
    n.encode v = .ok bytes ↔
      n.check v = .ok v ∧ bytes = leBytes n.size (wordOfInt n.size v) := by
  unfold encode
  cases h : n.check v with
  | error cause => simp
  | ok result =>
      obtain rfl := (check_ok_iff.1 h).1
      simp [eq_comm]

/-- An unsigned word of two bytes stands for its number. -/
theorem wordOfInt_uint16 {k : Nat} (h : uint16.check k = .ok k) :
    wordOfInt 2 k = k := by
  obtain ⟨-, -, hmax⟩ := check_ok_iff.1 h
  have hlt : (k : Int) < 0x10000 := Int.lt_of_le_sub_one hmax
  show ((k : Int) % 0x10000).toNat = k
  rw [Int.emod_eq_of_lt (by omega) hlt, Int.toNat_natCast]

/-- A signed word of two bytes stands for its number. -/
theorem intOfWord_int16 (h : int16.check v = .ok v) :
    intOfWord 2 (wordOfInt 2 v) = v := by
  obtain ⟨-, hmin, hmax⟩ := check_ok_iff.1 h
  have hlo : -0x8000 ≤ v := hmin
  have hhi : v ≤ 0x7fff := hmax
  apply intOfWord_wordOfInt
  · show -0x10000 ≤ 2 * v
    omega
  · show 2 * v < 0x10000
    omega

/-- Every word of two bytes is a number that two bytes hold. -/
theorem check_word_uint16 {k : Nat} (h : k < wordCount 2) :
    uint16.check k = .ok (k : Int) := by
  have hlt : k < 0x10000 := h
  have hmin : uint16.min = 0 := rfl
  have hmax : uint16.max = 0xffff := rfl
  exact check_ok_iff.2 ⟨rfl, by omega, by omega⟩

theorem check_word_int16 {k : Nat} (h : k < wordCount 2) :
    int16.check (intOfWord 2 k) = .ok (intOfWord 2 k) := by
  have hlt : k < 0x10000 := h
  have hcount : wordCount 2 = 0x10000 := rfl
  have hmin : int16.min = -0x8000 := rfl
  have hmax : int16.max = 0x7fff := rfl
  refine check_ok_iff.2 ⟨rfl, ?_⟩
  unfold intOfWord
  rw [hcount, hmin, hmax]
  split <;> omega

end Numeric

-- ========================================================= image data

section ImageData

variable {start : Nat} {data : Bytes} {lines : ImageLines}
  {offsets : List Nat}

/-- No lines have no offsets. -/
theorem lineOffsets_nil_ok_iff :
    lineOffsets start [] = .ok offsets ↔ offsets = [] := by
  simp [lineOffsets, eq_comm]

/-- A line without data has offset zero and takes no place. -/
theorem lineOffsets_none_ok_iff :
    lineOffsets start (none :: lines) = .ok offsets ↔
      ∃ later, lineOffsets start lines = .ok later ∧
        offsets = 0 :: later := by
  simp only [lineOffsets, bind_eq_ok, pure_ok_iff]

/-- A line with data starts where the data before it ends. -/
theorem lineOffsets_some_ok_iff :
    lineOffsets start (some data :: lines) = .ok offsets ↔
      start < 0x100000000 ∧
        ∃ later, lineOffsets (start + data.length) lines = .ok later ∧
          offsets = start :: later := by
  simp only [lineOffsets, guard_eq_ok, bind_eq_ok, pure_ok_iff,
    Nat.not_le]

theorem length_lineOffsets (h : lineOffsets start lines = .ok offsets) :
    offsets.length = lines.length := by
  induction lines generalizing start offsets with
  | nil =>
      rw [lineOffsets_nil_ok_iff] at h
      rw [h]
      rfl
  | cons line lines ih =>
      cases line with
      | none =>
          obtain ⟨later, hlater, rfl⟩ := lineOffsets_none_ok_iff.1 h
          rw [List.length_cons, ih hlater, List.length_cons]
      | some data =>
          obtain ⟨-, later, hlater, rfl⟩ := lineOffsets_some_ok_iff.1 h
          rw [List.length_cons, ih hlater, List.length_cons]

/-- Offsets that fit their words are all given. -/
theorem exists_lineOffsets
    (h : start + ((lines.map fun line => line.getD []).flatten).length <
      0x100000000) :
    ∃ offsets, lineOffsets start lines = .ok offsets := by
  induction lines generalizing start with
  | nil => exact ⟨[], rfl⟩
  | cons line lines ih =>
      rw [List.map_cons, List.flatten_cons, List.length_append] at h
      cases line with
      | none =>
          obtain ⟨later, hlater⟩ :
              ∃ later, lineOffsets start lines = .ok later :=
            ih (by omega)
          exact ⟨_, lineOffsets_none_ok_iff.2 ⟨later, hlater, rfl⟩⟩
      | some data =>
          rw [Option.getD_some] at h
          obtain ⟨later, hlater⟩ : ∃ later,
              lineOffsets (start + data.length) lines = .ok later :=
            ih (by omega)
          exact ⟨_, lineOffsets_some_ok_iff.2
            ⟨by omega, later, hlater, rfl⟩⟩

/-- Offsets are refused only for one that does not fit its word. -/
theorem lineOffsets_error {e : ConsistencyError}
    (h : lineOffsets start lines = .error e) :
    ∃ place, e = .tooLarge "image_data" place ∧ 0x100000000 ≤ place := by
  induction lines generalizing start with
  | nil => cases h
  | cons line lines ih =>
      cases line with
      | none =>
          simp only [lineOffsets, bind_eq_error, pure_ne_error, and_false,
            exists_false, or_false] at h
          exact ih h
      | some data =>
          simp only [lineOffsets, guard_eq_error, bind_eq_error,
            pure_ne_error, and_false, exists_false, or_false] at h
          rcases h with ⟨hlarge, rfl⟩ | ⟨-, hlater⟩
          · exact ⟨start, rfl, hlarge⟩
          · exact ih hlater

theorem length_flatten_map_leBytes (width : Nat) (words : List Nat) :
    ((words.map (leBytes width)).flatten).length =
      width * words.length := by
  induction words with
  | nil => simp
  | cons word words ih =>
      rw [List.map_cons, List.flatten_cons, List.length_append, ih,
        length_leBytes, List.length_cons]
      ring

/-- Image data is its table and the lines with data one after the
other. -/
theorem encodeLines_ok_iff {bytes : Bytes} :
    encodeLines lines = .ok bytes ↔
      ∃ offsets, lineOffsets (4 * lines.length) lines = .ok offsets ∧
        bytes = (offsets.map (leBytes 4)).flatten ++
          (lines.map fun line => line.getD []).flatten := by
  simp only [encodeLines, bind_eq_ok, pure_ok_iff]

theorem linesSize_eq (lines : ImageLines) :
    linesSize lines = 4 * lines.length +
      ((lines.map fun line => line.getD []).flatten).length := by
  induction lines with
  | nil => rfl
  | cons line lines ih =>
      show 4 + (line.getD []).length + linesSize lines = _
      rw [ih, List.map_cons, List.flatten_cons, List.length_append,
        List.length_cons]
      ring

theorem length_of_encodeLines {bytes : Bytes}
    (h : encodeLines lines = .ok bytes) :
    bytes.length = linesSize lines := by
  obtain ⟨offsets, hoffsets, rfl⟩ := encodeLines_ok_iff.1 h
  rw [List.length_append, length_flatten_map_leBytes,
    length_lineOffsets hoffsets, linesSize_eq]

/-- Lines are refused only for a place that no word holds. -/
theorem encodeLines_error {e : ConsistencyError}
    (h : encodeLines lines = .error e) :
    ∃ place, e = .tooLarge "image_data" place ∧ 0x100000000 ≤ place := by
  simp only [encodeLines, bind_eq_error, pure_ne_error, and_false,
    exists_false, or_false] at h
  exact lineOffsets_error h

end ImageData

end GamePack
