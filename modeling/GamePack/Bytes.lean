/-!
Byte strings and the fixed-width words in them. Everything this library
writes to a file is a list of bytes, and every number in such a file is
an unsigned or two's complement word, least significant byte first.

The main facts: `leBytes` writes exactly the width asked for, `ofLE`
reads it back when the number fits, and `readLE` splits a word off the
front of what `leBytes` wrote whatever follows it.
-/
namespace GamePack

/-- A string of bytes. -/
abbrev Bytes := List UInt8

-- ==================================================== unsigned words

/-- The lowest `width` bytes of `n`, least significant first. -/
def leBytes : Nat → Nat → Bytes
  | 0, _ => []
  | width + 1, n => UInt8.ofNat n :: leBytes width (n / 256)

/-- The number whose bytes, least significant first, are given. -/
def ofLE : Bytes → Nat
  | [] => 0
  | b :: rest => b.toNat + 256 * ofLE rest

/-- Split a word of `width` bytes off the front, if there are as many. -/
def readLE (width : Nat) (bytes : Bytes) : Option (Nat × Bytes) :=
  if bytes.length < width then none
  else some (ofLE (bytes.take width), bytes.drop width)

/-- How many values a word of `width` bytes has. -/
def wordCount : Nat → Nat
  | 0 => 1
  | width + 1 => 256 * wordCount width

theorem wordCount_pos (width : Nat) : 0 < wordCount width := by
  induction width with
  | zero => decide
  | succ w ih => simp only [wordCount]; omega

/-- The sum of several counts. -/
def total (counts : List Nat) : Nat := counts.foldr (· + ·) 0

@[simp] theorem length_leBytes (width n : Nat) :
    (leBytes width n).length = width := by
  induction width generalizing n with
  | zero => rfl
  | succ w ih => simp [leBytes, ih]

/-- A number that fits the width is read back unchanged. -/
theorem ofLE_leBytes {width n : Nat} (h : n < wordCount width) :
    ofLE (leBytes width n) = n := by
  induction width generalizing n with
  | zero =>
    have : n = 0 := by simp only [wordCount] at h; omega
    simp [leBytes, ofLE, this]
  | succ w ih =>
    have hdiv : n / 256 < wordCount w := by
      simp only [wordCount] at h
      exact Nat.div_lt_of_lt_mul h
    simp only [leBytes, ofLE, ih hdiv]
    have : (UInt8.ofNat n).toNat = n % 256 := by simp
    omega

/-- The bytes of a word read back to the same bytes. -/
theorem leBytes_ofLE (bytes : Bytes) :
    leBytes bytes.length (ofLE bytes) = bytes := by
  induction bytes with
  | nil => rfl
  | cons b rest ih =>
    have hb : b.toNat < 256 := b.toNat_lt
    have hdiv : (b.toNat + 256 * ofLE rest) / 256 = ofLE rest := by omega
    have hmod : UInt8.ofNat (b.toNat + 256 * ofLE rest) = b := by
      apply UInt8.toNat_inj.1
      simp
    simp only [List.length_cons, leBytes, ofLE, hdiv, ih, hmod]

theorem ofLE_lt (bytes : Bytes) : ofLE bytes < wordCount bytes.length := by
  induction bytes with
  | nil => decide
  | cons b rest ih =>
    have hb : b.toNat < 256 := b.toNat_lt
    simp only [ofLE, List.length_cons, wordCount]
    omega

/-- Reading a word splits off exactly what was written. -/
theorem readLE_leBytes_append {width n : Nat} (h : n < wordCount width)
    (rest : Bytes) :
    readLE width (leBytes width n ++ rest) = some (n, rest) := by
  simp [readLE, ofLE_leBytes h]

-- =================================================== signed words

/-- The unsigned word that stands for `v` in `width` bytes. -/
def wordOfInt (width : Nat) (v : Int) : Nat :=
  (v % (wordCount width : Int)).toNat

/-- The number that an unsigned word of `width` bytes stands for when
its highest bit is the sign. -/
def intOfWord (width : Nat) (n : Nat) : Int :=
  if 2 * n < wordCount width then (n : Int)
  else (n : Int) - (wordCount width : Int)

/-- A number inside the signed range is read back unchanged. -/
theorem intOfWord_wordOfInt {width : Nat} {v : Int}
    (lo : -(wordCount width : Int) ≤ 2 * v)
    (hi : 2 * v < (wordCount width : Int)) :
    intOfWord width (wordOfInt width v) = v := by
  unfold intOfWord wordOfInt
  have hpos := wordCount_pos width
  generalize wordCount width = m at *
  have h0 : 0 ≤ v % (m : Int) := Int.emod_nonneg _ (by omega)
  by_cases hv : 0 ≤ v
  · have : v % (m : Int) = v := Int.emod_eq_of_lt hv (by omega)
    rw [this]
    split <;> omega
  · have : v % (m : Int) = v + m := by
      rw [← Int.add_emod_right]
      exact Int.emod_eq_of_lt (by omega) (by omega)
    rw [this]
    split <;> omega

end GamePack
