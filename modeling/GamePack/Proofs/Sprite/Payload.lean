import GamePack.Proofs.Block
import GamePack.Proofs.Sprite.Scan

/-!
The payload of a sprite block and its reading. The payload is four words
and the image data; the words come back because they fit, the offsets of
the lines because the table refuses those that do not, and each line
because its code ends by itself. So a sprite whose lines are codes is
read back as it was. A sprite with numbers that do not fit has no block;
the first of them is refused.
-/
namespace GamePack

-- ============================================================ ranges

namespace Numeric

/-- A number is out of the range of a type. -/
def isOut (n : Numeric) (v : Int) : Bool := v < n.min ∨ n.max < v

/-- The refusal of a number that is out of range. -/
def refusal (n : Numeric) (v : Int) : Error :=
  .value (.outOfRange v n.name n.min n.max)

/-- The check of a number answers with the number, or with the refusal
where it is out of range. -/
theorem mapError_check (n : Numeric) (v : Int) :
    (n.check v).mapError Error.value =
      if n.isOut v then .error (n.refusal v) else .ok v := by
  unfold check isOut
  by_cases h : v < n.min ∨ n.max < v
  · rw [if_pos h, if_pos (decide_eq_true h)]
    rfl
  · rw [if_neg h, if_neg (by rw [decide_eq_true_eq]; exact h)]
    rfl

/-- Numbers checked one after the other are refused with the first that
is out of range. -/
theorem mapM_check_of_find? {l : List (Numeric × Int)}
    {number : Numeric × Int}
    (h : l.find? (fun number => number.1.isOut number.2) =
      some number) :
    (l.mapM fun number => (number.1.check number.2).mapError Error.value) =
      .error (number.1.refusal number.2) := by
  induction l with
  | nil => cases h
  | cons first l ih =>
      rw [List.find?_cons] at h
      rw [List.mapM_cons, mapError_check]
      cases hout : first.1.isOut first.2 with
      | true =>
          rw [hout] at h
          obtain rfl := Option.some.inj h
          rfl
      | false =>
          rw [hout] at h
          rw [if_neg Bool.false_ne_true, ok_bind, ih h]
          rfl

end Numeric

namespace SpriteImage

open Sprite

-- ========================================================= image data

/-- Offsets that fit their words are read back in front of what follows
them. -/
theorem readOffsets_append {offsets : List Nat}
    (h : ∀ offset ∈ offsets, offset < 0x100000000) (rest : Bytes) :
    readOffsets offsets.length
      ((offsets.map (leBytes 4)).flatten ++ rest) = .ok offsets := by
  induction offsets with
  | nil => rfl
  | cons offset offsets ih =>
      have hfits : offset < wordCount 4 := h offset List.mem_cons_self
      have hrest := ih fun o ho => h o (List.mem_cons_of_mem _ ho)
      rw [List.length_cons, List.map_cons, List.flatten_cons,
        List.append_assoc]
      simp only [readOffsets, readWord, readLE_leBytes_append hfits,
        bind_eq_ok, pure_ok_iff, Except.ok.injEq]
      exact ⟨_, rfl, _, hrest, rfl⟩

/-- Where the lines lie behind a table, the code of each is read at its
offset, and every offset fits its word. -/
theorem readLine_lineOffsets {width start : Nat} {table : Bytes}
    {lines : ImageLines} {offsets : List Nat}
    (hstart : 0 < start) (hlen : start ≤ table.length)
    (hdata : table.drop start =
      (lines.map fun line => line.getD []).flatten)
    (hcode : ∀ data, some data ∈ lines → IsCode width data)
    (h : lineOffsets start lines = .ok offsets) :
    (∀ offset ∈ offsets, offset < 0x100000000) ∧
      offsets.mapM (readLine table width) = .ok lines := by
  induction lines generalizing start offsets with
  | nil =>
      rw [lineOffsets_nil_ok_iff] at h
      subst h
      exact ⟨by simp, rfl⟩
  | cons line lines ih =>
      have hcode' : ∀ data, some data ∈ lines → IsCode width data :=
        fun data hmem => hcode data (List.mem_cons_of_mem _ hmem)
      rw [List.map_cons, List.flatten_cons] at hdata
      cases line with
      | none =>
          obtain ⟨later, hlater, rfl⟩ := lineOffsets_none_ok_iff.1 h
          obtain ⟨hfit, hread⟩ := ih hstart hlen hdata hcode' hlater
          refine ⟨by simpa using hfit, ?_⟩
          rw [mapM_eq_ok] at hread ⊢
          exact .cons rfl hread
      | some data =>
          obtain ⟨hlt, later, hlater, rfl⟩ := lineOffsets_some_ok_iff.1 h
          obtain ⟨runs, hruns⟩ := hcode data List.mem_cons_self
          rw [Option.getD_some] at hdata
          have hrest : table.drop (start + data.length) =
              (lines.map fun line => line.getD []).flatten := by
            rw [← List.drop_drop, hdata]
            exact List.drop_left
          have hlen' : start + data.length ≤ table.length := by
            have := congrArg List.length hdata
            rw [List.length_drop, List.length_append] at this
            omega
          obtain ⟨hfit, hread⟩ :=
            ih (by omega) hlen' hrest hcode' hlater
          refine ⟨List.forall_mem_cons.2 ⟨hlt, hfit⟩, ?_⟩
          rw [mapM_eq_ok] at hread ⊢
          refine .cons ?_ hread
          unfold readLine
          -- the offset is not zero, so it does not say that the line is
          -- empty, and the data of the line stands there
          rw [if_neg (by omega), if_neg (by omega), hdata]
          simp only [hruns, List.take_left']

/-- Image data is read back: its table gives as many offsets as there
are lines, and at them the lines are found. -/
theorem readLines_encodeLines {width : Nat} {lines : ImageLines}
    {table : Bytes}
    (hcode : ∀ data, some data ∈ lines → IsCode width data)
    (h : encodeLines lines = .ok table) :
    ∃ offsets, readOffsets lines.length table = .ok offsets ∧
      offsets.mapM (readLine table width) = .ok lines := by
  obtain ⟨offsets, hoffsets, htable⟩ := encodeLines_ok_iff.1 h
  have hcount := length_lineOffsets hoffsets
  have hlen := length_flatten_map_leBytes 4 offsets
  rw [hcount] at hlen
  have hdata : table.drop (4 * lines.length) =
      (lines.map fun line => line.getD []).flatten := by
    rw [htable, ← hlen]
    exact List.drop_left
  have hle : 4 * lines.length ≤ table.length := by
    rw [htable, List.length_append, hlen]
    exact Nat.le_add_right _ _
  have hlines : (∀ offset ∈ offsets, offset < 0x100000000) ∧
      offsets.mapM (readLine table width) = .ok lines := by
    -- a table of no lines takes no place, so its end is no offset
    cases lines with
    | nil =>
        obtain rfl := lineOffsets_nil_ok_iff.1 hoffsets
        exact ⟨by simp, rfl⟩
    | cons line lines =>
        exact readLine_lineOffsets (by rw [List.length_cons]; omega)
          hle hdata hcode hoffsets
  refine ⟨offsets, ?_, hlines.2⟩
  rw [← hcount, htable]
  exact readOffsets_append hlines.1 _

-- =================================================== blocks of sprites

variable {image : SpriteImage} {payload : Bytes}

/-- The sizes and offsets of a sprite fit the words of the format. -/
def FitsFormat (image : SpriteImage) : Prop :=
  Numeric.uint16.check image.width = .ok image.width ∧
    Numeric.uint16.check image.height = .ok image.height ∧
    Numeric.int16.check image.xOffset = .ok image.xOffset ∧
    Numeric.int16.check image.yOffset = .ok image.yOffset

/-- The block that stores a sprite. -/
def blockOf (image : SpriteImage) : Block where
  magic := .sprite
  version := spriteVersion
  fields := blockFields
  values := .ofList [("width", .int image.width),
    ("height", .int image.height), ("x_offset", .int image.xOffset),
    ("y_offset", .int image.yOffset), ("image_data", .image image.lines)]

/-- A sprite has a block exactly when it fits the format. -/
theorem toBlock_ok_iff {block : Block} :
    image.toBlock = .ok block ↔
      image.FitsFormat ∧ block = image.blockOf := by
  unfold toBlock FitsFormat
  simp only [bind_eq_ok, pure_ok_iff, mapError_ok_iff]
  constructor
  · rintro ⟨w, hw, h, hh, x, hx, y, hy, rfl⟩
    rw [Numeric.check_eq_ok_iff] at hw hh hx hy
    exact ⟨⟨hw.1, hh.1, hx.1, hy.1⟩, rfl⟩
  · rintro ⟨⟨hw, hh, hx, hy⟩, rfl⟩
    exact ⟨_, hw, _, hh, _, hx, _, hy, rfl⟩

/-- The numbers that the block of a sprite stores, with their types. -/
def numbers (image : SpriteImage) : List (Numeric × Int) :=
  [(.uint16, image.width), (.uint16, image.height),
    (.int16, image.xOffset), (.int16, image.yOffset)]

/-- The first of these numbers that is out of range. -/
def outOfRange? (image : SpriteImage) : Option (Numeric × Int) :=
  image.numbers.find? fun number => number.1.isOut number.2

/-- A sprite fits the format when none of its numbers is out of range. -/
theorem fitsFormat_iff : image.FitsFormat ↔ image.outOfRange? = none := by
  simp [outOfRange?, numbers, FitsFormat, Numeric.check, Numeric.isOut]

/-- The numbers of a sprite are checked one after the other. -/
theorem toBlock_eq (image : SpriteImage) : image.toBlock =
    (image.numbers.mapM fun number =>
      (number.1.check number.2).mapError Error.value) >>=
        fun _ => .ok image.blockOf := by
  simp only [numbers, List.mapM_cons, List.mapM_nil, bind_assoc, pure_bind]
  rfl

/-- A sprite that does not fit the format is refused with the first number
that is out of range. -/
theorem toBlock_of_outOfRange {number : Numeric × Int}
    (h : image.outOfRange? = some number) :
    image.toBlock = .error (number.1.refusal number.2) := by
  rw [toBlock_eq, Numeric.mapM_check_of_find? h]
  rfl

/-- The four words in front of the image data. -/
def header (image : SpriteImage) : Bytes :=
  leBytes 2 (wordOfInt 2 image.width) ++
    (leBytes 2 (wordOfInt 2 image.height) ++
      (leBytes 2 (wordOfInt 2 image.xOffset) ++
        leBytes 2 (wordOfInt 2 image.yOffset)))

/-- A word is read from the bytes it is written in, in front of the rest.
-/
theorem readWord_ok_iff {width n : Nat} {bytes rest : Bytes} :
    readWord width bytes = .ok (n, rest) ↔
      n < wordCount width ∧ bytes = leBytes width n ++ rest := by
  rw [← readLE_eq_some_iff]
  unfold readWord
  cases readLE width bytes <;> simp

/-- A word that is written in front of something is read again. -/
theorem readWord_leBytes_append {width n : Nat}
    (h : n < wordCount width) (rest : Bytes) :
    readWord width (leBytes width n ++ rest) = .ok (n, rest) :=
  readWord_ok_iff.2 ⟨h, rfl⟩

/-- The values of a sprite block by name. -/
theorem get?_blockOf (image : SpriteImage) :
    image.blockOf.get? "width" = some (.int image.width) ∧
      image.blockOf.get? "height" = some (.int image.height) ∧
      image.blockOf.get? "x_offset" = some (.int image.xOffset) ∧
      image.blockOf.get? "y_offset" = some (.int image.yOffset) ∧
      image.blockOf.get? "image_data" = some (.image image.lines) := by
  refine ⟨?_, ?_, ?_, ?_, ?_⟩ <;>
    simp [blockOf, Block.get?, Dictionary.ofList,
      Dictionary.find?_insert_of_ne]

/-- The payload of a sprite is its header and its image data. -/
theorem payload_blockOf
    (h : image.blockOf.payload = .ok payload) :
    ∃ table, encodeLines image.lines = .ok table ∧
      payload = image.header ++ table := by
  obtain ⟨parts, hparts, rfl⟩ :=
    Block.encodeFields_ok_iff.1 (Block.payload_ok_iff.1 h).2
  obtain ⟨hw, hh, hx, hy, hl⟩ := get?_blockOf image
  rw [show image.blockOf.fields = blockFields from rfl, blockFields]
    at hparts
  simp only [List.forall₂_cons_left_iff, List.forall₂_nil_left_iff, hw,
    hh, hx, hy, hl, Option.some.injEq, exists_eq_left', DataType.encode,
    mapError_ok_iff, Numeric.encode_ok_iff] at hparts
  obtain ⟨_, _, ⟨-, rfl⟩, ⟨_, _, ⟨-, rfl⟩, ⟨_, _, ⟨-, rfl⟩, ⟨_, _,
    ⟨-, rfl⟩, ⟨table, _, htable, rfl, rfl⟩, rfl⟩, rfl⟩, rfl⟩, rfl⟩ :=
      hparts
  exact ⟨table, htable, by simp [header, Numeric.size]⟩

/-- A sprite whose lines are codes is read back from its payload. -/
theorem fromPayload_payload (hfits : image.FitsFormat)
    (hheight : image.lines.length = image.height)
    (hcode : ∀ data, some data ∈ image.lines → IsCode image.width data)
    (h : image.blockOf.payload = .ok payload) :
    fromPayload payload = .ok image := by
  obtain ⟨table, htable, rfl⟩ := payload_blockOf h
  obtain ⟨offsets, hoffsets, hlines⟩ := readLines_encodeLines hcode htable
  obtain ⟨hw, hh, hx, hy⟩ := hfits
  rw [hheight] at hoffsets
  simp only [fromPayload, header, List.append_assoc, bind_eq_ok,
    pure_ok_iff]
  refine ⟨_, readWord_leBytes_append (wordOfInt_lt 2 _) _, ?_⟩
  refine ⟨_, readWord_leBytes_append (wordOfInt_lt 2 _) _, ?_⟩
  refine ⟨_, readWord_leBytes_append (wordOfInt_lt 2 _) _, ?_⟩
  refine ⟨_, readWord_leBytes_append (wordOfInt_lt 2 _) _, ?_⟩
  dsimp only
  rw [Numeric.wordOfInt_uint16 hw, Numeric.wordOfInt_uint16 hh,
    Numeric.intOfWord_int16 hx, Numeric.intOfWord_int16 hy]
  exact ⟨offsets, hoffsets, image.lines, hlines, rfl⟩

end SpriteImage

end GamePack
