import GamePack.Png.Image
import GamePack.Proofs.Outcome
import GamePack.Proofs.Sprite.Words

/-!
Pixels packed closer than one to a byte. A row of bytes is a row of bits,
the most significant bit of each byte first, and a pixel is the number
that as many of them as the depth says spell. The depth divides eight, so
the bits of a pixel lie in one byte (`Bitmap.toNat_sample`); the rest
follows from the bits alone: what stands behind the last pixel is not
looked at, and a row comes back from its bits.

Unpacking is also taken step by step, with every access to a byte, every
difference and every shift failing where it is out of range; on rows that
are long enough none does.
-/
namespace GamePack

namespace Png

variable {bits : List Bool} {depth : Nat}

-- ================================================================= bits

/-- The bits of a byte that count at a depth, most significant first. -/
def bitsOf (depth : Nat) (byte : UInt8) : List Bool :=
  (List.range depth).map fun i => byte.toNat.testBit (depth - 1 - i)

/-- The bits of bytes, most significant first. -/
def bitsIn (bytes : Bytes) : List Bool := bytes.flatMap highBits

theorem length_bitsOf (depth : Nat) (byte : UInt8) :
    (bitsOf depth byte).length = depth := by
  simp [bitsOf]

theorem highBits_eq (byte : UInt8) : highBits byte = bitsOf 8 byte :=
  rfl

/-- A place in parts of one length, laid one after the other. -/
theorem getElem?_flatMap_of_width {α β : Type} {f : α → List β}
    {size i : Nat} (hf : ∀ a, (f a).length = size) (hi : i < size)
    (l : List α) (j : Nat) :
    (l.flatMap f)[j * size + i]? = l[j]?.bind fun a => (f a)[i]? := by
  have hwidth : ∀ part ∈ l.map f, part.length = size := by
    simpa using fun a _ => hf a
  rw [List.flatMap_def,
    SpriteImage.getElem?_flatten_of_width hwidth hi, List.getElem?_map]
  cases l[j]? with
  | none => rfl
  | some a => rfl

theorem ofBits_concat (bits : List Bool) (bit : Bool) :
    ofBits (bits ++ [bit]) = Nat.bit bit (ofBits bits) := by
  rw [ofBits, List.foldl_append, Nat.bit_val]
  rfl

/-- The bits of a number are those that spell it, from the last one
back. -/
theorem testBit_ofBits (bits : List Bool) (i : Nat) :
    (ofBits bits).testBit i = bits.reverse[i]?.getD false := by
  induction bits using List.reverseRecOn generalizing i with
  | nil => simp [ofBits]
  | append_singleton bits bit ih =>
      rw [ofBits_concat, List.reverse_append]
      cases i with
      | zero =>
          rw [Nat.testBit_bit_zero]
          rfl
      | succ i =>
          rw [Nat.testBit_bit_succ, ih]
          rfl

theorem length_bitsIn (bytes : Bytes) :
    (bitsIn bytes).length = 8 * bytes.length := by
  rw [bitsIn, List.length_flatMap]
  simp [highBits_eq, length_bitsOf, Nat.mul_comm]

/-- A bit of bytes is one of its byte, counted from the front. -/
theorem getElem?_bitsIn (bytes : Bytes) (k : Nat) :
    (bitsIn bytes)[k]? =
      bytes[k / 8]?.map fun byte => byte.toNat.testBit (7 - k % 8) := by
  have hk : k % 8 < 8 := Nat.mod_lt k (by decide)
  have hbit : (bitsIn bytes)[k / 8 * 8 + k % 8]? = _ :=
    getElem?_flatMap_of_width (length_bitsOf 8) hk bytes (k / 8)
  rw [Nat.div_add_mod'] at hbit
  rw [hbit]
  cases bytes[k / 8]? with
  | none => rfl
  | some byte => simp [bitsOf, hk]

/-- A byte made of bits starts with them. -/
theorem prefix_highBits {byte : List Bool} (h : byte.length ≤ 8) :
    byte <+: highBits
      (UInt8.ofNat (ofBits byte <<< (8 - byte.length))) := by
  have hword : ofBits byte <<< (8 - byte.length) < 2 ^ 8 := by
    apply Nat.lt_pow_two_of_testBit
    intro i hi
    rw [Nat.testBit_shiftLeft, testBit_ofBits,
      List.getElem?_eq_none (by rw [List.length_reverse]; omega)]
    exact Bool.and_false _
  have htoNat := UInt8.toNat_ofNat_of_lt' hword
  rw [List.prefix_iff_getElem?]
  intro i hi
  have hlt : i < 8 := by omega
  have hback : byte.length - 1 - (8 - 1 - i - (8 - byte.length)) = i := by
    omega
  rw [highBits_eq, bitsOf, List.getElem?_map, List.getElem?_range hlt,
    htoNat, Option.map_some, Nat.testBit_shiftLeft, testBit_ofBits,
    List.getElem?_reverse (by omega), hback,
    List.getElem?_eq_getElem hi, decide_eq_true (by omega)]
  rfl

/-- Packed bits stand at the front of the bytes that they are packed
into. -/
theorem prefix_bitsIn_packBits (bits : List Bool) :
    bits <+: bitsIn (packBits bits) := by
  induction bits using packBits.induct with
  | case1 => exact List.nil_prefix
  | case2 bit rest ih =>
      have hbyte : (bit :: rest).take 8 <+: highBits _ :=
        prefix_highBits (List.length_take_le _ _)
      rw [packBits, bitsIn, List.flatMap_cons]
      by_cases hfull : 8 ≤ (bit :: rest).length
      · -- a full byte has these bits and no others
        have heq := hbyte.eq_of_length (by
          rw [List.length_take_of_le hfull, highBits_eq, length_bitsOf])
        rw [← heq]
        conv_lhs => rw [← List.take_append_drop 8 (bit :: rest)]
        exact (List.prefix_append_right_inj _).2 ih
      · rw [List.take_of_length_le (by omega)] at hbyte ⊢
        exact hbyte.trans (List.prefix_append _ _)

/-- The bits of a pixel that a row has. -/
theorem getElem?_pixelAt {x i : Nat} (hi : i < depth) :
    (pixelAt depth bits x)[i]? = bits[x * depth + i]? := by
  rw [pixelAt, List.getElem?_take_of_lt hi, List.getElem?_drop]

theorem length_pixelAt {x : Nat} (h : (x + 1) * depth ≤ bits.length) :
    (pixelAt depth bits x).length = depth := by
  rw [Nat.succ_mul] at h
  rw [pixelAt, List.length_take, List.length_drop]
  omega

end Png

namespace Bitmap

open Png

variable {depth width x : Nat} {row row' : Bytes}

-- =============================================================== pixels

/-- The byte of a pixel, and where its bits lie in it. -/
theorem place_of_pixel (hdepth : depth ∈ ColourType.indexed.depths)
    (x : Nat) {i : Nat} (hi : i < depth) :
    (x * depth + i) / 8 = x / (8 / depth) ∧
      (x * depth + i) % 8 = depth * (x % (8 / depth)) + i ∧
      depth * (x % (8 / depth) + 1) ≤ 8 := by
  simp only [ColourType.depths, List.mem_cons, List.not_mem_nil, or_false]
    at hdepth
  rcases hdepth with rfl | rfl | rfl | rfl <;> omega

theorem le_of_mem_depths (hdepth : depth ∈ ColourType.indexed.depths) :
    0 < depth ∧ depth ≤ 8 := by
  simp only [ColourType.depths, List.mem_cons, List.not_mem_nil, or_false]
    at hdepth
  omega

theorem toNat_ofNat_mod (hdepth : depth ∈ ColourType.indexed.depths)
    (n : Nat) :
    (UInt8.ofNat (n % 2 ^ depth)).toNat = n % 2 ^ depth := by
  have hpow : 2 ^ depth ≤ 2 ^ 8 :=
    Nat.pow_le_pow_right (by decide) (le_of_mem_depths hdepth).2
  exact UInt8.toNat_ofNat_of_lt' (Nat.lt_of_lt_of_le
    (Nat.mod_lt n (Nat.two_pow_pos depth)) hpow)

/-- The bits of a pixel are bits of the row, the last of them the least
significant. -/
theorem testBit_sample (hdepth : depth ∈ ColourType.indexed.depths)
    (row : Bytes) (x i : Nat) :
    (sample depth row x).toNat.testBit i = (decide (i < depth) &&
      (bitsIn row)[x * depth + (depth - 1 - i)]?.getD false) := by
  rw [sample, Nat.one_shiftLeft, toNat_ofNat_mod hdepth,
    Nat.testBit_mod_two_pow, Nat.testBit_shiftRight]
  by_cases hi : i < depth
  · have hlast : depth - 1 - i < depth := by omega
    obtain ⟨hbyte, hbit, hfits⟩ := place_of_pixel hdepth x hlast
    have hfrom : 8 - depth * (x % (8 / depth) + 1) + i =
        7 - (depth * (x % (8 / depth)) + (depth - 1 - i)) := by
      rw [Nat.mul_add] at hfits ⊢
      omega
    rw [getElem?_bitsIn, hbyte, hbit, hfrom]
    cases row[x / (8 / depth)]? with
    | none => simp
    | some byte => rfl
  · rw [decide_eq_false hi, Bool.false_and, Bool.false_and]

/-- A pixel that lies in a row is the number that its bits spell. -/
theorem toNat_sample (hdepth : depth ∈ ColourType.indexed.depths)
    (h : (x + 1) * depth ≤ (bitsIn row).length) :
    (sample depth row x).toNat =
      ofBits (Png.pixelAt depth (bitsIn row) x) := by
  have hlength := length_pixelAt h
  apply Nat.eq_of_testBit_eq
  intro i
  rw [testBit_sample hdepth, testBit_ofBits]
  by_cases hi : i < depth
  · rw [List.getElem?_reverse (by omega), hlength,
      getElem?_pixelAt (by omega), decide_eq_true hi, Bool.true_and]
  · have hnone : (Png.pixelAt depth (bitsIn row) x).reverse[i]? = none :=
      List.getElem?_eq_none (by rw [List.length_reverse]; omega)
    rw [decide_eq_false hi, hnone]
    rfl

/-- A bit of a pixel is one of those that the pixels of a row take. -/
theorem bit_lt (hx : x < width) {i : Nat} (hi : i < depth) :
    x * depth + i < width * depth := by
  rw [Nat.mul_comm x]
  exact Nat.mul_add_lt_mul_of_lt_of_lt hx hi

/-- Only the bits of the pixels count: what fills up the last byte does
not. -/
theorem unpackRow_congr (hdepth : depth ∈ ColourType.indexed.depths)
    (h : (bitsIn row).take (width * depth) =
      (bitsIn row').take (width * depth)) :
    unpackRow depth width row = unpackRow depth width row' := by
  refine List.map_congr_left fun x hx => ?_
  rw [List.mem_range] at hx
  apply UInt8.toNat_inj.1
  apply Nat.eq_of_testBit_eq
  intro i
  rw [testBit_sample hdepth, testBit_sample hdepth]
  by_cases hi : i < depth
  · have hbit : x * depth + (depth - 1 - i) < width * depth :=
      bit_lt hx (by omega)
    rw [← List.getElem?_take_of_lt hbit, h,
      List.getElem?_take_of_lt hbit]
  · rw [decide_eq_false hi, Bool.false_and, Bool.false_and]

/-- A pixel whose bits stand at its place is unpacked. -/
theorem sample_eq (hdepth : depth ∈ ColourType.indexed.depths)
    {pixel : UInt8} (hfit : pixel.toNat < 2 ^ depth)
    (hbits : ∀ i < depth, (bitsIn row)[x * depth + i]? =
      some (pixel.toNat.testBit (depth - 1 - i))) :
    sample depth row x = pixel := by
  apply UInt8.toNat_inj.1
  apply Nat.eq_of_testBit_eq
  intro i
  rw [testBit_sample hdepth]
  by_cases hi : i < depth
  · have hback : depth - 1 - (depth - 1 - i) = i := by omega
    rw [hbits _ (by omega), hback, decide_eq_true hi]
    rfl
  · have hhigh : pixel.toNat < 2 ^ i :=
      Nat.lt_of_lt_of_le hfit
        (Nat.pow_le_pow_right (by decide) (Nat.le_of_not_lt hi))
    rw [decide_eq_false hi, Bool.false_and, Nat.testBit_lt_two_pow hhigh]

/-- Pixels whose bits stand at the front of a row are unpacked from it,
whatever follows them. -/
theorem unpackRow_of_prefix (hdepth : depth ∈ ColourType.indexed.depths)
    {pixels : Bytes} (hfits : ∀ pixel ∈ pixels, pixel.toNat < 2 ^ depth)
    (h : pixels.flatMap (bitsOf depth) <+: bitsIn row) :
    unpackRow depth pixels.length row = pixels := by
  obtain ⟨rest, hrest⟩ := h
  have hlength : (pixels.flatMap (bitsOf depth)).length =
      pixels.length * depth := by
    rw [List.length_flatMap]
    simp [length_bitsOf]
  refine List.ext_getElem (by simp [unpackRow]) fun x _ hx => ?_
  have hpixel : sample depth row x = pixels[x] := by
    apply sample_eq hdepth (hfits _ (List.getElem_mem hx))
    intro i hi
    rw [← hrest, List.getElem?_append_left (hlength ▸ bit_lt hx hi),
      getElem?_flatMap_of_width (length_bitsOf depth) hi,
      List.getElem?_eq_getElem hx]
    simp [bitsOf, hi]
  rw [← hpixel]
  simp [unpackRow]

-- ================================================== unpacking in steps

/-- The byte at a place of a row, which must be one of its places. -/
def byteAt (row : Bytes) (i : Nat) : Except Error UInt8 :=
  match row[i]? with
  | some byte => .ok byte
  | none => .error (.panic "byte")

/-- What a number lacks to another, which must not be less. -/
def subSizes (step : String) (a b : Nat) : Except Error Nat :=
  if a < b then .error (.panic step) else .ok (a - b)

/-- A byte shifted to the right, by less than its width. -/
def shiftByte (step : String) (byte : UInt8) (amount : Nat) :
    Except Error UInt8 :=
  if 8 ≤ amount then .error (.panic step)
  else .ok (byte >>> UInt8.ofNat amount)

/-- The lowest bits of a byte, as many as a depth says. -/
def maskOf (depth : Nat) : UInt8 := UInt8.ofNat (1 <<< depth - 1)

/-- The index of a pixel in a packed row, step by step. -/
def readSample (depth : Nat) (row : Bytes) (x : Nat) :
    Except Error UInt8 := do
  let perByte := 8 / depth
  let byte ← byteAt row (x / perByte)
  let amount ← subSizes "shift" 8 (depth * (x % perByte + 1))
  let shifted ← shiftByte "shift" byte amount
  return shifted &&& maskOf depth

/-- The indices of a packed row, step by step; where a byte is a pixel,
the row is cut. -/
def readRow (depth width : Nat) (row : Bytes) : Except Error Bytes :=
  if depth = 8 then sliceOf row 0 width
  else (List.range width).mapM (readSample depth row)

/-- A pixel that lies in a row is read without a failing step. -/
theorem readSample_ok (hdepth : depth ∈ ColourType.indexed.depths)
    (h : (x + 1) * depth ≤ 8 * row.length) :
    readSample depth row x = .ok (sample depth row x) := by
  obtain ⟨hpos, hle⟩ := le_of_mem_depths hdepth
  obtain ⟨hbyte, -, hfits⟩ := place_of_pixel hdepth x hpos
  have hin : x / (8 / depth) < row.length := by
    rw [Nat.succ_mul] at h
    omega
  have hmask : (maskOf depth).toNat = 2 ^ depth - 1 := by
    have hpow : 2 ^ depth ≤ 2 ^ 8 := Nat.pow_le_pow_right (by decide) hle
    rw [maskOf, Nat.one_shiftLeft]
    exact UInt8.toNat_ofNat_of_lt' (by unfold UInt8.size; omega)
  have hamount : depth ≤ depth * (x % (8 / depth) + 1) :=
    Nat.le_mul_of_pos_right depth (Nat.succ_pos _)
  rw [readSample, byteAt, List.getElem?_eq_getElem hin]
  simp only [ok_bind, subSizes, shiftByte]
  rw [if_neg (by omega), ok_bind, if_neg (by omega), ok_bind]
  refine congrArg Except.ok (UInt8.toNat_inj.1 ?_)
  have hbits : 8 - depth * (x % (8 / depth) + 1) < 8 := by omega
  rw [UInt8.toNat_and, hmask, Nat.and_two_pow_sub_one_eq_mod,
    UInt8.toNat_shiftRight,
    UInt8.toNat_ofNat_of_lt' (by unfold UInt8.size; omega),
    Nat.mod_eq_of_lt hbits, sample, Nat.one_shiftLeft,
    toNat_ofNat_mod hdepth, List.getElem?_eq_getElem hin]
  rfl

/-- A row that is long enough is unpacked without a failing step: no byte
outside it is asked for. -/
theorem readRow_ok (hdepth : depth ∈ ColourType.indexed.depths)
    (h : width * depth ≤ 8 * row.length) :
    readRow depth width row = .ok (unpackRow depth width row) := by
  unfold readRow
  split
  next hbyte =>
    subst hbyte
    have hle : width ≤ row.length := by omega
    have hslice : Cursor.slice? row 0 (0 + width) = _ :=
      Cursor.slice?_of_le (by omega)
    rw [Nat.zero_add, List.drop_zero] at hslice
    rw [sliceOf, hslice]
    refine congrArg Except.ok (List.ext_getElem? fun x => ?_)
    by_cases hx : x < width
    · have hin : x < row.length := by omega
      simp [unpackRow, sample, hx, hin, Nat.mod_one,
        Nat.mod_eq_of_lt (UInt8.toNat_lt _)]
    · simp [unpackRow, hx]
  next =>
    rw [mapM_eq_ok, unpackRow, List.forall₂_map_right_iff]
    refine List.forall₂_same.2 fun x hx => ?_
    have hpixel : (x + 1) * depth ≤ width * depth :=
      Nat.mul_le_mul_right _ (List.mem_range.1 hx)
    exact readSample_ok hdepth (hpixel.trans h)

-- =============================================================== sheets

variable {raster : Raster}

/-- The bitmap of a picture that was decoded, which must be one of palette
indices. -/
def ofRaster (raster : Raster) : Except Error Bitmap := do
  let h := raster.header
  if h.colour ≠ .indexed then
    throw (.value (.mismatch .indexedPng s!"{h.colour.name} bitmap"))
  match ofPackedRows? h.depth h.width h.height raster.rows
    raster.palette with
  | some bitmap => return bitmap
  | none => throw (decodingError .tooLittleData)

theorem decodePng_eq (bytes : Bytes) : decodePng bytes =
    (Png.decode bytes).mapError decodingError >>= ofRaster :=
  rfl

/-- A row has a pixel for each column, however many bits fill up its last
byte. -/
theorem length_unpackRow (depth width : Nat) (row : Bytes) :
    (unpackRow depth width row).length = width := by
  simp [unpackRow]

/-- As many rows as the height says are unpacked to a bitmap. -/
theorem ofRaster_ok (hcolour : raster.header.colour = .indexed)
    (hcount : raster.rows.length = raster.header.height) :
    ∃ bitmap, ofRaster raster = .ok bitmap ∧
      bitmap.width = raster.header.width ∧
      bitmap.height = raster.header.height ∧
      bitmap.pixels.toList = raster.rows.flatMap
        (unpackRow raster.header.depth raster.header.width) := by
  have hrows : raster.rows.take raster.header.height = raster.rows :=
    List.take_of_length_le (Nat.le_of_eq hcount)
  have hsize : (raster.rows.flatMap (unpackRow raster.header.depth
      raster.header.width)).toArray.size =
        raster.header.width * raster.header.height := by
    rw [List.size_toArray, List.length_flatMap]
    simp [length_unpackRow, hcount, Nat.mul_comm]
  refine ⟨⟨raster.header.width, raster.header.height, _, hsize,
    raster.palette⟩, ?_, rfl, rfl, rfl⟩
  unfold ofRaster ofPackedRows? ofPixels?
  simp only [hcolour, hrows, hsize]
  rfl

/-- The bitmap of a packed picture of palette indices, given as many rows
as its height says, each of as many bytes as its pixels need: it has
exactly the pixels of the picture, and each is the number that its bits in
its row spell. No byte outside a row is asked for, and what fills up the
last byte does not count; so a row of pixels is unpacked from every row of
bytes that starts with their bits, such as the one that they are packed
into. -/
theorem ofRaster_unpacks (hcolour : raster.header.colour = .indexed)
    (hdepth : raster.header.depth ∈ ColourType.indexed.depths)
    (hcount : raster.rows.length = raster.header.height)
    (hsize : ∀ row ∈ raster.rows, row.length =
      (raster.header.width * raster.header.depth + 7) / 8) :
    (∃ bitmap, ofRaster raster = .ok bitmap ∧
      (∀ bytes, Png.decode bytes = .ok raster →
        decodePng bytes = .ok bitmap) ∧
      bitmap.width = raster.header.width ∧
      bitmap.height = raster.header.height ∧
      bitmap.pixels.size = raster.header.width * raster.header.height ∧
      ∀ x y, x < raster.header.width → y < raster.header.height →
        ∃ row, raster.rows[y]? = some row ∧
          (bitmap.get x y).toNat = ofBits
            (((bitsIn row).drop (x * raster.header.depth)).take
              raster.header.depth)) ∧
      (∀ row ∈ raster.rows,
        readRow raster.header.depth raster.header.width row =
            .ok (unpackRow raster.header.depth raster.header.width row) ∧
          ∀ row', (bitsIn row').take
                (raster.header.width * raster.header.depth) =
              (bitsIn row).take
                (raster.header.width * raster.header.depth) →
            unpackRow raster.header.depth raster.header.width row' =
              unpackRow raster.header.depth raster.header.width row) ∧
      ∀ pixels : Bytes,
        (∀ pixel ∈ pixels, pixel.toNat < 2 ^ raster.header.depth) →
        (∀ row, pixels.flatMap (bitsOf raster.header.depth) <+:
            bitsIn row →
          unpackRow raster.header.depth pixels.length row = pixels) ∧
        unpackRow raster.header.depth pixels.length
          (packBits (pixels.flatMap (bitsOf raster.header.depth))) =
            pixels := by
  obtain ⟨bitmap, hbitmap, hwidth, hheight, hpixels⟩ :=
    ofRaster_ok hcolour hcount
  have hbits : ∀ row ∈ raster.rows,
      raster.header.width * raster.header.depth ≤ 8 * row.length := by
    intro row hrow
    rw [hsize row hrow]
    omega
  refine ⟨⟨bitmap, hbitmap, ?_, hwidth, hheight, ?_, ?_⟩, ?_, ?_⟩
  · intro bytes hbytes
    rw [decodePng_eq, hbytes]
    exact hbitmap
  · rw [bitmap.size_eq, hwidth, hheight]
  · intro x y hx hy
    have hrow : y < raster.rows.length := hcount ▸ hy
    refine ⟨raster.rows[y], List.getElem?_eq_getElem hrow, ?_⟩
    have hpixel : (x + 1) * raster.header.depth ≤
        raster.header.width * raster.header.depth :=
      Nat.mul_le_mul_right _ hx
    have hget : bitmap.get x y =
        sample raster.header.depth raster.rows[y] x := by
      rw [get, hwidth, ← Array.getElem?_toList, hpixels,
        getElem?_flatMap_of_width (length_unpackRow _ _) hx,
        List.getElem?_eq_getElem hrow]
      simp [unpackRow, hx]
    rw [hget]
    apply toNat_sample hdepth
    rw [length_bitsIn]
    exact hpixel.trans (hbits _ (List.getElem_mem hrow))
  · intro row hrow
    exact ⟨readRow_ok hdepth (hbits row hrow),
      fun row' h => unpackRow_congr hdepth h⟩
  · intro pixels hfits
    exact ⟨fun row h => unpackRow_of_prefix hdepth hfits h,
      unpackRow_of_prefix hdepth hfits (prefix_bitsIn_packBits _)⟩

/-- Five pixels of two bits, the last of them in a byte of its own that
three more pixels would fit. -/
def fivePixels : Raster where
  header := ⟨5, 1, 2, .indexed, false⟩
  palette := some [⟨0, 0, 0⟩, ⟨1, 1, 1⟩, ⟨2, 2, 2⟩, ⟨3, 3, 3⟩]
  rows := [[0x1b, 0x40]]

/-- Five pixels of two bits each in two bytes, the last of them filled
up. -/
theorem ofRaster_unpacks_fivePixels :
    fivePixels.header.colour = .indexed ∧
      fivePixels.header.depth ∈ ColourType.indexed.depths ∧
      fivePixels.rows.length = fivePixels.header.height ∧
      (∀ row ∈ fivePixels.rows, row.length =
        (fivePixels.header.width * fivePixels.header.depth + 7) / 8) ∧
      Png.decode (Png.encode fivePixels) = .ok fivePixels ∧
      ∃ bitmap, decodePng (Png.encode fivePixels) = .ok bitmap ∧
        bitmap.pixels.size = 5 ∧ (bitmap.get 3 0).toNat = 3 ∧
        (bitmap.get 4 0).toNat = 1 ∧
        unpackRow 2 5 [0x1b, 0x7f] = [0, 1, 2, 3, 1] := by
  have hsize : ∀ row ∈ fivePixels.rows, row.length =
      (fivePixels.header.width * fivePixels.header.depth + 7) / 8 :=
    List.forall_mem_singleton.2 rfl
  have hdecode : Png.decode (Png.encode fivePixels) = .ok fivePixels := by
    decide +kernel
  have hfits : ∀ pixel ∈ ([0, 1, 2, 3, 1] : Bytes),
      pixel.toNat < 2 ^ fivePixels.header.depth := by
    simp [fivePixels]
  obtain ⟨⟨bitmap, -, hbytes, -, -, hpixels, hget⟩, -, hrows⟩ :=
    ofRaster_unpacks rfl (by decide) rfl hsize
  obtain ⟨row, hrow, hthird⟩ := hget 3 0 (by decide) (by decide)
  obtain rfl := Option.some.inj hrow
  obtain ⟨row, hrow, hlast⟩ := hget 4 0 (by decide) (by decide)
  obtain rfl := Option.some.inj hrow
  exact ⟨rfl, by decide, rfl, hsize, hdecode, bitmap, hbytes _ hdecode,
    hpixels, hthird.trans (by decide), hlast.trans (by decide),
    (hrows [0, 1, 2, 3, 1] hfits).1 [0x1b, 0x7f] (by decide)⟩

end Bitmap

end GamePack
