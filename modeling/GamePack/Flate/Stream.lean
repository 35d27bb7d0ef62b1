import GamePack.Flate.Code

/-!
Compressed data streams. A stream is a header of two bytes, blocks, and
a checksum of four bytes. A block holds its bytes as they are, or
symbols of two prefix codes: one for bytes and lengths, one for how far
back the bytes to repeat start. The codes are fixed, or described in
front of the symbols by a third code.

Reading takes any stream and ignores the checksum; writing uses blocks
that hold their bytes as they are.
-/
namespace GamePack.Flate

-- ============================================================ tables

/-- The base and the number of extra bits of each length symbol, counted
from the first. -/
def lengthTable : List (Nat × Nat) :=
  [(3, 0), (4, 0), (5, 0), (6, 0), (7, 0), (8, 0), (9, 0), (10, 0),
    (11, 1), (13, 1), (15, 1), (17, 1), (19, 2), (23, 2), (27, 2), (31, 2),
    (35, 3), (43, 3), (51, 3), (59, 3), (67, 4), (83, 4), (99, 4),
    (115, 4), (131, 5), (163, 5), (195, 5), (227, 5), (258, 0)]

/-- The base and the number of extra bits of each distance symbol. -/
def distanceTable : List (Nat × Nat) :=
  [(1, 0), (2, 0), (3, 0), (4, 0), (5, 1), (7, 1), (9, 2), (13, 2),
    (17, 3), (25, 3), (33, 4), (49, 4), (65, 5), (97, 5), (129, 6),
    (193, 6), (257, 7), (385, 7), (513, 8), (769, 8), (1025, 9),
    (1537, 9), (2049, 10), (3073, 10), (4097, 11), (6145, 11),
    (8193, 12), (12289, 12), (16385, 13), (24577, 13)]

/-- The order in which the lengths of the third code are given. -/
def lengthOrder : List Nat :=
  [16, 17, 18, 0, 8, 7, 9, 6, 10, 5, 11, 4, 12, 3, 13, 2, 14, 1, 15]

/-- The symbol that ends a block. -/
def endOfBlock : Nat := 256

/-- The two codes of a block. -/
structure BlockCodes where
  literals : Code
  distances : Code

/-- The codes of a block that describes none. -/
def fixedCodes : BlockCodes :=
  { literals := .ofLengths
      (List.replicate 144 8 ++ List.replicate 112 9 ++
        List.replicate 24 7 ++ List.replicate 8 8)
    distances := .ofLengths (List.replicate 32 5) }

-- ========================================================= described

/-- One entry of described word lengths: a length, or a repetition. The
lengths so far are kept last first. -/
def readLength (c : Code) (lengths : List Nat) (bits : Bits) :
    Except Fault (List Nat × Bits) := do
  let (symbol, bits) ← c.read bits
  if symbol < 16 then return (symbol :: lengths, bits)
  else if symbol = 16 then
    let (more, bits) ← number 2 bits
    match lengths with
    | [] => throw .badCodeLengths
    | last :: _ =>
      return (List.replicate (more + 3) last ++ lengths, bits)
  else if symbol = 17 then
    let (more, bits) ← number 3 bits
    return (List.replicate (more + 3) 0 ++ lengths, bits)
  else
    let (more, bits) ← number 7 bits
    return (List.replicate (more + 11) 0 ++ lengths, bits)

/-- The described word lengths, `count` in all. Every entry adds one at
least, so `count` steps are enough. -/
def readLengths (c : Code) (count fuel : Nat) (lengths : List Nat)
    (bits : Bits) : Except Fault (List Nat × Bits) :=
  if lengths.length = count then .ok (lengths.reverse, bits)
  else if count < lengths.length then .error .badCodeLengths
  else match fuel with
    | 0 => .error .badCodeLengths
    | fuel + 1 => do
      let (lengths, bits) ← readLength c lengths bits
      readLengths c count fuel lengths bits

/-- Numbers of three bits. -/
def readTriples : Nat → Bits → Except Fault (List Nat × Bits)
  | 0, bits => .ok ([], bits)
  | count + 1, bits => do
    let (n, bits) ← number 3 bits
    let (more, bits) ← readTriples count bits
    return (n :: more, bits)

/-- The codes that a block describes. -/
def readCodes (bits : Bits) : Except Fault (BlockCodes × Bits) := do
  let (moreLiterals, bits) ← number 5 bits
  let (moreDistances, bits) ← number 5 bits
  let (moreLengths, bits) ← number 4 bits
  let literalCount := moreLiterals + 257
  let distanceCount := moreDistances + 1
  if 286 < literalCount ∨ 30 < distanceCount then throw .badCodeLengths
  let (triples, bits) ← readTriples (moreLengths + 4) bits
  let given := lengthOrder.zip triples
  let lengthCode := Code.ofLengths
    ((List.range 19).map fun symbol => (given.lookup symbol).getD 0)
  if !lengthCode.isComplete then throw .badCodeLengths
  let count := literalCount + distanceCount
  let (lengths, bits) ← readLengths lengthCode count count [] bits
  let literals := Code.ofLengths (lengths.take literalCount)
  let distances := Code.ofLengths (lengths.drop literalCount)
  if lengths[endOfBlock]? = some 0 then throw .badCodeLengths
  if !literals.isComplete then throw .badCodeLengths
  if !(distances.isComplete || distances.isDegenerate) then
    throw .badCodeLengths
  return (⟨literals, distances⟩, bits)

-- ============================================================ blocks

/-- Append bytes that were written before, from `distance` back. A
length beyond the distance repeats what was just appended. -/
def repeatBytes (distance : Nat) : Nat → Array UInt8 → Array UInt8
  | 0, out => out
  | length + 1, out =>
    repeatBytes distance length
      (out.push (out[out.size - distance]?.getD 0))

/-- The number that a symbol with its extra bits stands for. -/
def readEntry (table : List (Nat × Nat)) (index : Nat) (bits : Bits) :
    Except Fault (Nat × Bits) :=
  match table[index]? with
  | none => .error .badSymbol
  | some (base, extra) => do
    let (more, bits) ← number extra bits
    return (base + more, bits)

/-- The symbols of a block up to its end. Each symbol takes a bit at
least, so as much fuel as there are bits is enough. -/
def readSymbols (codes : BlockCodes) (fuel : Nat) (out : Array UInt8)
    (bits : Bits) : Except Fault (Array UInt8 × Bits) :=
  match fuel with
  | 0 => .error .truncated
  | fuel + 1 => do
    let (symbol, bits) ← codes.literals.read bits
    if symbol < endOfBlock then
      readSymbols codes fuel (out.push (UInt8.ofNat symbol)) bits
    else if symbol = endOfBlock then return (out, bits)
    else
      let (length, bits) ← readEntry lengthTable (symbol - 257) bits
      let (symbol, bits) ← codes.distances.read bits
      let (distance, bits) ← readEntry distanceTable symbol bits
      if out.size < distance then throw .badDistance
      readSymbols codes fuel (repeatBytes distance length out) bits

/-- Bytes as they are, at the front of a stream. -/
def readPlain : Nat → Array UInt8 → Bits →
    Except Fault (Array UInt8 × Bits)
  | 0, out, bits => .ok (out, bits)
  | count + 1, out, bits => do
    let (byte, bits) ← number 8 bits
    readPlain count (out.push (UInt8.ofNat byte)) bits

/-- A block that holds its bytes as they are; it starts at the next
whole byte. -/
def readStored (out : Array UInt8) (bits : Bits) :
    Except Fault (Array UInt8 × Bits) := do
  let (length, bits) ← number 16 (bits.drop (bits.length % 8))
  let (check, bits) ← number 16 bits
  if length + check ≠ 65535 then throw .badStoredLength
  readPlain length out bits

/-- The bytes of all blocks, and what follows them. Each block takes
three bits at least, so as much fuel as there are bits is enough. -/
def readBlocks (fuel : Nat) (out : Array UInt8) (bits : Bits) :
    Except Fault (Array UInt8 × Bits) :=
  match fuel with
  | 0 => .error .truncated
  | fuel + 1 => do
    let (last, bits) ← number 1 bits
    let (kind, bits) ← number 2 bits
    let (out, bits) ← match kind with
      | 0 => readStored out bits
      | 1 => readSymbols fixedCodes bits.length out bits
      | 2 => do
        let (codes, bits) ← readCodes bits
        readSymbols codes bits.length out bits
      | _ => throw .badBlockKind
    if last = 1 then return (out, bits) else readBlocks fuel out bits

/-- The bytes of a stream, whose header must be valid and whose checksum
must be there. -/
def decompress (bytes : Bytes) : Except Fault (Array UInt8) :=
  match bytes with
  | method :: flags :: rest =>
    let m := method.toNat
    let f := flags.toNat
    if m % 16 ≠ 8 ∨ 7 < m / 16 ∨ (256 * m + f) % 31 ≠ 0 ∨ f.testBit 5 then
      .error .badHeader
    else do
      let bits := bitsOf rest
      let (out, bits) ← readBlocks bits.length #[] bits
      if bits.length < 32 then throw .truncated
      return out
  | _ => .error .truncated

-- =========================================================== writing

/-- The checksum of a stream. -/
def checksum (bytes : Bytes) : Nat :=
  let (a, b) := bytes.foldl (fun (a, b) byte =>
    let a := (a + byte.toNat) % 65521
    (a, (b + a) % 65521)) (1, 0)
  65536 * b + a

/-- One block that holds its bytes as they are. -/
def storedBlock (last : Bool) (bytes : Bytes) : Bytes :=
  (if last then 1 else 0) :: (leBytes 2 bytes.length ++
    leBytes 2 (65535 - bytes.length) ++ bytes)

/-- Blocks of at most 65535 bytes. -/
def storedBlocks (bytes : Bytes) : Bytes :=
  if _h : bytes.length ≤ 65535 then storedBlock true bytes
  else storedBlock false (bytes.take 65535) ++
    storedBlocks (bytes.drop 65535)
termination_by bytes.length
decreasing_by
  simp only [List.length_drop]
  omega

/-- A stream of the given bytes. -/
def compress (bytes : Bytes) : Bytes :=
  [0x78, 0x01] ++ storedBlocks bytes ++
    (leBytes 4 (checksum bytes)).reverse

end GamePack.Flate
