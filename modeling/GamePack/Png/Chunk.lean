import GamePack.Flate.Stream

/-!
PNG files as rows of chunks. Every chunk has a length, a kind of four
letters, data and a checksum over kind and data.
-/
namespace GamePack.Png

/-- Why a PNG cannot be read. -/
inductive Fault where
  | badSignature
  | truncated
  | badChecksum
  /-- The header is missing or not valid. -/
  | badHeader
  /-- A chunk occurs twice that must not. -/
  | repeated (kind : String)
  /-- The data of a chunk is not what its kind asks for. -/
  | badContent (kind : String)
  /-- The chunks of an animation are not numbered one after the other. -/
  | outOfOrder
  | noData
  | tooLittleData
  /-- A row is too long to be read. -/
  | tooWide
  | badFilter
  | flate (cause : Flate.Fault)
  deriving DecidableEq, Repr

/-- The words for a fault. -/
def Fault.message : Fault → String
  | .badSignature => "not a PNG"
  | .truncated => "the file ends early"
  | .badChecksum => "a chunk has a wrong checksum"
  | .badHeader => "the header is not valid"
  | .repeated kind => s!"the chunk {kind} occurs twice"
  | .badContent kind => s!"the chunk {kind} is not valid"
  | .outOfOrder => "the frames are out of order"
  | .noData => "there is no picture data"
  | .tooLittleData => "there are too few rows"
  | .tooWide => "the rows are too long"
  | .badFilter => "a row has an unknown filter"
  | .flate cause => cause.message

/-- The first eight bytes of a PNG. -/
def signature : Bytes := [0x89, 0x50, 0x4e, 0x47, 0x0d, 0x0a, 0x1a, 0x0a]

-- ========================================================= checksums

/-- One step of the division that makes a checksum. -/
def crcBit (crc : UInt32) : UInt32 :=
  if crc &&& 1 = 1 then (crc >>> 1) ^^^ 0xedb88320 else crc >>> 1

/-- A checksum after one more byte. -/
def crcByte (crc : UInt32) (byte : UInt8) : UInt32 :=
  (List.range 8).foldl (fun crc _ => crcBit crc) (crc ^^^ byte.toUInt32)

/-- The checksum of a chunk's kind and data. -/
def crc (bytes : Bytes) : UInt32 :=
  bytes.foldl crcByte 0xffffffff ^^^ 0xffffffff

-- ============================================================ chunks

/-- One chunk. -/
structure Chunk where
  kind : Bytes
  data : Bytes
  /-- The stored checksum is the right one. -/
  intact : Bool
  deriving DecidableEq, Repr

/-- The most significant byte first. -/
def beBytes (width n : Nat) : Bytes := (leBytes width n).reverse

/-- The number whose bytes are given, most significant first. -/
def ofBE (bytes : Bytes) : Nat := ofLE bytes.reverse

/-- The kind of chunk with the given letters. -/
def kindOf (letters : String) : Bytes := letters.toUTF8.toList

/-- Whether a chunk must be understood: the first letter is a capital. -/
def Chunk.isCritical (c : Chunk) : Bool :=
  match c.kind with
  | first :: _ => first.toNat / 32 % 2 == 0
  | [] => true

/-- The chunk at the front of the bytes, and what follows it. -/
def readChunk (bytes : Bytes) : Except Fault (Chunk × Bytes) :=
  let length := ofBE (bytes.take 4)
  let kind := (bytes.drop 4).take 4
  let body := bytes.drop 8
  if body.length < length + 4 then .error .truncated
  else
    let data := body.take length
    let stored := ofBE ((body.drop length).take 4)
    .ok (⟨kind, data, (crc (kind ++ data)).toNat == stored⟩,
      body.drop (length + 4))

/-- The bytes of a chunk. -/
def chunk (letters : String) (data : Bytes) : Bytes :=
  let kind := kindOf letters
  beBytes 4 data.length ++ kind ++ data ++ beBytes 4 (crc (kind ++ data)).toNat

end GamePack.Png
