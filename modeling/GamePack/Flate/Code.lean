import GamePack.Bytes

/-!
Prefix codes for compressed data. A code is given by the lengths of its
words alone: words of one length are consecutive numbers, handed out in
the order of the symbols, and shorter words come first. Reading a symbol
takes bits from the front of a stream until they make up a word.
-/
namespace GamePack.Flate

/-- A stream of bits. -/
abbrev Bits := List Bool

/-- The bits of a byte, least significant first. -/
def bitsOfByte (b : UInt8) : Bits :=
  (List.range 8).map fun i => b.toNat.testBit i

/-- The bits of bytes, each byte least significant first. -/
def bitsOf (bytes : Bytes) : Bits := bytes.flatMap bitsOfByte

/-- Why compressed data cannot be read. -/
inductive Fault where
  | truncated
  | badHeader
  | badBlockKind
  | badStoredLength
  | badCodeLengths
  | badSymbol
  | badDistance
  deriving DecidableEq, Repr

/-- The words for a fault. -/
def Fault.message : Fault → String
  | .truncated => "compressed data ends early"
  | .badHeader => "compressed data has no valid header"
  | .badBlockKind => "unknown kind of compressed block"
  | .badStoredLength => "stored block with a wrong length"
  | .badCodeLengths => "code lengths make no code"
  | .badSymbol => "unknown symbol in compressed data"
  | .badDistance => "distance before the start of the data"

/-- The number that the first bits of a stream spell, the lowest bit
first. -/
def number : Nat → Bits → Except Fault (Nat × Bits)
  | 0, bits => .ok (0, bits)
  | _ + 1, [] => .error .truncated
  | width + 1, bit :: bits => do
    let (high, rest) ← number width bits
    return (bit.toNat + 2 * high, rest)

-- ============================================================= codes

/-- The longest word of a code. -/
def maxWord : Nat := 15

/-- A prefix code. -/
structure Code where
  /-- How many words have the length one, two, and so on. -/
  counts : List Nat
  /-- The symbols by the length of their words, then in their order. -/
  symbols : Array Nat
  deriving Repr

namespace Code

/-- The symbols whose words have a length. -/
def symbolsOfLength (lengths : List Nat) (length : Nat) : List Nat :=
  (lengths.zipIdx.filter (·.1 == length)).map Prod.snd

/-- The code of given word lengths, one for each symbol; length zero
means that the symbol has no word. -/
def ofLengths (lengths : List Nat) : Code :=
  let groups := (List.range' 1 maxWord).map (symbolsOfLength lengths)
  ⟨groups.map List.length, groups.flatten.toArray⟩

/-- Twice the words that are left after the given counts, starting with
a number of free words. -/
def wordsLeft (free : Int) (counts : List Nat) : Int :=
  counts.foldl (fun (free : Int) (count : Nat) => 2 * free - count) free

/-- Whether every long enough row of bits starts with a word, and with
one only. Free words that went below zero on the way could not come back
to zero, since each length doubles them and takes words away. -/
def isComplete (c : Code) : Bool := wordsLeft 1 c.counts == 0

/-- Whether the code has no word, or a single one of one bit. -/
def isDegenerate (c : Code) : Bool :=
  total c.counts == 0 || (total c.counts == 1 && c.counts.head? == some 1)

/-- Read a symbol. `word` is what has been read, `first` the first word
of that length, and `index` the number of shorter words. -/
def readFrom (symbols : Array Nat) (word first index : Nat) :
    List Nat → Bits → Except Fault (Nat × Bits)
  | [], _ => .error .badSymbol
  | _ :: _, [] => .error .truncated
  | count :: counts, bit :: bits =>
    let word := 2 * word + bit.toNat
    let first := 2 * first
    if word < first + count then
      match symbols[index + (word - first)]? with
      | some symbol => .ok (symbol, bits)
      | none => .error .badSymbol
    else readFrom symbols word (first + count) (index + count) counts bits

/-- Read a symbol from the front of a stream. -/
def read (c : Code) (bits : Bits) : Except Fault (Nat × Bits) :=
  readFrom c.symbols 0 0 0 c.counts bits

end Code

end GamePack.Flate
