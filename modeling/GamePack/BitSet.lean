import GamePack.Enumeration

/-!
Bitsets: named groups of bits in one stored number. A bit field takes
symbols of an enumeration; a symbol's value is either the number put at
the field's first bit or the index of a bit counted from there. Packing
a literal is the bitwise or of what its symbols contribute.
-/
namespace GamePack

/-- One named range of bits. -/
structure BitField where
  name : String
  /-- The enumeration that gives the symbols. -/
  source : Enumeration
  /-- The lowest bit of the field. -/
  start : Nat
  /-- The least number of symbols. -/
  min : Nat
  /-- The greatest number of symbols. -/
  max : Nat
  /-- A symbol's value is the index of a bit. -/
  bitIndex : Bool
  deriving DecidableEq, Repr

/-- A bitset. -/
structure BitSet where
  name : String
  storage : Numeric
  fields : List BitField
  deriving DecidableEq, Repr

/-- A literal: symbols under names of bit fields, in written order. -/
abbrev BitLiteral := List (String × List String)

namespace BitField

/-- What is wrong with a field among the fields before it. -/
def flaw? (storage : Numeric) (earlier : List BitField) (f : BitField) :
    Option DefinitionFlaw :=
  if storage.bits ≤ f.start then
    some (.startBeyond f.name f.start storage.name)
  else if f.max < f.min then some (.minAboveMax f.name f.min f.max)
  else if earlier.any (·.name == f.name) then
    some (.bitFieldTwice f.name)
  else none

/-- A value that has no place in the field. -/
def outOfRange (storage : Numeric) (f : BitField) (value : Int) :
    ValueError :=
  .outOfRange value s!"bitfield '{f.name}'" 0
    ((storage.bits - f.start - 1 : Nat) : Int)

/-- The stored bits of one symbol's value. The index of a bit is added to
the start of the field in a 32 bit word. -/
def bitsOf (storage : Numeric) (f : BitField) (value : Int) :
    Except Error Nat :=
  if value < 0 then .error (.value (f.outOfRange storage value))
  else if f.bitIndex then
    let bit := value.toNat
    if 0x100000000 ≤ bit then .error (.value (f.outOfRange storage value))
    else if 0x100000000 ≤ f.start + bit then .error (.panic "bit index")
    else if storage.bits ≤ f.start + bit then
      .error (.value (f.outOfRange storage value))
    else .ok (1 <<< bit <<< f.start)
  else .ok (value.toNat <<< f.start)

/-- The symbols that a literal gives the field, over all its entries. -/
def symbolsIn (f : BitField) (literal : BitLiteral) : List String :=
  (literal.filter (·.1 == f.name)).flatMap Prod.snd

/-- The stored bits of one symbol. -/
def bitsOfSymbol (storage : Numeric) (f : BitField) (symbol : String) :
    Except Error Nat :=
  match f.source.lookup symbol with
  | .error cause => .error (.value cause)
  | .ok value => f.bitsOf storage value

/-- The bitwise or of a field's bits with the bits packed so far. -/
def packInto (storage : Numeric) (literal : BitLiteral) (packed : Nat)
    (f : BitField) : Except Error Nat :=
  let symbols := f.symbolsIn literal
  let count := symbols.length
  if count < f.min ∨ f.max < count then
    .error (.value (.occurrenceCount f.name count f.min f.max))
  else
    symbols.foldlM (fun packed symbol => do
      return packed ||| (← f.bitsOfSymbol storage symbol)) packed

end BitField

namespace BitSet

/-- The first flaw in a row of fields, each judged with those before. -/
def firstFlaw? (storage : Numeric) (earlier : List BitField) :
    List BitField → Option DefinitionFlaw
  | [] => none
  | f :: rest =>
    match f.flaw? storage earlier with
    | some flaw => some flaw
    | none => firstFlaw? storage (earlier ++ [f]) rest

/-- A bitset whose fields start inside the storage, have a possible
count of symbols and distinct names. -/
def ofFields (name : String) (storage : Numeric)
    (fields : List BitField) : Except SchemaError BitSet :=
  match firstFlaw? storage [] fields with
  | some flaw => .error (.invalidDefinition name flaw)
  | none => .ok { name, storage, fields }

/-- Whether a name is one of the bit fields. -/
def hasField (b : BitSet) (name : String) : Bool :=
  b.fields.any (·.name == name)

/-- The stored number of a literal. A field that the literal does not
name has no symbols. -/
def pack (b : BitSet) (literal : BitLiteral) : Except Error Int :=
  match literal.find? fun entry => !b.hasField entry.1 with
  | some entry => .error (.value (.unknownBitField b.name entry.1))
  | none => do
    let packed ← b.fields.foldlM
      (BitField.packInto b.storage literal) 0
    if 0x8000000000000000 ≤ packed then
      throw (.value (.outOfRange Numeric.wordMax b.name 0 b.storage.max))
    (b.storage.check packed).mapError .value

end BitSet

end GamePack
