import GamePack.Proofs.BitSet.Packing
import GamePack.Proofs.Words

/-!
Packing in machine words. `BitSet.packWords` is packing with every number
in the word it has on the machine: bits and places in words of 32 bits,
packed bits in words of 64. Each sum, difference and shift is a step of
its own that panics when its exact result does not fit, and a shift also
when its amount reaches the width of the word.

For bitsets that are made over enumerations that are made, this is
packing, so of all these steps only one can panic, the sum of the start of
a field and the bit that a symbol counts to (`BitField.Wraps`). Where it
does not, a bit outside the storage is out of range, and every other
refusal is what it is without words.
-/
namespace GamePack

variable {α ε : Type}

-- ================================================================ rows

/-- Steps in words that agree with steps in numbers one by one agree with
them over a row. -/
theorem toNat_foldlM {f : UInt64 → α → Except ε UInt64}
    {g : Nat → α → Except ε Nat} {l : List α}
    (h : ∀ a ∈ l, ∀ w, UInt64.toNat <$> f w a = g w.toNat a)
    (w : UInt64) :
    UInt64.toNat <$> l.foldlM f w = l.foldlM g w.toNat := by
  induction l generalizing w with
  | nil => rfl
  | cons a l ih =>
      have hrest := ih fun c hc => h c (List.mem_cons_of_mem a hc)
      rw [List.foldlM_cons, List.foldlM_cons, ← h a List.mem_cons_self w]
      cases f w a with
      | error e => rfl
      | ok v => exact hrest v

-- ======================================================= bits in words

/-- What a symbol of a sound enumeration stands for has at most 32
bits. -/
theorem Enumeration.IsSound.value_le {e : Enumeration} (h : e.IsSound)
    {symbol : String} {value : Int}
    (hlookup : e.lookup symbol = .ok value) : value ≤ 0xffffffff := by
  have hbounds := e.base.range_bounds
  have hvalue := (h symbol value hlookup).2
  omega

namespace BitField

variable {storage : Numeric} {f : BitField} {literal : BitLiteral}
  {symbol : String} {value : Int}

/-- The refusal of a value, with the last bit that it could count to. -/
def refuseWord (storage : Numeric) (f : BitField) (value : Int) :
    Except Error UInt64 := do
  let room ← subWords "bits left" (.ofNat storage.bits) (.ofNat f.start)
  let last ← subWords "last bit" room 1
  throw (.value
    (.outOfRange value s!"bitfield '{f.name}'" 0 last.toNat))

/-- The bits of a value before they are moved to the start of the
field. -/
def unshifted (storage : Numeric) (f : BitField) (value : Int) :
    Except Error UInt64 :=
  if f.bitIndex then
    if value < 0 ∨ 0x100000000 ≤ value then f.refuseWord storage value
    else do
      let last ←
        addWords "bit index" (.ofNat f.start) (.ofNat value.toNat)
      if storage.bits ≤ last.toNat then f.refuseWord storage value
      else shiftWord "bit" 1 (.ofNat value.toNat)
  else if value < 0 then f.refuseWord storage value
  else .ok (.ofNat value.toNat)

/-- The bits of a value. -/
def wordOf (storage : Numeric) (f : BitField) (value : Int) :
    Except Error UInt64 := do
  shiftWord "field" (← f.unshifted storage value) (.ofNat f.start)

/-- The bits of a symbol. -/
def wordOfSymbol (storage : Numeric) (f : BitField) (symbol : String) :
    Except Error UInt64 :=
  match f.source.lookup symbol with
  | .error cause => .error (.value cause)
  | .ok value => f.wordOf storage value

/-- The bitwise or of a field's bits with those packed so far. -/
def packWordInto (storage : Numeric) (literal : BitLiteral)
    (packed : UInt64) (f : BitField) : Except Error UInt64 :=
  let symbols := f.symbolsIn literal
  let count := symbols.length
  if count < f.min ∨ f.max < count then
    .error (.value (.occurrenceCount f.name count f.min f.max))
  else
    symbols.foldlM (fun packed symbol => do
      return packed ||| (← f.wordOfSymbol storage symbol)) packed

/-- The bits of the storage and the start of a field that lies inside it
are what they are as words. -/
theorem toNat_places (hstart : f.start < storage.bits) :
    (UInt32.ofNat storage.bits).toNat = storage.bits ∧
      (UInt32.ofNat f.start).toNat = f.start := by
  have hbits := storage.bits_le
  have hsize : UInt32.size = 0x100000000 := rfl
  exact ⟨UInt32.toNat_ofNat_of_lt' (by omega),
    UInt32.toNat_ofNat_of_lt' (by omega)⟩

/-- A field that starts inside the storage refuses a value without a
failing step. -/
theorem refuseWord_eq (hstart : f.start < storage.bits) (value : Int) :
    f.refuseWord storage value = .error (.value (f.outOfRange storage value)) := by
  obtain ⟨hstorage, hfirst⟩ := toNat_places hstart
  obtain ⟨room, hroom, hleft⟩ := subWords_ok "bits left"
    (a := .ofNat storage.bits) (b := .ofNat f.start) (by omega)
  have hone : (1 : UInt32).toNat = 1 := rfl
  obtain ⟨last, hlast, hindex⟩ := subWords_ok "last bit"
    (a := room) (b := 1) (by omega)
  unfold refuseWord outOfRange
  rw [hroom, ok_bind, hlast, ok_bind, hindex, hleft, hstorage, hfirst]
  rfl

/-- A number of 32 bits, moved by less than 32 places, fits 63 bits. -/
theorem shiftLeft_lt {n k : Nat} (hn : n ≤ 0xffffffff) (hk : k < 32) :
    n <<< k < 0x8000000000000000 := by
  rw [Nat.shiftLeft_eq]
  have hpow : 2 ^ k ≤ 2 ^ 31 := Nat.pow_le_pow_right (by decide) (by omega)
  have hmul := Nat.mul_le_mul hn hpow
  omega

/-- In a field that starts inside the storage, a number is moved to the
start without a failing step. -/
theorem toNat_shiftStart (hstart : f.start < storage.bits) {word : UInt64}
    (h : word.toNat <<< f.start < 0x10000000000000000) :
    UInt64.toNat <$> shiftWord "field" word (.ofNat f.start) =
      .ok (word.toNat <<< f.start) := by
  obtain ⟨-, hfirst⟩ := toNat_places hstart
  have hbits := storage.bits_le
  obtain ⟨w, hw, hshift⟩ := shiftWord_ok "field" word hfirst (by omega) h
  rw [hw]
  show Except.ok w.toNat = _
  rw [hshift]

/-- Where there is no bit for a value, it is refused. -/
theorem toNat_refused (hstart : f.start < storage.bits)
    (h : f.unshifted storage value = f.refuseWord storage value) :
    UInt64.toNat <$> f.wordOf storage value =
      .error (.value (f.outOfRange storage value)) := by
  unfold wordOf
  rw [h, refuseWord_eq hstart]
  rfl

/-- Where a value has a bit or a number, this is moved to the start. -/
theorem toNat_moved (hstart : f.start < storage.bits) {word : UInt64}
    (h : f.unshifted storage value = .ok word)
    (hword : word.toNat ≤ 0xffffffff) :
    UInt64.toNat <$> f.wordOf storage value =
      .ok (word.toNat <<< f.start) := by
  have hbits := storage.bits_le
  have hmoved := shiftLeft_lt hword (by omega : f.start < 32)
  unfold wordOf
  rw [h, ok_bind, toNat_shiftStart hstart (by omega)]

/-- In a field that starts inside the storage, a value that counts to a
bit has the same bits in words, also when its sum with the start does not
fit. -/
theorem toNat_wordOf_index (hstart : f.start < storage.bits)
    (hindex : f.bitIndex = true) (hneg : ¬ value < 0)
    (hvalue : value ≤ 0xffffffff) :
    UInt64.toNat <$> f.wordOf storage value = f.bitsOf storage value := by
  have hbits := storage.bits_le
  obtain ⟨hstorage, hfirst⟩ := toNat_places hstart
  have hsize : UInt32.size = 0x100000000 := rfl
  have hbit : (UInt32.ofNat value.toNat).toNat = value.toNat :=
    UInt32.toNat_ofNat_of_lt' (by omega)
  unfold bitsOf
  simp only [if_neg hneg, if_pos hindex]
  rw [if_neg (by omega : ¬ 0x100000000 ≤ value.toNat)]
  by_cases hwrap : 0x100000000 ≤ f.start + value.toNat
  · have hsum : addWords "bit index" (.ofNat f.start)
        (.ofNat value.toNat) = .error (.panic "bit index") :=
      if_pos (by omega)
    unfold wordOf unshifted
    rw [if_pos hwrap, if_pos hindex, if_neg (by omega), hsum]
    rfl
  obtain ⟨last, hlast, hsum⟩ := addWords_ok "bit index"
    (a := .ofNat f.start) (b := .ofNat value.toNat) (by omega)
  rw [if_neg hwrap]
  by_cases hout : storage.bits ≤ f.start + value.toNat
  · rw [if_pos hout]
    apply toNat_refused hstart
    unfold unshifted
    rw [if_pos hindex, if_neg (by omega), hlast, ok_bind,
      if_pos (by omega)]
  · -- the bit lies inside the storage, so it is one of the first 32
    rw [if_neg hout]
    have hone : (1 : UInt64).toNat = 1 := rfl
    have hsingle : 1 <<< value.toNat ≤ 0x80000000 := by
      rw [Nat.one_shiftLeft]
      exact Nat.pow_le_pow_right (by decide : 0 < 2)
        (by omega : value.toNat ≤ 31)
    obtain ⟨w, hw, hshift⟩ := shiftWord_ok "bit" 1 hbit (by omega)
      (by rw [hone]; omega)
    rw [hone] at hshift
    have hunshifted : f.unshifted storage value = .ok w := by
      unfold unshifted
      rw [if_pos hindex, if_neg (by omega), hlast, ok_bind,
        if_neg (by omega), hw]
    rw [toNat_moved hstart hunshifted (by omega), hshift]

/-- In a field that starts inside the storage, a value of at most 32 bits
has the same bits in words, and no step fails that does not fail without
them. -/
theorem toNat_wordOf (hstart : f.start < storage.bits)
    (hvalue : value ≤ 0xffffffff) :
    UInt64.toNat <$> f.wordOf storage value = f.bitsOf storage value := by
  by_cases hneg : value < 0
  · have hbits : f.bitsOf storage value =
        .error (.value (f.outOfRange storage value)) :=
      if_pos hneg
    rw [hbits]
    apply toNat_refused hstart
    unfold unshifted
    rw [if_pos (Or.inl hneg), if_pos hneg, ite_self]
  by_cases hindex : f.bitIndex = true
  · exact toNat_wordOf_index hstart hindex hneg hvalue
  · have hsize : UInt64.size = 0x10000000000000000 := rfl
    have hword : (UInt64.ofNat value.toNat).toNat = value.toNat :=
      UInt64.toNat_ofNat_of_lt' (by omega)
    have hunshifted :
        f.unshifted storage value = .ok (.ofNat value.toNat) := by
      unfold unshifted
      rw [if_neg hindex, if_neg hneg]
    unfold bitsOf
    rw [if_neg hneg, if_neg hindex,
      toNat_moved hstart hunshifted (by omega), hword]

/-- The same of a symbol of a sound enumeration. -/
theorem toNat_wordOfSymbol (hstart : f.start < storage.bits)
    (hsource : f.source.IsSound) (symbol : String) :
    UInt64.toNat <$> f.wordOfSymbol storage symbol =
      f.bitsOfSymbol storage symbol := by
  unfold wordOfSymbol bitsOfSymbol
  cases hlookup : f.source.lookup symbol with
  | error cause => rfl
  | ok value => exact toNat_wordOf hstart (hsource.value_le hlookup)

/-- Packing a field into a word is packing it into the number. -/
theorem toNat_packWordInto (hstart : f.start < storage.bits)
    (hsource : f.source.IsSound) (literal : BitLiteral)
    (packed : UInt64) :
    UInt64.toNat <$> f.packWordInto storage literal packed =
      f.packInto storage literal packed.toNat := by
  unfold packWordInto packInto
  by_cases hcount : (f.symbolsIn literal).length < f.min ∨
      f.max < (f.symbolsIn literal).length
  · simp only [if_pos hcount]
    rfl
  · simp only [if_neg hcount]
    apply toNat_foldlM
    intro symbol _ w
    rw [← toNat_wordOfSymbol hstart hsource symbol]
    cases f.wordOfSymbol storage symbol with
    | error cause => rfl
    | ok v => exact congrArg Except.ok (UInt64.toNat_or w v)

-- ==================================================== failing of a bit

/-- The sum of the start of a field and the bit that a value counts to
does not fit a word. -/
def Wraps (f : BitField) (value : Int) : Prop :=
  f.bitIndex = true ∧ 0x100000000 ≤ f.start + value

instance (f : BitField) (value : Int) : Decidable (f.Wraps value) :=
  inferInstanceAs (Decidable (_ ∧ _))

/-- A value of at most 32 bits that wraps fails in its own step. -/
theorem bitsOf_of_wraps (hstart : f.start < storage.bits)
    (hvalue : value ≤ 0xffffffff) (h : f.Wraps value) :
    f.bitsOf storage value = .error (.panic "bit index") := by
  obtain ⟨hindex, hwrap⟩ := h
  have hbits := storage.bits_le
  unfold bitsOf
  rw [if_neg (by omega)]
  simp only [if_pos hindex]
  rw [if_neg (by omega), if_pos (by omega)]

/-- A value that has no place in a field is out of range, unless it
wraps. -/
theorem bitsOf_of_not_wraps (h : ¬ f.Wraps value)
    (hout : value < 0 ∨
      f.bitIndex = true ∧ (storage.bits : Int) ≤ f.start + value) :
    f.bitsOf storage value = .error (.value (f.outOfRange storage value)) := by
  unfold bitsOf
  by_cases hneg : value < 0
  · rw [if_pos hneg]
  obtain ⟨hindex, hout⟩ := hout.resolve_left hneg
  have hwrap : ¬ 0x100000000 ≤ (f.start : Int) + value :=
    fun hsum => h ⟨hindex, hsum⟩
  rw [if_neg hneg]
  simp only [if_pos hindex]
  rw [if_neg (by omega), if_neg (by omega), if_pos (by omega)]

/-- How a value of at most 32 bits fails. -/
theorem bitsOf_error_cases (hstart : f.start < storage.bits)
    (hvalue : value ≤ 0xffffffff) {e : Error}
    (h : f.bitsOf storage value = .error e) :
    (f.Wraps value ∧ e = .panic "bit index") ∨
      ¬ f.Wraps value ∧ e = .value (f.outOfRange storage value) := by
  by_cases hwrap : f.Wraps value
  · rw [bitsOf_of_wraps hstart hvalue hwrap] at h
    exact Or.inl ⟨hwrap, (Except.error.inj h).symm⟩
  by_cases hplace : 0 ≤ value ∧
      (f.bitIndex = true → (f.start : Int) + value < storage.bits)
  · rw [bitsOf_ok_iff.2 ⟨hplace, rfl⟩] at h
    cases h
  · have hout : value < 0 ∨
        f.bitIndex = true ∧ (storage.bits : Int) ≤ f.start + value := by
      by_contra hin
      rw [not_or, not_and] at hin
      exact hplace ⟨by omega, fun hindex => not_le.1 (hin.2 hindex)⟩
    rw [bitsOf_of_not_wraps hwrap hout] at h
    exact Or.inr ⟨hwrap, (Except.error.inj h).symm⟩

/-- What fails when a field is packed is the count of its symbols or one
of them. -/
theorem packInto_error_cases {packed : Nat} {e : Error}
    (h : f.packInto storage literal packed = .error e) :
    (¬ f.Counts literal ∧ ∃ count,
        e = .value (.occurrenceCount f.name count f.min f.max)) ∨
      ∃ symbol, (f.name, symbol) ∈ literal.given ∧
        f.bitsOfSymbol storage symbol = .error e := by
  unfold packInto at h
  by_cases hcount : (f.symbolsIn literal).length < f.min ∨
      f.max < (f.symbolsIn literal).length
  · simp only [if_pos hcount] at h
    exact Or.inl ⟨not_counts_iff.2 hcount, _, (Except.error.inj h).symm⟩
  · simp only [if_neg hcount] at h
    obtain ⟨symbol, hsymbol, before, hstep⟩ := foldlM_eq_error h
    refine Or.inr ⟨symbol, mem_symbolsIn.1 hsymbol, ?_⟩
    simpa [map_eq_error] using hstep

/-- The bits of a value of at most 32 bits fit 63 bits. -/
theorem bitsOf_lt (hstart : f.start < storage.bits)
    (hvalue : value ≤ 0xffffffff) {w : Nat}
    (h : f.bitsOf storage value = .ok w) : w < 2 ^ 63 := by
  have hbits := storage.bits_le
  obtain ⟨⟨hnonneg, hplace⟩, rfl⟩ := bitsOf_ok_iff.1 h
  unfold contribution
  by_cases hindex : f.bitIndex = true
  · rw [if_pos hindex, Nat.one_shiftLeft]
    have hinside := hplace hindex
    exact Nat.pow_lt_pow_right (by decide) (by omega)
  · rw [if_neg hindex]
    exact shiftLeft_lt (by omega) (by omega)

/-- So do the bits of all symbols of a field. -/
theorem bitsIn_lt (hstart : f.start < storage.bits)
    (hsource : f.source.IsSound) {w : Nat}
    (h : f.bitsIn storage literal = .ok w) : w < 2 ^ 63 := by
  obtain ⟨-, row, hrow, rfl⟩ := bitsIn_ok_iff.1 h
  apply orAll_lt
  intro u hu
  obtain ⟨symbol, -, hbits⟩ := exists_mem_of_forall₂ hrow.flip hu
  obtain ⟨value, hlookup, hbits⟩ := bitsOfSymbol_ok_iff.1 hbits
  exact bitsOf_lt hstart (hsource.value_le hlookup) hbits

end BitField

-- ==================================================== packing in words

namespace BitSet

variable {b : BitSet} {literal : BitLiteral}

/-- The bits of all fields. -/
def packedWord (b : BitSet) (literal : BitLiteral) :
    Except Error UInt64 :=
  b.fields.foldlM (BitField.packWordInto b.storage literal) 0

/-- The stored number of a literal. -/
def packWords (b : BitSet) (literal : BitLiteral) :
    Except Error Int :=
  match literal.find? fun entry => !b.hasField entry.1 with
  | some entry => .error (.value (.unknownBitField b.name entry.1))
  | none => do
    let packed ← b.packedWord literal
    if 0x8000000000000000 ≤ packed.toNat then
      throw (.value
        (.outOfRange Numeric.wordMax b.name 0 b.storage.max))
    (b.storage.check packed.toNat).mapError .value

/-- A given symbol counts to a bit of which the sum with the start of its
field does not fit a word. -/
def Wraps (b : BitSet) (literal : BitLiteral) : Prop :=
  ∃ f ∈ b.fields, ∃ symbol, (f.name, symbol) ∈ literal.given ∧
    ∃ value, f.source.lookup symbol = .ok value ∧ f.Wraps value

/-- Every given symbol is known. -/
def Knows (b : BitSet) (literal : BitLiteral) : Prop :=
  ∀ f ∈ b.fields, ∀ symbol, (f.name, symbol) ∈ literal.given →
    ∃ value, f.source.lookup symbol = .ok value

/-- How packing fails: a name is not that of a field, a field is given a
count of symbols that it does not take, a symbol fails, or the bits of
all fields cannot be stored. -/
theorem pack_error_cases {e : Error}
    (h : b.pack literal = .error e) :
    (∃ name ∈ literal.map Prod.fst, ¬ b.hasField name = true ∧
        e = .value (.unknownBitField b.name name)) ∨
      (∃ f ∈ b.fields, ¬ f.Counts literal ∧ ∃ count,
        e = .value (.occurrenceCount f.name count f.min f.max)) ∨
      (∃ f ∈ b.fields, ∃ symbol, (f.name, symbol) ∈ literal.given ∧
        f.bitsOfSymbol b.storage symbol = .error e) ∨
      ∃ packed, b.bitsIn literal = .ok packed ∧ ∃ value name low high,
        e = .value (.outOfRange value name low high) := by
  unfold pack at h
  cases hfind : literal.find? fun entry => !b.hasField entry.1 with
  | some entry =>
      rw [hfind] at h
      obtain ⟨hentry, hunknown⟩ := unknown_of_find? hfind
      exact Or.inl ⟨entry.1, hentry, hunknown, (Except.error.inj h).symm⟩
  | none =>
      rw [hfind] at h
      rcases bind_eq_error.1 h with hfields | ⟨packed, hpacked, h⟩
      · obtain ⟨f, hf, before, hstep⟩ := foldlM_eq_error hfields
        rcases BitField.packInto_error_cases hstep with hcount | hsymbol
        · exact Or.inr (Or.inl ⟨f, hf, hcount⟩)
        · exact Or.inr (Or.inr (Or.inl ⟨f, hf, hsymbol⟩))
      · rw [foldlM_packInto] at hpacked
        refine Or.inr (Or.inr (Or.inr ⟨packed, hpacked, ?_⟩))
        rcases guard_eq_error.1 h with ⟨-, rfl⟩ | ⟨-, hcheck⟩
        · exact ⟨_, _, _, _, rfl⟩
        · obtain ⟨cause, hcheck, rfl⟩ := mapError_error_iff.1 hcheck
          unfold Numeric.check at hcheck
          split at hcheck
          · cases hcheck
            exact ⟨_, _, _, _, rfl⟩
          · cases hcheck

namespace IsSound

/-- The packed word is the packed number. -/
theorem toNat_packedWord (h : b.IsSound) (literal : BitLiteral) :
    UInt64.toNat <$> b.packedWord literal = b.bitsIn literal := by
  rw [← foldlM_packInto]
  apply toNat_foldlM
  intro f hf packed
  exact BitField.toNat_packWordInto (h.inside f hf) (h.sources f hf)
    literal packed

/-- Packing with words gives what packing with numbers does, failures
included. -/
theorem packWords_eq (h : b.IsSound) (literal : BitLiteral) :
    b.packWords literal = b.pack literal := by
  unfold packWords pack
  rw [foldlM_packInto, ← h.toNat_packedWord literal]
  cases b.packedWord literal <;> rfl

/-- A packed word has no bit in the place of the sign, so it passes as a
number with one. -/
theorem packedWord_lt (h : b.IsSound) {packed : UInt64}
    (hpacked : b.packedWord literal = .ok packed) :
    packed.toNat < 2 ^ 63 := by
  have hbits := h.toNat_packedWord literal
  rw [hpacked] at hbits
  obtain ⟨row, hrow, hall⟩ := map_eq_ok.1 hbits.symm
  rw [mapM_eq_ok] at hrow
  rw [← hall]
  apply orAll_lt
  intro w hw
  obtain ⟨f, hf, hfw⟩ := exists_mem_of_forall₂ hrow.flip hw
  exact BitField.bitsIn_lt (h.inside f hf) (h.sources f hf) hfw

/-- The only step of packing that fails is the sum for a symbol that
wraps. -/
theorem wraps_of_pack (h : b.IsSound) {step : String}
    (hpack : b.pack literal = .error (.panic step)) :
    step = "bit index" ∧ b.Wraps literal := by
  rcases pack_error_cases hpack with ⟨name, -, -, he⟩ |
    ⟨f, -, -, count, he⟩ | ⟨f, hf, symbol, hgiven, hbits⟩ |
    ⟨packed, -, value, name, low, high, he⟩
  · cases he
  · cases he
  · unfold BitField.bitsOfSymbol at hbits
    cases hlookup : f.source.lookup symbol with
    | error cause =>
        rw [hlookup] at hbits
        cases hbits
    | ok value =>
        rw [hlookup] at hbits
        rcases BitField.bitsOf_error_cases (h.inside f hf)
          ((h.sources f hf).value_le hlookup) hbits
          with ⟨hwraps, he⟩ | ⟨-, he⟩
        · cases he
          exact ⟨rfl, f, hf, symbol, hgiven, value, hlookup, hwraps⟩
        · cases he
  · cases he

/-- A literal of which every symbol is known but not every one has a
place is refused for one of its symbols, when its names and counts are
those of fields: as out of range, unless this symbol wraps. -/
theorem pack_of_not_placed (h : b.IsSound)
    (hdeclared : ∀ name ∈ literal.map Prod.fst,
      ∃ f ∈ b.fields, f.name = name)
    (hcounts : ∀ f ∈ b.fields, f.Counts literal)
    (hknows : b.Knows literal)
    (hplaces : ¬ ∀ f ∈ b.fields, f.Places b.storage literal) :
    ∃ f ∈ b.fields, ∃ symbol, (f.name, symbol) ∈ literal.given ∧
      ∃ value, f.source.lookup symbol = .ok value ∧
        (f.Wraps value →
          b.pack literal = .error (.panic "bit index")) ∧
        (¬ f.Wraps value →
          b.pack literal =
            .error (.value (f.outOfRange b.storage value))) := by
  cases hpack : b.pack literal with
  | ok v =>
      obtain ⟨haccepts, -⟩ := (pack_ok_iff h.distinct).1 hpack
      exact absurd haccepts.placed hplaces
  | error e =>
      rcases pack_error_cases hpack with ⟨name, hname, hunknown, -⟩ |
        ⟨f, hf, hcount, -⟩ | ⟨f, hf, symbol, hgiven, hbits⟩ |
        ⟨packed, hpacked, -⟩
      · rw [hasField_iff] at hunknown
        exact absurd (hdeclared name hname) hunknown
      · exact absurd (hcounts f hf) hcount
      · obtain ⟨value, hlookup⟩ := hknows f hf symbol hgiven
        unfold BitField.bitsOfSymbol at hbits
        rw [hlookup] at hbits
        refine ⟨f, hf, symbol, hgiven, value, hlookup, ?_⟩
        rcases BitField.bitsOf_error_cases (h.inside f hf)
          ((h.sources f hf).value_le hlookup) hbits
          with ⟨hwraps, rfl⟩ | ⟨hwraps, rfl⟩
        · exact ⟨fun _ => rfl, fun hnot => absurd hwraps hnot⟩
        · exact ⟨fun hwrap => absurd hwrap hwraps, fun _ => rfl⟩
      · obtain ⟨⟨-, hplaced⟩, -⟩ := (bitsIn_ok_iff h.distinct).1 hpacked
        exact absurd hplaced hplaces

end IsSound

/-- Packing fits its words, the sum of a start and a bit apart. A bitset
that is made over enumerations that are made packs every literal in words
as it does without them, and into 63 bits. The one step that can fail is
this sum, for a symbol that wraps; any other bit outside the storage is
out of range, and so is the literal that gives it. -/
theorem pack_fits_words {name : String} {storage : Numeric}
    {fields : List BitField} {b : BitSet}
    (h : ofFields name storage fields = .ok b)
    (hsources : ∀ f ∈ fields, ∃ name base entries,
      Enumeration.ofValues name base entries = .ok f.source)
    (literal : BitLiteral) :
    b.packWords literal = b.pack literal ∧
    (∀ packed, b.packedWord literal = .ok packed →
      packed.toNat < 2 ^ 63) ∧
    (∀ step, b.packWords literal = .error (.panic step) →
      step = "bit index" ∧ b.Wraps literal) ∧
    (∀ f ∈ b.fields, ∀ symbol value,
      f.source.lookup symbol = .ok value → f.bitIndex = true →
      (b.storage.bits : Int) ≤ f.start + value →
        (f.Wraps value →
          f.wordOf b.storage value = .error (.panic "bit index")) ∧
        (¬ f.Wraps value → f.wordOf b.storage value =
          .error (.value (f.outOfRange b.storage value)))) ∧
    ((∀ name ∈ literal.map Prod.fst, ∃ f ∈ b.fields, f.name = name) →
      (∀ f ∈ b.fields, f.Counts literal) → b.Knows literal →
      (¬ ∀ f ∈ b.fields, f.Places b.storage literal) →
        ∃ f ∈ b.fields, ∃ symbol, (f.name, symbol) ∈ literal.given ∧
          ∃ value, f.source.lookup symbol = .ok value ∧
            (f.Wraps value →
              b.packWords literal = .error (.panic "bit index")) ∧
            (¬ f.Wraps value → b.packWords literal =
              .error (.value (f.outOfRange b.storage value)))) := by
  have hsound : b.IsSound := by
    apply isSound_of_ofFields h
    intro f hf
    obtain ⟨source, base, entries, hmade⟩ := hsources f hf
    exact Enumeration.isSound_of_ofValues hmade
  rw [hsound.packWords_eq]
  refine ⟨rfl, fun packed => hsound.packedWord_lt,
    fun step => hsound.wraps_of_pack, ?_, hsound.pack_of_not_placed⟩
  intro f hf symbol value hlookup hindex hout
  have hstart := hsound.inside f hf
  have hvalue := (hsound.sources f hf).value_le hlookup
  have hword := BitField.toNat_wordOf hstart hvalue
  constructor
  · intro hwraps
    rw [BitField.bitsOf_of_wraps hstart hvalue hwraps] at hword
    exact map_eq_error.1 hword
  · intro hwraps
    rw [BitField.bitsOf_of_not_wraps hwraps (Or.inr ⟨hindex, hout⟩)]
      at hword
    exact map_eq_error.1 hword

/-- Bits to count to: one that is stored behind the first bit of a byte,
and two that are not. -/
def counter : Enumeration where
  name := "counter"
  base := .uint32
  values := [("far", 7), ("next", 2), ("top", 4294967295)]

/-- A field that starts behind the first bit. -/
def raised : BitField := ⟨"raised", counter, 1, 0, 1, true⟩

/-- One such field in a byte. -/
def flags : BitSet := ⟨"flags", .uint8, [raised]⟩

/-- A bit in the byte is set by its place; one behind it does not fit,
and is refused by its place in the field. -/
theorem pack_fits_words_flags :
    Enumeration.ofValues "counter" .uint32 counter.values =
        .ok counter ∧
      ofFields "flags" .uint8 [raised] = .ok flags ∧
      flags.packWords [("raised", ["next"])] = .ok 8 ∧
      raised.wordOf .uint8 7 =
        .error (.value (.outOfRange 7 "bitfield 'raised'" 0 6)) := by
  have hcounter : Enumeration.ofValues "counter" .uint32
      counter.values = .ok counter := by
    decide
  have hflags : ofFields "flags" .uint8 [raised] = .ok flags := by
    decide
  have hsources : ∀ f ∈ [raised], ∃ name base entries,
      Enumeration.ofValues name base entries = .ok f.source := by
    intro f hf
    obtain rfl := List.mem_singleton.1 hf
    exact ⟨_, _, _, hcounter⟩
  obtain ⟨hwords, -, -, hvalues, -⟩ := pack_fits_words hflags hsources
    [("raised", ["next"])]
  obtain ⟨-, hfar⟩ := hvalues raised List.mem_cons_self "far" 7 rfl rfl
    (by decide)
  refine ⟨hcounter, hflags, ?_, hfar (by decide)⟩
  rw [hwords]
  decide

/-- A bit that lies far outside the storage is not out of range: its sum
with the start of the field fails. -/
theorem pack_wraps :
    Enumeration.ofValues "counter" .uint32 counter.values =
        .ok counter ∧
      ofFields "flags" .uint8 [raised] = .ok flags ∧
      counter.lookup "top" = .ok 4294967295 ∧
      (flags.storage.bits : Int) ≤ raised.start + 4294967295 ∧
      flags.packWords [("raised", ["top"])] =
        .error (.panic "bit index") ∧
      flags.pack [("raised", ["top"])] =
        .error (.panic "bit index") := by
  decide

end BitSet
end GamePack
