import GamePack.Proofs.Schema.WellFormed
import Mathlib.Data.Nat.Bitwise

/-!
What a bitset packs. A literal gives symbols to bit fields, over any
number of entries; `BitLiteral.given` is the row of these in the order
they are written. Each contributes bits of its own, and the packed number
is the bitwise or of all of them (`orAll`), taken in the written order
and not field by field as packing does: two rows with the same members
have the same bitwise or, whatever their order and repeats.

`BitSet.Accepts` is what a literal must be like for that. It speaks of
names, counts and members only, so packing sees no order either.
-/
namespace GamePack

variable {α ε : Type}

-- ========================================================== bitwise or

/-- The bitwise or of a row of numbers. -/
def orAll (l : List Nat) : Nat := l.foldr (· ||| ·) 0

@[simp] theorem orAll_nil : orAll [] = 0 := rfl

@[simp] theorem orAll_cons (w : Nat) (l : List Nat) :
    orAll (w :: l) = w ||| orAll l := rfl

/-- A bit of the bitwise or is a bit of one of the numbers. -/
theorem testBit_orAll (l : List Nat) (i : Nat) :
    (orAll l).testBit i = true ↔ ∃ w ∈ l, w.testBit i = true := by
  induction l with
  | nil => simp
  | cons w l ih => simp [Nat.testBit_or, ih]

/-- The bitwise or is one of the members only, not of their order. -/
theorem orAll_congr {l l' : List Nat} (h : ∀ w, w ∈ l ↔ w ∈ l') :
    orAll l = orAll l' := by
  apply Nat.eq_of_testBit_eq
  intro i
  rw [Bool.eq_iff_iff, testBit_orAll, testBit_orAll]
  simp only [h]

/-- Words below a power of two stay below it when they are put together.
-/
theorem orAll_lt {l : List Nat} {k : Nat} (h : ∀ w ∈ l, w < 2 ^ k) :
    orAll l < 2 ^ k := by
  induction l with
  | nil => exact Nat.two_pow_pos k
  | cons w l ih =>
      have hrest := ih fun v hv => h v (List.mem_cons_of_mem w hv)
      exact Nat.or_lt_two_pow (h w List.mem_cons_self) hrest

/-- Numbers that are made one after the other and or-ed to what is there
already are made in a row and or-ed at the end. -/
theorem foldlM_or (f : α → Except ε Nat) (l : List α) (packed : Nat) :
    l.foldlM (fun packed a => do return packed ||| (← f a)) packed =
      (fun row => packed ||| orAll row) <$> l.mapM f := by
  induction l generalizing packed with
  | nil => simp [pure, Except.pure, Functor.map, Except.map]
  | cons a l ih =>
      rw [List.foldlM_cons, List.mapM_cons]
      cases ha : f a with
      | error e => rfl
      | ok w =>
          show l.foldlM _ (packed ||| w) = _
          rw [ih]
          cases hl : l.mapM f with
          | error e => rfl
          | ok row =>
              show Except.ok (packed ||| w ||| orAll row) =
                .ok (packed ||| (w ||| orAll row))
              rw [Nat.or_assoc]

-- ============================================================ literals

/-- The symbols that a literal gives, each with the name of the bit field
it is given to, in written order. -/
def BitLiteral.given (literal : BitLiteral) : List (String × String) :=
  literal.flatMap fun entry =>
    entry.2.map fun symbol => (entry.1, symbol)

variable {storage : Numeric} {f : BitField} {literal : BitLiteral}
  {symbol : String} {value : Int} {bits : Nat}

namespace BitField

/-- The symbols of a field are those that the literal gives to it. -/
theorem symbolsIn_eq (f : BitField) (literal : BitLiteral) :
    f.symbolsIn literal =
      (literal.given.filter fun g => g.1 == f.name).map Prod.snd := by
  unfold symbolsIn BitLiteral.given
  induction literal with
  | nil => rfl
  | cons entry literal ih =>
      rw [List.flatMap_cons, List.filter_append, List.map_append, ← ih]
      by_cases hname : entry.1 = f.name
      · have hentry : ((entry.2.map fun symbol => (entry.1, symbol)).filter
            fun g => g.1 == f.name).map Prod.snd = entry.2 := by
          simp [List.filter_map, Function.comp_def, hname]
        rw [hentry, List.filter_cons_of_pos (by simp [hname])]
        rfl
      · have hentry : ((entry.2.map fun symbol => (entry.1, symbol)).filter
            fun g => g.1 == f.name).map Prod.snd = [] := by
          simp [List.filter_map, Function.comp_def, hname]
        rw [hentry, List.filter_cons_of_neg (by simp [hname])]
        rfl

/-- The symbols of a field are those that the literal gives under its
name. -/
theorem mem_symbolsIn :
    symbol ∈ f.symbolsIn literal ↔ (f.name, symbol) ∈ literal.given := by
  rw [symbolsIn_eq]
  simp

/-- A field has as many symbols as the literal has entries under its
name. -/
theorem length_symbolsIn (f : BitField) (literal : BitLiteral) :
    (f.symbolsIn literal).length =
      literal.given.countP fun g => g.1 == f.name := by
  rw [symbolsIn_eq, List.length_map, List.countP_eq_length_filter]

-- ======================================================= bits of a field

/-- The bits that a number stands for in a field: the number itself at
the field's first bit, or the one bit that it counts from there. -/
def contribution (f : BitField) (value : Nat) : Nat :=
  if f.bitIndex then 1 <<< (f.start + value) else value <<< f.start

/-- A number has a place in a field when it is not negative and the bit
it counts to, if it counts one, lies inside the storage. -/
theorem bitsOf_ok_iff :
    f.bitsOf storage value = .ok bits ↔
      (0 ≤ value ∧
        (f.bitIndex = true → (f.start : Int) + value < storage.bits)) ∧
      bits = f.contribution value.toNat := by
  have hbits := storage.bits_le
  unfold bitsOf contribution
  by_cases hneg : value < 0
  · rw [if_pos hneg]
    constructor
    · intro h
      cases h
    · intro h
      omega
  · rw [if_neg hneg]
    by_cases hindex : f.bitIndex = true
    · simp only [if_pos hindex]
      by_cases hplace : f.start + value.toNat < storage.bits
      · rw [if_neg (by omega), if_neg (by omega), if_neg (by omega)]
        have hshift : 1 <<< value.toNat <<< f.start =
            1 <<< (f.start + value.toNat) := by
          rw [← Nat.shiftLeft_add, Nat.add_comm]
        rw [hshift, Except.ok.injEq, eq_comm]
        constructor
        · intro h
          exact ⟨⟨by omega, fun _ => by omega⟩, h⟩
        · exact fun h => h.2
      · -- whichever test refuses it, the bit lies outside the storage
        have hout : ¬ ((f.start : Int) + value < storage.bits) := by omega
        constructor
        · intro h
          split at h
          · cases h
          · split at h
            · cases h
            · split at h
              · cases h
              · omega
        · intro h
          exact absurd (h.1.2 hindex) hout
    · rw [if_neg hindex, if_neg hindex, Except.ok.injEq, eq_comm]
      constructor
      · intro h
        exact ⟨⟨by omega, fun hi => absurd hi hindex⟩, h⟩
      · exact fun h => h.2

/-- A symbol has a place in a field when it is known and its number
has. -/
theorem bitsOfSymbol_ok_iff :
    f.bitsOfSymbol storage symbol = .ok bits ↔
      ∃ value, f.source.lookup symbol = .ok value ∧
        f.bitsOf storage value = .ok bits := by
  unfold bitsOfSymbol
  cases f.source.lookup symbol with
  | error cause => simp
  | ok value => simp

/-- The bits of all symbols of a field, when there are as many as it
takes. -/
def bitsIn (storage : Numeric) (literal : BitLiteral) (f : BitField) :
    Except Error Nat :=
  if (f.symbolsIn literal).length < f.min ∨
      f.max < (f.symbolsIn literal).length then
    .error (.value (.occurrenceCount f.name (f.symbolsIn literal).length
      f.min f.max))
  else orAll <$> (f.symbolsIn literal).mapM (f.bitsOfSymbol storage)

/-- Packing a field or-es its bits to those that are packed already. -/
theorem packInto_eq (storage : Numeric) (literal : BitLiteral)
    (packed : Nat) (f : BitField) :
    f.packInto storage literal packed =
      (do return packed ||| (← f.bitsIn storage literal)) := by
  unfold packInto bitsIn
  by_cases hcount : (f.symbolsIn literal).length < f.min ∨
      f.max < (f.symbolsIn literal).length
  · simp only [if_pos hcount]
    rfl
  · simp only [if_neg hcount]
    rw [foldlM_or]
    cases (f.symbolsIn literal).mapM (f.bitsOfSymbol storage) <;> rfl

/-- The number of symbols that a literal gives to a field is one that the
field takes. -/
def Counts (f : BitField) (literal : BitLiteral) : Prop :=
  f.min ≤ (literal.given.countP fun g => g.1 == f.name) ∧
    (literal.given.countP fun g => g.1 == f.name) ≤ f.max

/-- A field has a wrong number of symbols when there are too few or too
many. -/
theorem not_counts_iff :
    ¬ f.Counts literal ↔ (f.symbolsIn literal).length < f.min ∨
      f.max < (f.symbolsIn literal).length := by
  unfold Counts
  rw [← length_symbolsIn]
  omega

/-- Every symbol that a literal gives to a field is known, stands for no
negative number and counts to no bit outside the storage. -/
def Places (f : BitField) (storage : Numeric) (literal : BitLiteral) :
    Prop :=
  ∀ symbol, (f.name, symbol) ∈ literal.given →
    ∃ value, f.source.lookup symbol = .ok value ∧ 0 ≤ value ∧
      (f.bitIndex = true → (f.start : Int) + value < storage.bits)

/-- The bits of a field are those of its symbols, put together, when
their number is right. -/
theorem bitsIn_ok_iff :
    f.bitsIn storage literal = .ok bits ↔
      f.Counts literal ∧ ∃ row, List.Forall₂
          (fun symbol w => f.bitsOfSymbol storage symbol = .ok w)
          (f.symbolsIn literal) row ∧ bits = orAll row := by
  unfold bitsIn
  by_cases hcount : (f.symbolsIn literal).length < f.min ∨
      f.max < (f.symbolsIn literal).length
  · rw [if_pos hcount]
    constructor
    · intro h
      cases h
    · intro h
      exact absurd h.1 (not_counts_iff.2 hcount)
  · rw [if_neg hcount]
    have hcounts : f.Counts literal := by
      by_contra hnot
      exact hcount (not_counts_iff.1 hnot)
    simp only [map_eq_ok, mapM_eq_ok]
    constructor
    · intro h
      obtain ⟨row, hrow, hbits⟩ := h
      exact ⟨hcounts, row, hrow, hbits.symm⟩
    · intro h
      obtain ⟨-, row, hrow, hbits⟩ := h
      exact ⟨row, hrow, hbits.symm⟩

end BitField

-- ============================================================= packing

namespace BitSet

variable {b : BitSet} {v : Int}

/-- The bits of all fields. -/
def bitsIn (b : BitSet) (literal : BitLiteral) : Except Error Nat :=
  orAll <$> b.fields.mapM (BitField.bitsIn b.storage literal)

/-- Packing field by field gives the bits of the literal. -/
theorem foldlM_packInto (b : BitSet) (literal : BitLiteral) :
    b.fields.foldlM (BitField.packInto b.storage literal) 0 =
      b.bitsIn literal := by
  have hstep : BitField.packInto b.storage literal = fun packed f => do
      return packed ||| (← f.bitsIn b.storage literal) := by
    funext packed f
    exact f.packInto_eq b.storage literal packed
  rw [hstep, foldlM_or]
  unfold bitsIn
  simp only [Nat.zero_or]

/-- The test for a field answers with whether one has the name. -/
theorem hasField_iff {name : String} :
    b.hasField name = true ↔ ∃ f ∈ b.fields, f.name = name := by
  simp [hasField]

/-- What packing finds first is a name that is not that of a field. -/
theorem unknown_of_find? {entry : String × List String}
    (h : (literal.find? fun entry => !b.hasField entry.1) = some entry) :
    entry.1 ∈ literal.map Prod.fst ∧ ¬ b.hasField entry.1 = true := by
  refine ⟨List.mem_map_of_mem (List.mem_of_find?_eq_some h), ?_⟩
  simpa using List.find?_some h

/-- What a literal must be like to be packed, up to the size of the
packed number: its names are those of fields, every field is given as
many symbols as it takes, over all entries, and has a place for each. -/
@[mk_iff]
structure Accepts (b : BitSet) (literal : BitLiteral) : Prop where
  declared : ∀ name ∈ literal.map Prod.fst, ∃ f ∈ b.fields, f.name = name
  counted : ∀ f ∈ b.fields, f.Counts literal
  placed : ∀ f ∈ b.fields, f.Places b.storage literal

/-- The bits of one given symbol. -/
def bitsGiven? (b : BitSet) (g : String × String) : Option Nat :=
  (b.fields.find? fun f => f.name == g.1).bind fun f =>
    (f.source.lookup g.2).toOption.map fun value =>
      f.contribution value.toNat

/-- The bits of the given symbols, in written order. -/
def bitsGiven (b : BitSet) (literal : BitLiteral) : List Nat :=
  literal.given.filterMap b.bitsGiven?

/-- A field of distinctly named ones is found by its name. -/
theorem find?_of_mem (h : (b.fields.map BitField.name).Nodup)
    (hf : f ∈ b.fields) :
    (b.fields.find? fun g => g.name == f.name) = some f := by
  cases hfind : b.fields.find? fun g => g.name == f.name with
  | none =>
      rw [List.find?_eq_none] at hfind
      exact absurd (beq_self_eq_true f.name) (hfind f hf)
  | some g =>
      have hname : g.name = f.name := by
        simpa using List.find?_some hfind
      have hg := List.mem_of_find?_eq_some hfind
      rw [List.inj_on_of_nodup_map h hg hf hname]

/-- The bits of given symbols are what the fields of that name make of
them. -/
theorem mem_bitsGiven (h : (b.fields.map BitField.name).Nodup) {w : Nat} :
    w ∈ b.bitsGiven literal ↔
      ∃ f ∈ b.fields, ∃ symbol, (f.name, symbol) ∈ literal.given ∧
        ∃ value, f.source.lookup symbol = .ok value ∧
          w = f.contribution value.toNat := by
  unfold bitsGiven
  rw [List.mem_filterMap]
  constructor
  · intro hw
    obtain ⟨⟨name, symbol⟩, hgiven, hbits⟩ := hw
    unfold bitsGiven? at hbits
    rw [Option.bind_eq_some_iff] at hbits
    obtain ⟨f, hfind, hbits⟩ := hbits
    have hname : f.name = name := by
      simpa using List.find?_some hfind
    have hf := List.mem_of_find?_eq_some hfind
    refine ⟨f, hf, symbol, by rw [hname]; exact hgiven, ?_⟩
    cases hlookup : f.source.lookup symbol with
    | error cause =>
        rw [hlookup] at hbits
        cases hbits
    | ok value =>
        rw [hlookup] at hbits
        exact ⟨value, rfl, (Option.some.inj hbits).symm⟩
  · intro hw
    obtain ⟨f, hf, symbol, hgiven, value, hlookup, rfl⟩ := hw
    refine ⟨(f.name, symbol), hgiven, ?_⟩
    show (b.fields.find? fun g => g.name == f.name).bind _ = _
    rw [find?_of_mem h hf]
    show (f.source.lookup symbol).toOption.map _ = _
    rw [hlookup]
    rfl

/-- What is made field by field is the bitwise or of what is given in
written order: bit by bit, each set bit comes from the same symbol of the
same field. -/
theorem orAll_of_bitsIn (h : (b.fields.map BitField.name).Nodup)
    {row : List Nat} (hrow : List.Forall₂
      (fun f w => BitField.bitsIn b.storage literal f = .ok w)
      b.fields row) : orAll row = orAll (b.bitsGiven literal) := by
  apply Nat.eq_of_testBit_eq
  intro i
  rw [Bool.eq_iff_iff, testBit_orAll, testBit_orAll]
  constructor
  · intro hbit
    obtain ⟨w, hw, hbit⟩ := hbit
    obtain ⟨f, hf, hfw⟩ := exists_mem_of_forall₂ hrow.flip hw
    obtain ⟨-, part, hpart, rfl⟩ := BitField.bitsIn_ok_iff.1 hfw
    obtain ⟨u, hu, hbit⟩ := (testBit_orAll part i).1 hbit
    obtain ⟨symbol, hsymbol, hbits⟩ :=
      exists_mem_of_forall₂ hpart.flip hu
    obtain ⟨value, hlookup, hbits⟩ :=
      BitField.bitsOfSymbol_ok_iff.1 hbits
    refine ⟨u, (mem_bitsGiven h).2 ⟨f, hf, symbol,
      BitField.mem_symbolsIn.1 hsymbol, value, hlookup, ?_⟩, hbit⟩
    exact (BitField.bitsOf_ok_iff.1 hbits).2
  · intro hbit
    obtain ⟨u, hu, hbit⟩ := hbit
    obtain ⟨f, hf, symbol, hgiven, value, hlookup, rfl⟩ :=
      (mem_bitsGiven h).1 hu
    obtain ⟨w, hw, hfw⟩ := exists_mem_of_forall₂ hrow hf
    obtain ⟨-, part, hpart, rfl⟩ := BitField.bitsIn_ok_iff.1 hfw
    obtain ⟨u, hu, hbits⟩ := exists_mem_of_forall₂ hpart
      (BitField.mem_symbolsIn.2 hgiven)
    obtain ⟨value', hlookup', hbits⟩ :=
      BitField.bitsOfSymbol_ok_iff.1 hbits
    rw [hlookup] at hlookup'
    obtain rfl := Except.ok.inj hlookup'
    refine ⟨_, hw, (testBit_orAll part i).2 ⟨u, hu, ?_⟩⟩
    rw [(BitField.bitsOf_ok_iff.1 hbits).2]
    exact hbit

/-- The bits of a literal are those of all its entries, put together,
when every field counts its symbols and has places for them. -/
theorem bitsIn_ok_iff (h : (b.fields.map BitField.name).Nodup)
    {packed : Nat} :
    b.bitsIn literal = .ok packed ↔
      ((∀ f ∈ b.fields, f.Counts literal) ∧
        ∀ f ∈ b.fields, f.Places b.storage literal) ∧
      packed = orAll (b.bitsGiven literal) := by
  unfold bitsIn
  simp only [map_eq_ok, mapM_eq_ok]
  constructor
  · intro hok
    obtain ⟨row, hrow, rfl⟩ := hok
    refine ⟨⟨fun f hf => ?_, fun f hf symbol hgiven => ?_⟩,
      orAll_of_bitsIn h hrow⟩
    · obtain ⟨w, -, hfw⟩ := exists_mem_of_forall₂ hrow hf
      exact (BitField.bitsIn_ok_iff.1 hfw).1
    · obtain ⟨w, -, hfw⟩ := exists_mem_of_forall₂ hrow hf
      obtain ⟨-, part, hpart, -⟩ := BitField.bitsIn_ok_iff.1 hfw
      obtain ⟨u, -, hbits⟩ := exists_mem_of_forall₂ hpart
        (BitField.mem_symbolsIn.2 hgiven)
      obtain ⟨value, hlookup, hbits⟩ :=
        BitField.bitsOfSymbol_ok_iff.1 hbits
      obtain ⟨⟨hnonneg, hplace⟩, -⟩ := BitField.bitsOf_ok_iff.1 hbits
      exact ⟨value, hlookup, hnonneg, hplace⟩
  · intro hok
    obtain ⟨⟨hcounts, hplaces⟩, rfl⟩ := hok
    obtain ⟨row, hrow⟩ : ∃ row,
        b.fields.mapM (BitField.bitsIn b.storage literal) = .ok row := by
      apply exists_mapM_eq_ok
      intro f hf
      obtain ⟨part, hpart⟩ : ∃ part, (f.symbolsIn literal).mapM
          (f.bitsOfSymbol b.storage) = .ok part := by
        apply exists_mapM_eq_ok
        intro symbol hsymbol
        obtain ⟨value, hlookup, hnonneg, hplace⟩ :=
          hplaces f hf symbol (BitField.mem_symbolsIn.1 hsymbol)
        exact ⟨_, BitField.bitsOfSymbol_ok_iff.2 ⟨value, hlookup,
          BitField.bitsOf_ok_iff.2 ⟨⟨hnonneg, hplace⟩, rfl⟩⟩⟩
      rw [mapM_eq_ok] at hpart
      exact ⟨orAll part,
        BitField.bitsIn_ok_iff.2 ⟨hcounts f hf, part, hpart, rfl⟩⟩
    rw [mapM_eq_ok] at hrow
    exact ⟨row, hrow, orAll_of_bitsIn h hrow⟩

/-- A literal is packed when its names are those of fields, the bits of
all fields are made and their bitwise or can be stored. -/
theorem pack_ok_iff_bitsIn :
    b.pack literal = .ok v ↔
      (∀ name ∈ literal.map Prod.fst, ∃ f ∈ b.fields, f.name = name) ∧
        ∃ packed : Nat, b.bitsIn literal = .ok packed ∧
          (packed : Int) ≤ b.storage.max ∧ v = packed := by
  unfold pack
  cases hfind : literal.find? fun entry => !b.hasField entry.1 with
  | some entry =>
      obtain ⟨hentry, hunknown⟩ := unknown_of_find? hfind
      constructor
      · intro h
        cases h
      · intro h
        rw [hasField_iff] at hunknown
        exact absurd (h.1 entry.1 hentry) hunknown
  | none =>
      have hknown : ∀ name ∈ literal.map Prod.fst,
          ∃ f ∈ b.fields, f.name = name := by
        intro name hname
        obtain ⟨entry, hentry, rfl⟩ := List.mem_map.1 hname
        rw [List.find?_eq_none] at hfind
        rw [← hasField_iff]
        simpa using hfind entry hentry
      simp only [foldlM_packInto, bind_eq_ok, guard_eq_ok,
        mapError_ok_iff, Numeric.check_ok_iff]
      have hbounds := b.storage.range_bounds
      constructor
      · intro h
        obtain ⟨packed, hpacked, -, hv, -, hle⟩ := h
        exact ⟨hknown, packed, hpacked, hle, hv⟩
      · intro h
        obtain ⟨-, packed, hpacked, hle, hv⟩ := h
        exact ⟨packed, hpacked, by omega, hv, by omega, hle⟩

/-- An accepted literal is packed as the bitwise or of what it gives, and
only that. -/
theorem pack_ok_iff (h : (b.fields.map BitField.name).Nodup) :
    b.pack literal = .ok v ↔
      b.Accepts literal ∧
        (orAll (b.bitsGiven literal) : Int) ≤ b.storage.max ∧
        v = orAll (b.bitsGiven literal) := by
  rw [pack_ok_iff_bitsIn, accepts_iff]
  simp only [bitsIn_ok_iff h]
  constructor
  · intro hok
    obtain ⟨hnames, _, ⟨hfields, rfl⟩, hle, hv⟩ := hok
    exact ⟨⟨hnames, hfields⟩, hle, hv⟩
  · intro hok
    obtain ⟨⟨hnames, hfields⟩, hle, hv⟩ := hok
    exact ⟨hnames, _, ⟨hfields, rfl⟩, hle, hv⟩

/-- Literals that give the same symbols to the same fields under the same
names are accepted alike. -/
theorem Accepts.of_perm {other : BitLiteral} (h : b.Accepts literal)
    (hnames : ∀ name,
      name ∈ other.map Prod.fst ↔ name ∈ literal.map Prod.fst)
    (hgiven : literal.given.Perm other.given) : b.Accepts other where
  declared name hname := h.declared name ((hnames name).1 hname)
  counted f hf := by
    have hcounts := h.counted f hf
    unfold BitField.Counts at hcounts ⊢
    rw [← hgiven.countP_eq]
    exact hcounts
  placed f hf symbol hsymbol := h.placed f hf symbol (hgiven.mem_iff.2 hsymbol)

/-- The bits that are given do not depend on the order of the entries. -/
theorem orAll_bitsGiven_of_perm {other : BitLiteral}
    (hgiven : literal.given.Perm other.given) :
    orAll (b.bitsGiven other) = orAll (b.bitsGiven literal) := by
  apply orAll_congr
  intro w
  unfold bitsGiven
  exact (hgiven.symm.filterMap b.bitsGiven?).mem_iff

/-- A bitset packs a literal exactly when it accepts it and the bitwise or
of what the literal gives can be stored, and then as this bitwise or. So
neither the order of entries nor that of symbols matters, nor how the
symbols of a field are spread over entries. -/
theorem pack_eq_orAll {name : String} {storage : Numeric}
    {fields : List BitField} {b : BitSet}
    (h : ofFields name storage fields = .ok b) (literal : BitLiteral) :
    (∀ v, b.pack literal = .ok v ↔
      b.Accepts literal ∧
        (orAll (b.bitsGiven literal) : Int) ≤ b.storage.max ∧
        v = orAll (b.bitsGiven literal)) ∧
    ∀ other : BitLiteral,
      (∀ name, name ∈ other.map Prod.fst ↔ name ∈ literal.map Prod.fst) →
      literal.given.Perm other.given →
      ∀ v, b.pack other = .ok v ↔ b.pack literal = .ok v := by
  have hdistinct : (b.fields.map BitField.name).Nodup := by
    unfold ofFields at h
    split at h
    · cases h
    next hflaw =>
      obtain rfl := Except.ok.inj h
      exact (of_firstFlaw?_eq_none hflaw).2
  constructor
  · exact fun v => pack_ok_iff hdistinct
  · intro other hnames hgiven v
    rw [pack_ok_iff hdistinct, pack_ok_iff hdistinct,
      orAll_bitsGiven_of_perm hgiven]
    have haccepts : b.Accepts other ↔ b.Accepts literal :=
      ⟨fun ha => ha.of_perm (fun name => (hnames name).symm) hgiven.symm,
        fun ha => ha.of_perm hnames hgiven⟩
    rw [haccepts]

/-- The four directions, in the order of their names. -/
def compass : Enumeration where
  name := "compass"
  base := .uint8
  values := [("E", 1), ("N", 0), ("S", 2), ("W", 3)]

/-- A direction as a number below the bits that directions count to. -/
def doors : BitSet where
  name := "doors"
  storage := .uint8
  fields := [⟨"front", compass, 0, 1, 2, false⟩,
    ⟨"open", compass, 4, 0, 4, true⟩]

/-- Two fields, one of them with two symbols, and the same entries in
another order. -/
theorem pack_eq_orAll_doors :
    ofFields "doors" .uint8 doors.fields = .ok doors ∧
      (doors.Accepts [("open", ["N"]), ("front", ["E", "S"]),
          ("open", ["W"])] ∧
        (147 : Int) = orAll (doors.bitsGiven [("open", ["N"]),
          ("front", ["E", "S"]), ("open", ["W"])])) ∧
      doors.pack [("front", ["S", "E"]), ("open", ["W", "N"])] =
        .ok 147 := by
  have hmade : ofFields "doors" .uint8 doors.fields = .ok doors := by
    decide
  obtain ⟨hpack, horder⟩ := pack_eq_orAll hmade
    [("open", ["N"]), ("front", ["E", "S"]), ("open", ["W"])]
  have hvalue : doors.pack [("open", ["N"]), ("front", ["E", "S"]),
      ("open", ["W"])] = .ok 147 := by
    decide
  obtain ⟨haccepts, -, hbits⟩ := (hpack 147).1 hvalue
  refine ⟨hmade, ⟨haccepts, hbits⟩, (horder _ ?_ ?_ 147).2 hvalue⟩
  · intro name
    simp only [List.map_cons, List.map_nil, List.mem_cons,
      List.not_mem_nil, or_false]
    tauto
  · decide

end BitSet
end GamePack
