import GamePack.Proofs.Conversion.Sprites

/-!
What conversion makes of a bound value. The container grows, and the
stored value is one of the type of its field whose references name what
they may: regions and texts become blocks of the right kind, and a block
number names some block that is there already. The numbers that are
given for sprites are collected, since of these only is the kind not
known; each of them is found again among the references.
-/
namespace GamePack

-- ======================================================= bound values

namespace FieldValue

/-- A bound value that comes with no references of its own, as binding
gives them. -/
inductive IsFree : FieldValue → Prop where
  | number (n : Int) : IsFree (.number n)
  | symbol (text : String) : IsFree (.symbol text)
  | block : IsFree (.block none)
  | struct {items : List (String × FieldValue)}
      (h : ∀ item ∈ items, IsFree item.2) : IsFree (.struct items)
  | list {items : List FieldValue} (h : ∀ item ∈ items, IsFree item) :
      IsFree (.list items)
  | bits (literal : BitLiteral) : IsFree (.bits literal)
  | image (region : SheetRegion) : IsFree (.image region)
  | grid (grid : SheetGrid) : IsFree (.grid grid)
  | text (strings : Strings) : IsFree (.text strings)

end FieldValue

namespace DataType

mutual
/-- The block numbers that a bound value gives for sprites, in fields and
sub-fields of a type. -/
def spriteNumbers : DataType → FieldValue → List Int
  | .reference .sprite, .number n => [n]
  | .list _ element, .list items =>
    items.flatMap fun item => element.spriteNumbers item
  | .struct _ fields, .struct items => fieldSpriteNumbers items fields
  | _, _ => []

/-- The block numbers that the items of a structure give for sprites. -/
def fieldSpriteNumbers (items : List (String × FieldValue)) :
    List (String × DataType) → List Int
  | [] => []
  | (name, t) :: fields =>
    ((items.reverse.lookup name).map fun item =>
      t.spriteNumbers item).getD [] ++ fieldSpriteNumbers items fields
end

theorem spriteNumbers_block (t : DataType) (r : Option BlockRef) :
    t.spriteNumbers (.block r) = [] := by
  cases t with
  | reference kind => cases kind <;> rfl
  | _ => rfl

end DataType

namespace Conversion

variable {settings : ConversionSettings} {given : Int → Prop}
  {s s' : ConversionState} {v : Value} {bound : FieldValue}

/-- A stored value that a bound value for a type can turn into, among the
blocks of a file. -/
structure Converts (given : Int → Prop) (blocks : List Block)
    (t : DataType) (bound : FieldValue) (v : Value) : Prop where
  holds : t.Holds v
  names : ∀ k r, (k, r) ∈ t.refsIn v → Names given blocks k r
  numbers : ∀ n ∈ t.spriteNumbers bound, n ≠ 0 →
    ∃ r, (.reference .sprite, r) ∈ t.refsIn v ∧ (r.number : Int) = n

/-- A stored value stays what it is when blocks are added behind the
others. -/
theorem Converts.mono {blocks blocks' : List Block} {t : DataType}
    (h : Converts given blocks t bound v) (hext : blocks <+: blocks') :
    Converts given blocks' t bound v where
  holds := h.holds
  names := fun k r hr => (h.names k r hr).mono hext fun _ hn => hn
  numbers := h.numbers

/-- A value without references, of a bound value without numbers for
sprites. -/
theorem Converts.plain {blocks : List Block} {t : DataType}
    (hholds : t.Holds v) (hrefs : t.refsIn v = [])
    (hnumbers : t.spriteNumbers bound = []) :
    Converts given blocks t bound v where
  holds := hholds
  names := fun k r hr => by simp [hrefs] at hr
  numbers := fun n hn => by simp [hnumbers] at hn

/-- A reference to a sprite in a reference field. -/
theorem IsSpriteRef.converts {blocks : List Block} {t : DataType}
    (h : IsSpriteRef blocks v) (ht : t.isReference = true)
    (hnumbers : t.spriteNumbers bound = []) :
    Converts given blocks t bound v := by
  obtain ⟨reference, rfl, hnames⟩ := h
  cases t with
  | reference kind =>
      refine ⟨trivial, fun k r hr => ?_, fun n hn => ?_⟩
      · obtain ⟨rfl, rfl⟩ := DataType.mem_refsIn_reference.1 hr
        exact (hnames r rfl).names_reference
      · simp [hnumbers] at hn
  | _ => cases ht

-- ============================================================ scalars

/-- A number that is read lies in the range of its type. -/
theorem check_of_parse {n : Numeric} {text : String} {k : Int}
    (h : n.parse text = .ok k) : n.check k = .ok k := by
  unfold Numeric.parse at h
  split at h
  split at h
  · cases h
  · split at h
    · split at h
      · cases h
      · obtain ⟨hcheck, rfl⟩ :=
          Numeric.check_eq_ok_iff.1 (mapError_ok_iff.1 h)
        exact hcheck
    · obtain ⟨hcheck, rfl⟩ :=
        Numeric.check_eq_ok_iff.1 (mapError_ok_iff.1 h)
      exact hcheck

/-- The number of a symbol lies in the range of its base. -/
theorem check_of_symbolValue {e : Enumeration} {symbol : String} {k : Int}
    (h : symbolValue e symbol = .ok k) : e.base.check k = .ok k := by
  simp only [symbolValue, bind_eq_ok] at h
  obtain ⟨m, -, hm⟩ := h
  obtain ⟨hcheck, rfl⟩ := Numeric.check_eq_ok_iff.1 hm
  exact hcheck

/-- A packed number lies in the range of its storage. -/
theorem check_of_pack {b : BitSet} {literal : BitLiteral} {k : Int}
    (h : b.pack literal = .ok k) : b.storage.check k = .ok k := by
  unfold BitSet.pack at h
  split at h
  · cases h
  · simp only [bind_eq_ok, guard_eq_ok, mapError_ok_iff] at h
    obtain ⟨m, -, -, hm⟩ := h
    obtain ⟨hcheck, rfl⟩ := Numeric.check_eq_ok_iff.1 hm
    exact hcheck

/-- Conversion for a type does what it should to the file and gives what
it should. -/
def IsConverted (settings : ConversionSettings) (given : Int → Prop)
    (t : DataType) : Prop :=
  ∀ {bound s v s'}, bound.IsFree → (∀ n ∈ t.spriteNumbers bound, given n) →
    (convert settings t bound).Runs s v s' →
      s.container.Grows given s'.container ∧
        Converts given s'.container.blocks t bound v

/-- A number is stored as it is when it lies in range. -/
theorem isConverted_numeric (n : Numeric) :
    IsConverted settings given (.numeric n) := by
  intro bound s v s' _ _ h
  cases bound with
  | number k =>
      simp only [convert, runs_bind, runs_ofValue, runs_pure] at h
      obtain ⟨m, _, ⟨hm, rfl⟩, rfl, rfl⟩ := h
      obtain ⟨hcheck, rfl⟩ := Numeric.check_eq_ok_iff.1 hm
      exact ⟨Container.Grows.refl _, .plain hcheck rfl rfl⟩
  | symbol text =>
      simp only [convert, runs_bind, runs_ofExcept, runs_pure] at h
      obtain ⟨m, _, ⟨hm, rfl⟩, rfl, rfl⟩ := h
      exact ⟨Container.Grows.refl _, .plain (check_of_parse hm) rfl rfl⟩
  | _ => simp [convert, unsuitable] at h

/-- A symbol is stored as its number. -/
theorem isConverted_enumeration (e : Enumeration) :
    IsConverted settings given (.enumeration e) := by
  intro bound s v s' _ _ h
  cases bound with
  | symbol symbol =>
      simp only [convert, runs_bind, runs_ofValue, runs_pure] at h
      obtain ⟨m, _, ⟨hm, rfl⟩, rfl, rfl⟩ := h
      exact ⟨Container.Grows.refl _,
        .plain (check_of_symbolValue hm) rfl rfl⟩
  | _ => simp [convert, unsuitable] at h

/-- A literal is stored as its bits. -/
theorem isConverted_bitSet (b : BitSet) :
    IsConverted settings given (.bitSet b) := by
  intro bound s v s' _ _ h
  cases bound with
  | bits literal =>
      simp only [convert, runs_bind, runs_ofExcept, runs_pure] at h
      obtain ⟨m, _, ⟨hm, rfl⟩, rfl, rfl⟩ := h
      exact ⟨Container.Grows.refl _, .plain (check_of_pack hm) rfl rfl⟩
  | _ => simp [convert, unsuitable] at h

-- ========================================================= references

/-- A block number names a block that is there, or none when it is
zero. -/
theorem runs_blockNumber {n : Int}
    (h : (blockNumber n).Runs s v s') :
    s' = s ∧ ∃ k : Nat, n = k ∧ k < 0x100000000 ∧
      k ≤ s.container.blocks.length ∧
        v = .ref (BlockRef.ofNumber? k) := by
  simp only [blockNumber, runs_bind, runs_ofValue, runs_get, runs_guard,
    runs_pure] at h
  obtain ⟨m, _, ⟨hm, rfl⟩, _, _, ⟨rfl, rfl⟩, hle, rfl, rfl⟩ := h
  obtain ⟨hcheck, rfl⟩ := Numeric.check_eq_ok_iff.1 hm
  obtain ⟨-, hmin, hmax⟩ := Numeric.check_ok_iff.1 hcheck
  have hlow : 0 ≤ m := hmin
  have hhigh : m ≤ 0xffffffff := hmax
  refine ⟨rfl, m.toNat, by omega, by omega, Nat.le_of_not_lt hle, rfl⟩

theorem converts_blockNumber {kind : RefKind} {blocks : List Block}
    {k : Nat} (hlt : k < 0x100000000) (hle : k ≤ blocks.length)
    (hgiven : ∀ n ∈ (DataType.reference kind).spriteNumbers (.number k),
      given n) :
    Converts given blocks (.reference kind) (.number k)
      (.ref (BlockRef.ofNumber? k)) := by
  refine ⟨trivial, fun t r hr => ?_, fun n hn hne => ?_⟩
  · obtain ⟨rfl, hsome⟩ := DataType.mem_refsIn_reference.1 hr
    have hnumber := BlockRef.ofNumber?_eq_some.1 hsome
    -- nothing is known of the block but that it is there, so the
    -- number has to be one of the given ones
    refine ⟨by omega, by simp, fun ht => .inr ?_⟩
    obtain rfl := DataType.reference.inj ht
    rw [hnumber]
    exact hgiven k (List.mem_singleton.2 rfl)
  · cases kind with
    | block => cases hn
    | sprite =>
        obtain rfl : n = k := List.mem_singleton.1 hn
        have hpos : 0 < k := by omega
        obtain ⟨r, hr⟩ := BlockRef.exists_ofNumber? hpos hlt
        refine ⟨r, DataType.mem_refsIn_reference.2 ⟨rfl, hr⟩, ?_⟩
        rw [BlockRef.ofNumber?_eq_some.1 hr]

/-- A reference names a sprite that was added, or a block that was there.
-/
theorem isConverted_reference (kind : RefKind) :
    IsConverted settings given (.reference kind) := by
  intro bound s v s' hfree hgiven h
  cases bound with
  | block r =>
      -- a reference that comes with the value can only be none
      cases hfree
      obtain ⟨rfl, rfl⟩ := runs_pure.1 h
      exact ⟨Container.Grows.refl _,
        .plain trivial rfl (DataType.spriteNumbers_block _ _)⟩
  | number n =>
      rw [convert] at h
      obtain ⟨rfl, k, rfl, hlt, hle, rfl⟩ := runs_blockNumber h
      exact ⟨Container.Grows.refl _, converts_blockNumber hlt hle hgiven⟩
  | image region =>
      simp only [convert, runs_bind, runs_pure] at h
      obtain ⟨reference, s₁, hsprite, rfl, rfl⟩ := h
      obtain ⟨hgrow, href⟩ := grows_of_sprite hsprite
      refine ⟨hgrow, href.converts rfl ?_⟩
      cases kind <;> rfl
  | _ => simp [convert, unsuitable] at h

/-- Strings are stored as a reference to the block that was added for
them. -/
theorem isConverted_text : IsConverted settings given .text := by
  intro bound s v s' hfree _ h
  cases bound with
  | block r =>
      cases hfree
      obtain ⟨rfl, rfl⟩ := runs_pure.1 h
      exact ⟨Container.Grows.refl _, .plain trivial rfl rfl⟩
  | text strings =>
      simp only [convert, runs_bind, runs_ofValue, runs_addBlock,
        runs_pure] at h
      obtain ⟨block, _, ⟨hblock, rfl⟩, _, _, ⟨rfl, rfl⟩, rfl, rfl⟩ := h
      obtain ⟨htext, hsound⟩ := Strings.isSound_of_toBlock hblock
      refine ⟨Container.grows_addBlock hsound, trivial, ?_, ?_⟩
      · intro t r hr
        obtain ⟨rfl, hsome⟩ := DataType.mem_refsIn_text.1 hr
        exact (Container.namesBlock_addBlock htext hsome).names_text
      · intro n hn
        cases hn
  | _ => simp [convert, unsuitable] at h

/-- An image in place adds no block and names none. -/
theorem isConverted_imageData :
    IsConverted settings given .imageData := by
  intro bound s v s' _ _ h
  cases bound with
  | image region =>
      simp only [convert, imageLines, runs_bind, runs_pure] at h
      obtain ⟨image, s₁, himage, rfl, rfl⟩ := h
      rw [container_of_encodeRegion himage]
      exact ⟨Container.Grows.refl _, .plain trivial rfl rfl⟩
  | _ => simp [convert, unsuitable] at h

-- ============================================== lists and structures

/-- Items that are converted make a list that is converted. -/
theorem Converts.list {blocks : List Block} {count : Numeric}
    {element : DataType} {bounds : List FieldValue} {items : List Value}
    (hcount : count.check bounds.length = .ok (bounds.length : Int))
    (h : List.Forall₂ (Converts given blocks element) bounds items) :
    Converts given blocks (.list count element) (.list bounds)
      (.list items) where
  holds := by
    rw [h.length_eq] at hcount
    refine ⟨hcount, fun item hitem => ?_⟩
    obtain ⟨_, -, hconverts⟩ := exists_mem_of_forall₂ h.flip hitem
    exact hconverts.holds
  names := by
    intro k r hr
    obtain ⟨item, hitem, hr⟩ := DataType.mem_refsIn_list.1 hr
    obtain ⟨_, -, hconverts⟩ := exists_mem_of_forall₂ h.flip hitem
    exact hconverts.names k r hr
  numbers := by
    intro n hn hne
    rw [DataType.spriteNumbers, List.mem_flatMap] at hn
    obtain ⟨bound, hbound, hn⟩ := hn
    obtain ⟨item, hitem, hconverts⟩ := exists_mem_of_forall₂ h hbound
    obtain ⟨r, hr, hnumber⟩ := hconverts.numbers n hn hne
    exact ⟨r, DataType.mem_refsIn_list.2 ⟨item, hitem, hr⟩, hnumber⟩

/-- References to sprites make a list of references that is converted. -/
theorem Converts.list_of_grid {blocks : List Block} {count : Numeric}
    {element : DataType} {grid : SheetGrid} {items : List Value}
    (hreference : element.isReference = true)
    (hcount : count.check items.length = .ok (items.length : Int))
    (h : ∀ item ∈ items, IsSpriteRef blocks item) :
    Converts given blocks (.list count element) (.grid grid)
      (.list items) := by
  have hitem : ∀ item ∈ items,
      Converts given blocks element (.block none) item :=
    fun item hmem => (h item hmem).converts hreference
      (DataType.spriteNumbers_block element none)
  refine ⟨⟨hcount, fun item hmem => (hitem item hmem).holds⟩, ?_, ?_⟩
  · intro k r hr
    obtain ⟨item, hmem, hr⟩ := DataType.mem_refsIn_list.1 hr
    exact (hitem item hmem).names k r hr
  · intro n hn
    cases hn

theorem isConverted_list (count : Numeric) {element : DataType}
    (ih : IsConverted settings given element) :
    IsConverted settings given (.list count element) := by
  intro bound s v s' hfree hgiven h
  cases bound with
  | list bounds =>
      cases hfree with
      | list hfree =>
          simp only [convert, runs_bind, runs_ofValue, runs_pure] at h
          obtain ⟨_, _, ⟨hcount, rfl⟩, items, s₁, hitems, rfl, rfl⟩ := h
          obtain ⟨hgrow, hall⟩ := grows_of_mapM
            (P := fun blocks => Converts given blocks element)
            (fun _ _ _ _ hext hc => hc.mono hext)
            (fun bound hbound _ _ _ hrun => ih (hfree bound hbound)
              (fun n hn => hgiven n (List.mem_flatMap.2 ⟨_, hbound, hn⟩))
              hrun) hitems
          exact ⟨hgrow,
            .list (Numeric.check_eq_ok_iff.1 hcount).1 hall⟩
  | grid grid =>
      rw [convert] at h
      obtain ⟨hgrow, hreference, items, rfl, hcount, hitems⟩ :=
        grows_of_listGrid h
      exact ⟨hgrow, .list_of_grid hreference hcount hitems⟩
  | _ => simp [convert, unsuitable] at h

/-- A sub-field with the value that the last item of its name turns
into. -/
def ConvertsField (given : Int → Prop) (bounds : List (String × FieldValue))
    (blocks : List Block) (f : String × DataType) (v : Value) : Prop :=
  ∃ bound, bounds.reverse.lookup f.1 = some bound ∧
    Converts given blocks f.2 bound v

/-- Sub-fields that are converted make a structure that is converted. -/
theorem Converts.struct {blocks : List Block} {name : String}
    {fields : List (String × DataType)}
    {bounds : List (String × FieldValue)} {items : List Value}
    (h : List.Forall₂ (ConvertsField given bounds blocks) fields items) :
    Converts given blocks (.struct name fields) (.struct bounds)
      (.struct items) := by
  refine ⟨?_, ?_, ?_⟩
  · refine DataType.holds_struct.2 ⟨items, rfl, ?_⟩
    refine h.imp fun f item hfield => ?_
    obtain ⟨_, -, hconverts⟩ := hfield
    exact hconverts.holds
  · intro k r hr
    rw [DataType.refsIn] at hr
    obtain ⟨f, item, ⟨_, -, hconverts⟩, hr⟩ :=
      DataType.exists_of_mem_refsInFields h hr
    exact hconverts.names k r hr
  · intro n hn hne
    rw [DataType.spriteNumbers] at hn
    rw [DataType.refsIn]
    induction h with
    | nil => cases hn
    | cons hfield _ ih =>
        obtain ⟨bound, hbound, hconverts⟩ := hfield
        rw [DataType.fieldSpriteNumbers, hbound] at hn
        rcases List.mem_append.1 hn with hn | hn
        · obtain ⟨r, hr, hnumber⟩ := hconverts.numbers n hn hne
          exact ⟨r, List.mem_append_left _ hr, hnumber⟩
        · obtain ⟨r, hr, hnumber⟩ := ih hn
          exact ⟨r, List.mem_append_right _ hr, hnumber⟩

/-- References to sprites make a structure of references that is
converted. -/
theorem Converts.struct_of_grid {blocks : List Block} {name : String}
    {fields : List (String × DataType)} {grid : SheetGrid}
    {items : List Value}
    (hreference : ∀ f ∈ fields, f.2.isReference = true)
    (h : List.Forall₂ (fun _ item => IsSpriteRef blocks item)
      fields items) :
    Converts given blocks (.struct name fields) (.grid grid)
      (.struct items) := by
  have hfields := (List.forall₂_and_left _ _).2 ⟨hreference, h⟩
  have hitems : List.Forall₂ (fun (f : String × DataType) item =>
      Converts given blocks f.2 (.block none) item) fields items :=
    hfields.imp fun f item hf => hf.2.converts hf.1
      (DataType.spriteNumbers_block f.2 none)
  refine ⟨?_, ?_, ?_⟩
  · refine DataType.holds_struct.2 ⟨items, rfl, ?_⟩
    exact hitems.imp fun f item hconverts => hconverts.holds
  · intro k r hr
    rw [DataType.refsIn] at hr
    obtain ⟨f, item, hconverts, hr⟩ :=
      DataType.exists_of_mem_refsInFields hitems hr
    exact hconverts.names k r hr
  · intro n hn
    cases hn

/-- The sub-fields of a structure are converted one after the other. -/
theorem grows_of_convertFields {record : String}
    {fields : List (String × DataType)}
    {bounds : List (String × FieldValue)} {items : List Value}
    (ih : ∀ f ∈ fields, IsConverted settings given f.2)
    (hfree : ∀ item ∈ bounds, item.2.IsFree)
    (hgiven : ∀ n ∈ DataType.fieldSpriteNumbers bounds fields, given n)
    (h : (convertFields settings record bounds fields).Runs s items s') :
    s.container.Grows given s'.container ∧
      List.Forall₂ (ConvertsField given bounds s'.container.blocks)
        fields items := by
  induction fields generalizing s items with
  | nil =>
      obtain ⟨rfl, rfl⟩ := runs_pure.1 h
      exact ⟨Container.Grows.refl _, .nil⟩
  | cons f fields ihfields =>
      obtain ⟨name, t⟩ := f
      simp only [convertFields, runs_bind, runs_inField, runs_pure] at h
      obtain ⟨bound, s₁, hbound, v, s₂, hv, rest, s₃, hrest, rfl, rfl⟩ := h
      obtain ⟨hlookup, rfl⟩ := runs_subFieldValue.1 hbound
      rw [DataType.fieldSpriteNumbers, hlookup] at hgiven
      have hmem : (name, bound) ∈ bounds := by
        obtain ⟨before, after, hsplit, -⟩ :=
          List.lookup_eq_some_iff.1 hlookup
        rw [← List.mem_reverse, hsplit]
        exact List.mem_append_right _ List.mem_cons_self
      obtain ⟨hgrow, hconverts⟩ := ih (name, t) List.mem_cons_self
        (hfree _ hmem) (fun n hn => hgiven n (List.mem_append_left _ hn))
        hv
      obtain ⟨hgrow', hall⟩ := ihfields
        (fun f hf => ih f (List.mem_cons_of_mem _ hf))
        (fun n hn => hgiven n (List.mem_append_right _ hn)) hrest
      exact ⟨hgrow.trans hgrow', .cons
        ⟨bound, hlookup, hconverts.mono hgrow'.keeps⟩ hall⟩

/-- A structure is stored as the row of what its sub-fields are stored
as. -/
theorem isConverted_struct (name : String)
    {fields : List (String × DataType)}
    (ih : ∀ f ∈ fields, IsConverted settings given f.2) :
    IsConverted settings given (.struct name fields) := by
  intro bound s v s' hfree hgiven h
  cases bound with
  | struct bounds =>
      cases hfree with
      | struct hfree =>
          simp only [convert, runs_bind, runs_pure] at h
          obtain ⟨items, s₁, hitems, rfl, rfl⟩ := h
          obtain ⟨hgrow, hall⟩ :=
            grows_of_convertFields ih hfree hgiven hitems
          exact ⟨hgrow, .struct hall⟩
  | grid grid =>
      rw [convert] at h
      obtain ⟨hgrow, hreference, items, rfl, hitems⟩ :=
        grows_of_structGrid h
      exact ⟨hgrow, .struct_of_grid hreference hitems⟩
  | _ => simp [convert, unsuitable] at h

/-- Conversion lets the container grow and gives a value of the type
whose references name what they may. -/
theorem isConverted (settings : ConversionSettings)
    (given : Int → Prop) (t : DataType) :
    IsConverted settings given t := by
  induction t using DataType.induction with
  | numeric n => exact isConverted_numeric n
  | enumeration e => exact isConverted_enumeration e
  | reference kind => exact isConverted_reference kind
  | text => exact isConverted_text
  | imageData => exact isConverted_imageData
  | list count element ih => exact isConverted_list count ih
  | struct name fields ih => exact isConverted_struct name ih
  | bitSet b => exact isConverted_bitSet b
  | raw =>
      intro bound s v s' _ _ h
      cases bound <;> simp [convert, unsuitable] at h

end Conversion

end GamePack
