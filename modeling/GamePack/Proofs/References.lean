import GamePack.Proofs.Typing
import GamePack.Sprite.Image
import GamePack.Strings

/-!
The references inside values. `Value.refs` collects them all;
`DataType.refsIn` collects them together with the type of the field that
each stands in, which for a value of the type are the same references.
`Names` says what a reference in a field of a type may name among the
blocks of a file.
-/
namespace GamePack

-- ====================================================== collecting

namespace Value

mutual
/-- The references anywhere inside a value. -/
def refs : Value → List BlockRef
  | ref r => r.toList
  | list items => refsAll items
  | struct items => refsAll items
  | int _ | image _ | raw _ => []

/-- The references inside a row of values. -/
def refsAll : List Value → List BlockRef
  | [] => []
  | item :: items => item.refs ++ refsAll items
end

theorem refsAll_eq_flatMap (items : List Value) :
    refsAll items = items.flatMap refs := by
  induction items with
  | nil => rfl
  | cons item items ih => rw [refsAll, ih, List.flatMap_cons]

end Value

namespace DataType

mutual
/-- The references inside a value, each with the type of the field that
it stands in. -/
def refsIn : DataType → Value → List (DataType × BlockRef)
  | reference kind, .ref r => r.toList.map (reference kind, ·)
  | text, .ref r => r.toList.map (text, ·)
  | list _ element, .list items =>
    items.flatMap fun item => element.refsIn item
  | struct _ fields, .struct items => refsInFields fields items
  | _, _ => []

/-- The references inside the values of sub-fields. -/
def refsInFields :
    List (String × DataType) → List Value → List (DataType × BlockRef)
  | (_, t) :: fields, item :: items =>
    t.refsIn item ++ refsInFields fields items
  | _, _ => []
end

section Members

variable {kind : RefKind} {reference : Option BlockRef} {k : DataType}
  {r : BlockRef} {fields : List (String × DataType)} {items : List Value}

theorem mem_refsIn_reference :
    (k, r) ∈ (DataType.reference kind).refsIn (.ref reference) ↔
      k = .reference kind ∧ reference = some r := by
  simp only [refsIn, List.mem_map, Option.mem_toList, Prod.mk.injEq]
  constructor
  · rintro ⟨r', hr', rfl, rfl⟩
    exact ⟨rfl, hr'⟩
  · rintro ⟨rfl, hr⟩
    exact ⟨r, hr, rfl, rfl⟩

theorem mem_refsIn_text :
    (k, r) ∈ DataType.text.refsIn (.ref reference) ↔
      k = .text ∧ reference = some r := by
  simp only [refsIn, List.mem_map, Option.mem_toList, Prod.mk.injEq]
  constructor
  · rintro ⟨r', hr', rfl, rfl⟩
    exact ⟨rfl, hr'⟩
  · rintro ⟨rfl, hr⟩
    exact ⟨r, hr, rfl, rfl⟩

theorem mem_refsIn_list {count : Numeric} {element : DataType} :
    (k, r) ∈ (list count element).refsIn (.list items) ↔
      ∃ item ∈ items, (k, r) ∈ element.refsIn item := by
  rw [refsIn, List.mem_flatMap]

/-- A reference inside the values of sub-fields is inside one of them. -/
theorem exists_of_mem_refsInFields
    {R : String × DataType → Value → Prop}
    (h : List.Forall₂ R fields items)
    (hr : (k, r) ∈ refsInFields fields items) :
    ∃ f item, R f item ∧ (k, r) ∈ f.2.refsIn item := by
  induction h with
  | nil => simp [refsInFields] at hr
  | cons hR _ ih =>
      rcases List.mem_append.1 hr with hr | hr
      · exact ⟨_, _, hR, hr⟩
      · exact ih hr

end Members

/-- The references inside a value of a type are those in its fields. -/
theorem Holds.refs_eq {t : DataType} {v : Value} (h : t.Holds v) :
    v.refs = (t.refsIn v).map Prod.snd := by
  induction t using DataType.induction generalizing v with
  | numeric n =>
      obtain ⟨k, rfl, -⟩ := holds_numeric.1 h
      rfl
  | enumeration e =>
      obtain ⟨k, rfl, -⟩ := holds_enumeration.1 h
      rfl
  | bitSet b =>
      obtain ⟨k, rfl, -⟩ := holds_bitSet.1 h
      rfl
  | reference kind =>
      obtain ⟨r, rfl⟩ := holds_reference.1 h
      simp [Value.refs, refsIn]
  | text =>
      obtain ⟨r, rfl⟩ := holds_text.1 h
      simp [Value.refs, refsIn]
  | imageData =>
      obtain ⟨lines, rfl⟩ := holds_imageData.1 h
      rfl
  | list count element ih =>
      obtain ⟨items, rfl, -, hitems⟩ := holds_list.1 h
      rw [Value.refs, refsIn, Value.refsAll_eq_flatMap, List.map_flatMap]
      exact List.flatMap_congr fun item hitem => ih (hitems item hitem)
  | struct name fields ih =>
      obtain ⟨items, rfl, hitems⟩ := holds_struct.1 h
      rw [Value.refs, refsIn]
      clear h
      induction hitems with
      | nil => rfl
      | cons hitem _ ihrest =>
          rw [Value.refsAll, refsInFields, List.map_append,
            ih _ List.mem_cons_self hitem,
            ihrest fun f hf => ih f (List.mem_cons_of_mem _ hf)]
  | raw =>
      obtain ⟨bytes, rfl⟩ := holds_raw.1 h
      rfl

end DataType

namespace Block

/-- The references in the values of a block. -/
def refs (b : Block) : List BlockRef :=
  b.values.flatMap fun entry => entry.2.refs

/-- The references in the declared fields of a block, each with the type
of the field or sub-field that it stands in. -/
def refsIn (b : Block) : List (DataType × BlockRef) :=
  b.fields.flatMap fun f => ((b.get? f.1).map f.2.refsIn).getD []

/-- The references in a block are those in the values of its fields. -/
theorem mem_refsIn {b : Block} {k : DataType} {r : BlockRef} :
    (k, r) ∈ b.refsIn ↔ ∃ f ∈ b.fields, ∃ v, b.get? f.1 = some v ∧
      (k, r) ∈ f.2.refsIn v := by
  unfold refsIn
  rw [List.mem_flatMap]
  refine exists_congr fun f => and_congr_right fun _ => ?_
  cases b.get? f.1 <;> simp

end Block

-- ======================================================== naming

/-- A block that holds a sprite in the layout of its version. -/
def Block.IsSprite (b : Block) : Prop :=
  b.magic = .sprite ∧ b.version = spriteVersion

/-- A block that holds localized strings in the layout of its
version. -/
def Block.IsText (b : Block) : Prop :=
  b.magic = .strings ∧ b.version = Strings.blockVersion

/-- A number names a block with a property in a row of blocks, counted
from one. -/
def NamesBlock (p : Block → Prop) (blocks : List Block)
    (number : Nat) : Prop :=
  ∃ b, blocks[number - 1]? = some b ∧ p b

/-- What a reference in a field of a type names: a block that is there,
localized strings in a text field, and a sprite in a sprite field unless
its number is one of the given ones. -/
structure Names (given : Int → Prop) (blocks : List Block)
    (t : DataType) (r : BlockRef) : Prop where
  within : r.number ≤ blocks.length
  text : t = .text → NamesBlock Block.IsText blocks r.number
  sprite : t = .reference .sprite →
    NamesBlock Block.IsSprite blocks r.number ∨ given r.number

/-- What names a block still does when blocks are added behind the
others. -/
theorem NamesBlock.mono {p : Block → Prop} {blocks blocks' : List Block}
    {number : Nat} (h : NamesBlock p blocks number)
    (hext : blocks <+: blocks') : NamesBlock p blocks' number := by
  obtain ⟨b, hb, hp⟩ := h
  obtain ⟨later, rfl⟩ := hext
  obtain ⟨hlt, -⟩ := List.getElem?_eq_some_iff.1 hb
  exact ⟨b, by rw [List.getElem?_append_left hlt]; exact hb, hp⟩

/-- What a reference names stays what it is when blocks are added. -/
theorem Names.mono {given given' : Int → Prop}
    {blocks blocks' : List Block} {t : DataType} {r : BlockRef}
    (h : Names given blocks t r) (hext : blocks <+: blocks')
    (hgiven : ∀ n, given n → given' n) : Names given' blocks' t r where
  within := Nat.le_trans h.within hext.length_le
  text := fun ht => (h.text ht).mono hext
  sprite := fun ht => by
    rcases h.sprite ht with hsprite | hnumber
    · exact .inl (hsprite.mono hext)
    · exact .inr (hgiven _ hnumber)

section Kinds

variable {given : Int → Prop} {blocks : List Block} {r : BlockRef}

/-- A reference that names a block does not point behind the last. -/
theorem NamesBlock.le_length {p : Block → Prop}
    (h : NamesBlock p blocks r.number) : r.number ≤ blocks.length := by
  obtain ⟨b, hb, -⟩ := h
  obtain ⟨hlt, -⟩ := List.getElem?_eq_some_iff.1 hb
  have := r.pos
  omega

theorem NamesBlock.names_reference {kind : RefKind}
    (h : NamesBlock Block.IsSprite blocks r.number) :
    Names given blocks (.reference kind) r :=
  ⟨h.le_length, by simp, fun _ => .inl h⟩

theorem NamesBlock.names_text
    (h : NamesBlock Block.IsText blocks r.number) :
    Names given blocks .text r :=
  ⟨h.le_length, fun _ => h, by simp⟩

end Kinds

end GamePack
