import GamePack.Proofs.Container.Adding
import GamePack.Proofs.Container.Writing
import GamePack.Proofs.Dictionary
import GamePack.Proofs.References
import GamePack.Proofs.Sprite.Payload

/-!
Containers that are sound: every block is complete and refers only to
blocks before it. Soundness is judged against the blocks in front, so it
stays when blocks are added behind, and a container stays sound when a
sound block is added, found there or not. The blocks of sprites and of
localized strings have no references and are always sound.
-/
namespace GamePack

-- ========================================================= soundness

/-- A block that can stand behind others: every declared field has a
value of its type, no value is of an undeclared field, and references
name what they may among the blocks in front. -/
structure Block.IsSound (given : Int → Prop) (front : List Block)
    (b : Block) : Prop where
  complete : b.IsComplete
  distinct : (b.fields.map Prod.fst).Nodup
  declared : ∀ entry ∈ b.values, ∃ t, (entry.1, t) ∈ b.fields ∧
    t.Holds entry.2 ∧ ∀ k r, (k, r) ∈ t.refsIn entry.2 →
      Names given front k r

namespace Block.IsSound

variable {given : Int → Prop} {front : List Block} {b : Block}

/-- The references in the fields of a sound block name what they may. -/
theorem names_of_mem_refsIn (h : b.IsSound given front) {k : DataType}
    {r : BlockRef} (hr : (k, r) ∈ b.refsIn) : Names given front k r := by
  obtain ⟨f, hf, v, hv, hr⟩ := Block.mem_refsIn.1 hr
  obtain ⟨t, ht, -, hnames⟩ := h.declared _ (Dictionary.mem_of_find? hv)
  -- the names of fields are distinct, so the two types agree
  have hsame : (f.1, t) = f :=
    List.inj_on_of_nodup_map h.distinct ht hf rfl
  rw [← hsame] at hr
  exact hnames k r hr

/-- Every reference in a sound block names a block in front of it. -/
theorem le_length_of_mem_refs (h : b.IsSound given front) {r : BlockRef}
    (hr : r ∈ b.refs) : r.number ≤ front.length := by
  obtain ⟨entry, hentry, hr⟩ := List.mem_flatMap.1 hr
  obtain ⟨t, -, hholds, hnames⟩ := h.declared entry hentry
  rw [hholds.refs_eq, List.mem_map] at hr
  obtain ⟨⟨k, r'⟩, hk, rfl⟩ := hr
  exact (hnames k r' hk).within

end Block.IsSound

/-- Every block is sound behind the blocks in front of it. -/
def Container.IsSound (given : Int → Prop) (c : Container) : Prop :=
  ∀ (i : Nat) (b : Block), c.blocks[i]? = some b →
    b.IsSound given (c.blocks.take i)

/-- A container keeps its blocks in their places and stays sound. -/
structure Container.Grows (given : Int → Prop) (c c' : Container) :
    Prop where
  keeps : c.blocks <+: c'.blocks
  sound : c.IsSound given → c'.IsSound given

namespace Container

variable {given : Int → Prop} {c c' c'' : Container} {block : Block}

theorem isSound_empty (given : Int → Prop) :
    (({} : Container)).IsSound given := by
  intro i b hb
  exact absurd hb (by simp)

theorem Grows.refl (c : Container) : c.Grows given c :=
  ⟨List.prefix_rfl, id⟩

theorem Grows.trans (h : c.Grows given c') (h' : c'.Grows given c'') :
    c.Grows given c'' :=
  ⟨h.keeps.trans h'.keeps, fun hc => h'.sound (h.sound hc)⟩

/-- Adding a block that is sound behind the others keeps a container
sound. -/
theorem grows_addBlock (h : block.IsSound given c.blocks) :
    c.Grows given (c.addBlock (some block)).2 where
  keeps := keeps_addBlock c (some block)
  sound := by
    intro hc
    rcases addBlock_cases c block with ⟨i, -, hadd⟩ | ⟨-, hadd⟩
    · rw [hadd]
      exact hc
    · rw [hadd]
      intro j b hb
      rcases Nat.lt_or_ge j c.blocks.length with hlt | hge
      -- an old block has the same blocks in front of it as before
      · have hold : c.blocks[j]? = some b := by
          rw [← hb]
          exact (List.getElem?_append_left hlt).symm
        show b.IsSound given ((c.blocks ++ [block]).take j)
        rw [List.take_append_of_le_length (Nat.le_of_lt hlt)]
        exact hc j b hold
      -- the new block has all the old ones in front of it
      · obtain ⟨hj, hget⟩ := List.getElem?_eq_some_iff.1 hb
        have hlast : j = c.blocks.length := by
          rw [List.length_append, List.length_singleton] at hj
          omega
        subst hlast
        obtain rfl : block = b := by simpa using hget
        show block.IsSound given ((c.blocks ++ [block]).take _)
        rw [List.take_left]
        exact h

/-- The number that is given for a block names it. -/
theorem namesBlock_addBlock {p : Block → Prop} {r : BlockRef}
    (hp : p block) (h : (c.addBlock (some block)).1 = some r) :
    NamesBlock p (c.addBlock (some block)).2.blocks r.number := by
  obtain ⟨i, hi, hnumber, -⟩ := exists_addBlock c block
  rw [hnumber, BlockRef.ofNumber?_eq_some] at h
  exact ⟨block, by rw [h]; exact hi, hp⟩

end Container

-- ================================================== generated blocks

variable {given : Int → Prop} {front : List Block}

/-- A block that was made of values of its types, without references, is
sound anywhere. -/
theorem Block.isSound_of_plain {b : Block}
    (hdistinct : (b.fields.map Prod.fst).Nodup) (hcomplete : b.IsComplete)
    (hplain : ∀ entry ∈ b.values, ∃ t, (entry.1, t) ∈ b.fields ∧
      t.Holds entry.2 ∧ t.refsIn entry.2 = []) :
    b.IsSound given front where
  complete := hcomplete
  distinct := hdistinct
  declared := by
    intro entry hentry
    obtain ⟨t, ht, hholds, hrefs⟩ := hplain entry hentry
    exact ⟨t, ht, hholds, fun k r hr => by simp [hrefs] at hr⟩

/-- The block of a sprite is sound anywhere. -/
theorem SpriteImage.isSound_blockOf {image : SpriteImage}
    (h : image.FitsFormat) : image.blockOf.IsSound given front := by
  obtain ⟨hw, hh, hx, hy⟩ := h
  obtain ⟨gw, gh, gx, gy, gl⟩ := get?_blockOf image
  have hdistinct : (image.blockOf.fields.map Prod.fst).Nodup := by
    show (blockFields.map _).Nodup
    decide
  apply Block.isSound_of_plain hdistinct
  · intro f hf
    simp only [blockOf, blockFields, List.mem_cons, List.not_mem_nil,
      or_false] at hf
    rcases hf with rfl | rfl | rfl | rfl | rfl
    · exact ⟨_, gw, hw⟩
    · exact ⟨_, gh, hh⟩
    · exact ⟨_, gx, hx⟩
    · exact ⟨_, gy, hy⟩
    · exact ⟨_, gl, trivial⟩
  · intro entry hentry
    have hmem := Dictionary.mem_ofList hentry
    simp only [List.mem_cons, List.not_mem_nil, or_false] at hmem
    rcases hmem with rfl | rfl | rfl | rfl | rfl
    · exact ⟨.numeric .uint16, by simp [blockOf, blockFields], hw, rfl⟩
    · exact ⟨.numeric .uint16, by simp [blockOf, blockFields], hh, rfl⟩
    · exact ⟨.numeric .int16, by simp [blockOf, blockFields], hx, rfl⟩
    · exact ⟨.numeric .int16, by simp [blockOf, blockFields], hy, rfl⟩
    · exact ⟨.imageData, by simp [blockOf, blockFields], trivial, rfl⟩

/-- Strings become a block when they have a payload, which is all the
block has. -/
theorem Strings.toBlock_ok_iff {strings : Strings} {block : Block} :
    strings.toBlock = .ok block ↔
      ∃ bytes, strings.payload = .ok bytes ∧
        block = { magic := .strings, version := blockVersion
                  fields := [("strings", .raw)]
                  values := [("strings", .raw bytes)] } := by
  simp only [Strings.toBlock, bind_eq_ok, pure_ok_iff]

/-- The block of localized strings is one of texts, and is sound
anywhere. -/
theorem Strings.isSound_of_toBlock {strings : Strings} {block : Block}
    (h : strings.toBlock = .ok block) :
    block.IsText ∧ block.IsSound given front := by
  obtain ⟨bytes, -, rfl⟩ := toBlock_ok_iff.1 h
  refine ⟨⟨rfl, rfl⟩, Block.isSound_of_plain (by simp) ?_ ?_⟩
  · intro f hf
    obtain rfl := List.mem_singleton.1 hf
    exact ⟨.raw bytes, rfl, trivial⟩
  · intro entry hentry
    obtain rfl := List.mem_singleton.1 hentry
    exact ⟨.raw, List.mem_singleton.2 rfl, trivial, rfl⟩

end GamePack
