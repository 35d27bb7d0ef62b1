import GamePack.Container
import Mathlib.Tactic

/-!
Adding a block to a container. A block that is there already is found at
its place and nothing changes; any other block becomes the last. Either
way the container keeps its blocks in their places, and the reference
that is given names the block.
-/
namespace GamePack

/-- The reference of a number has that number, which is not zero and fits
a word. -/
theorem BlockRef.ofNumber?_eq_some {number : Nat} {r : BlockRef} :
    ofNumber? number = some r ↔ r.number = number := by
  constructor
  · intro h
    unfold ofNumber? at h
    split at h
    · obtain rfl := Option.some.inj h
      rfl
    · cases h
  · rintro rfl
    exact ofNumber?_number r

/-- Every number of a word but zero is that of a block. -/
theorem BlockRef.exists_ofNumber? {number : Nat} (hpos : 0 < number)
    (hlt : number < 0x100000000) : ∃ r, ofNumber? number = some r :=
  ⟨⟨number, hpos, hlt⟩, dif_pos ⟨hpos, hlt⟩⟩

namespace Container

variable {c : Container} {block : Block}

/-- Adding a block either finds it or appends it. -/
theorem addBlock_cases (c : Container) (block : Block) :
    (∃ i, c.blocks[i]? = some block ∧
      c.addBlock (some block) = (BlockRef.ofNumber? (i + 1), c)) ∨
    (block ∉ c.blocks ∧ c.addBlock (some block) =
      (BlockRef.ofNumber? (c.size + 1), ⟨c.blocks ++ [block]⟩)) := by
  cases hfound : c.blocks.idxOf? block with
  | none =>
      right
      refine ⟨List.idxOf?_eq_none_iff.1 hfound, ?_⟩
      simp only [addBlock, hfound, size]
  | some i =>
      left
      obtain ⟨hlt, hget, -⟩ := List.idxOf?_eq_some_iff.1 hfound
      refine ⟨i, ?_, ?_⟩
      · rw [List.getElem?_eq_getElem hlt, hget]
      · simp only [addBlock, hfound]

/-- A container that is added to keeps its blocks in their places. -/
theorem keeps_addBlock (c : Container) (block : Option Block) :
    c.blocks <+: (c.addBlock block).2.blocks := by
  cases block with
  | none => exact List.prefix_rfl
  | some block =>
      rcases addBlock_cases c block with ⟨i, -, h⟩ | ⟨-, h⟩
      · rw [h]
      · rw [h]
        exact List.prefix_append _ _

/-- What a container holds after an addition was added or was there
before. -/
theorem mem_of_mem_addBlock {b : Block}
    (h : b ∈ (c.addBlock (some block)).2.blocks) :
    b = block ∨ b ∈ c.blocks := by
  rcases addBlock_cases c block with ⟨i, -, hadd⟩ | ⟨-, hadd⟩
  · rw [hadd] at h
    exact .inr h
  · rw [hadd] at h
    rcases List.mem_append.1 h with h | h
    · exact .inr h
    · exact .inl (List.mem_singleton.1 h)

/-- The block that is added stands at some place, whose number is
given. -/
theorem exists_addBlock (c : Container) (block : Block) :
    ∃ i, (c.addBlock (some block)).2.blocks[i]? = some block ∧
      (c.addBlock (some block)).1 = BlockRef.ofNumber? (i + 1) ∧
      i ≤ c.size := by
  rcases addBlock_cases c block with ⟨i, hi, h⟩ | ⟨-, h⟩
  · rw [h]
    obtain ⟨hlt, -⟩ := List.getElem?_eq_some_iff.1 hi
    exact ⟨i, hi, rfl, Nat.le_of_lt hlt⟩
  · rw [h]
    refine ⟨c.size, ?_, rfl, Nat.le_refl _⟩
    exact List.getElem?_concat_length

end Container

end GamePack
