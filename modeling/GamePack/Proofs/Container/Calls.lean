import GamePack.Proofs.Block
import GamePack.Proofs.Container.Adding
import GamePack.Proofs.Dictionary
import Mathlib.Data.List.ReduceOption

/-!
Adding blocks one after the other. A call finds its block or appends it,
so the blocks that are left are the distinct ones among the calls, in
the order in which each was added first; and the number that a call
gives is the place of its block among these, counted from one, however
many calls follow. What is known of the references of a row of calls is
read off this.

Blocks are compared as a whole. Blocks whose values were assigned one by
one keep them in the order of their names, so such blocks are equal as
soon as every field has the same value in both.
-/
namespace GamePack

-- =================================================== equal blocks

namespace Block

/-- A block as it is made: without values, which are then assigned. -/
inductive IsBuilt : Block → Prop where
  | new (magic : Magic) (version : Nat)
      (fields : List (String × DataType)) :
      IsBuilt { magic, version, fields }
  | set {b b' : Block} {name : String} {value : Value} (h : IsBuilt b)
      (hset : b.set name value = .ok b') : IsBuilt b'

/-- Two blocks agree in magic, version and fields, and in the value of
every name. -/
structure Agrees (a b : Block) : Prop where
  magic : a.magic = b.magic
  version : a.version = b.version
  fields : a.fields = b.fields
  values : ∀ name, a.get? name = b.get? name

variable {a b : Block}

/-- The values of a built block are ordered by name. -/
theorem IsBuilt.isOrdered (h : b.IsBuilt) : b.values.IsOrdered := by
  induction h with
  | new magic version fields => exact Dictionary.isOrdered_nil
  | set _ hset ih =>
      obtain ⟨-, rfl⟩ := set_ok_iff.1 hset
      exact ih.insert _ _

/-- The order in which values were assigned does not count. -/
theorem IsBuilt.eq_iff_agrees (ha : a.IsBuilt) (hb : b.IsBuilt) :
    a = b ↔ a.Agrees b := by
  constructor
  · rintro rfl
    exact ⟨rfl, rfl, rfl, fun _ => rfl⟩
  · intro h
    have hvalues : a.values = b.values :=
      ha.isOrdered.ext hb.isOrdered h.values
    obtain ⟨hmagic, hversion, hfields, -⟩ := h
    cases a
    cases b
    simp_all

end Block

-- ==================================================== rows of calls

namespace Container

/-- The references that a row of calls gives, and the container that it
leaves. -/
def addBlocks (c : Container) :
    List (Option Block) → List (Option BlockRef) × Container
  | [] => ([], c)
  | call :: calls =>
    let (reference, c) := c.addBlock call
    let (references, c) := c.addBlocks calls
    (reference :: references, c)

variable {c : Container} {block : Block} {call : Option Block}
  {calls : List (Option Block)}

theorem addBlocks_nil (c : Container) : c.addBlocks [] = ([], c) := rfl

theorem addBlocks_cons (c : Container) (call : Option Block)
    (calls : List (Option Block)) :
    c.addBlocks (call :: calls) =
      ((c.addBlock call).1 :: ((c.addBlock call).2.addBlocks calls).1,
        ((c.addBlock call).2.addBlocks calls).2) := rfl

/-- Later calls are made on what the earlier ones leave. -/
theorem addBlocks_append (c : Container)
    (calls later : List (Option Block)) :
    c.addBlocks (calls ++ later) =
      ((c.addBlocks calls).1 ++ ((c.addBlocks calls).2.addBlocks later).1,
        ((c.addBlocks calls).2.addBlocks later).2) := by
  induction calls generalizing c with
  | nil => rfl
  | cons call calls ih =>
      rw [List.cons_append, addBlocks_cons, ih, addBlocks_cons]
      rfl

/-- Calls keep the blocks in their places. -/
theorem keeps_addBlocks (c : Container) (calls : List (Option Block)) :
    c.blocks <+: (c.addBlocks calls).2.blocks := by
  induction calls generalizing c with
  | nil => exact List.prefix_rfl
  | cons call calls ih =>
      exact (keeps_addBlock c call).trans (ih (c.addBlock call).2)

/-- Calls add the distinct blocks that were not there, in the order in
which each was added first. -/
theorem blocks_addBlocks (c : Container) (calls : List (Option Block)) :
    (c.addBlocks calls).2.blocks =
      c.blocks ++ (calls.reduceOption.removeAll c.blocks).eraseDups := by
  induction calls generalizing c with
  | nil => simp [addBlocks_nil, List.removeAll, List.reduceOption_nil]
  | cons call calls ih =>
      rw [addBlocks_cons]
      cases call with
      | none =>
          rw [List.reduceOption_cons_of_none]
          exact ih c
      | some block =>
          rw [List.reduceOption_cons_of_some]
          show ((c.addBlock (some block)).2.addBlocks calls).2.blocks = _
          rw [ih]
          rcases addBlock_cases c block with ⟨i, hi, h⟩ | ⟨hnew, h⟩
          · rw [h]
            have hmem := List.mem_of_getElem? hi
            simp [List.removeAll, hmem]
          · rw [h]
            -- the appended block is the first of the new ones, and is
            -- not looked at again
            simp only [List.removeAll, List.elem_eq_contains,
              List.contains_eq_mem, List.mem_append, List.mem_singleton,
              List.filter_cons, hnew, decide_false, Bool.not_false,
              if_true, List.eraseDups_cons, List.filter_filter,
              List.append_assoc, List.singleton_append]
            congr 3
            apply List.filter_congr
            intro other _
            by_cases hother : other = block <;> simp [hother]

/-- No call puts a block into a container that has it. -/
theorem nodup_addBlock (h : c.blocks.Nodup) (call : Option Block) :
    (c.addBlock call).2.blocks.Nodup := by
  cases call with
  | none => exact h
  | some block =>
      rcases addBlock_cases c block with ⟨i, -, hadd⟩ | ⟨hnew, hadd⟩
      · rw [hadd]
        exact h
      · rw [hadd]
        simpa using h.concat hnew

/-- No two blocks are equal. -/
theorem nodup_addBlocks (h : c.blocks.Nodup)
    (calls : List (Option Block)) :
    (c.addBlocks calls).2.blocks.Nodup := by
  induction calls generalizing c with
  | nil => exact h
  | cons call calls ih => exact ih (nodup_addBlock h call)

-- ========================================================== numbers

/-- The number that a block has in a container, if it fits a word. -/
def numberOf? (c : Container) (block : Block) : Option BlockRef :=
  BlockRef.ofNumber? (c.blocks.idxOf block + 1)

/-- A block keeps its number when blocks are added behind it. -/
theorem numberOf?_eq_of_keeps {c' : Container} (h : block ∈ c.blocks)
    (hkeeps : c.blocks <+: c'.blocks) :
    c'.numberOf? block = c.numberOf? block := by
  obtain ⟨later, hlater⟩ := hkeeps
  unfold numberOf?
  rw [← hlater, List.idxOf_append_of_mem h]

/-- A block that was added is in the container. -/
theorem mem_addBlock (c : Container) (block : Block) :
    block ∈ (c.addBlock (some block)).2.blocks := by
  obtain ⟨i, hi, -⟩ := exists_addBlock c block
  exact List.mem_of_getElem? hi

/-- The reference that is given is the one at which the block is found
later. -/
theorem addBlock_eq_numberOf? (c : Container) (block : Block) :
    (c.addBlock (some block)).1 =
      (c.addBlock (some block)).2.numberOf? block := by
  unfold numberOf?
  cases hfound : c.blocks.idxOf? block with
  | none =>
      have hnew := List.idxOf?_eq_none_iff.1 hfound
      have hidx : (c.blocks ++ [block]).idxOf block =
          c.blocks.length + [block].idxOf block :=
        List.idxOf_append_of_notMem hnew
      simp only [addBlock, hfound, hidx, List.idxOf_cons_self,
        Nat.add_zero]
  | some i =>
      have hidx : c.blocks.idxOf block = i := by
        simp [List.idxOf_eq_getD_idxOf?, hfound]
      simp only [addBlock, hfound, hidx]

/-- A block that is there is given its number, and nothing is added. -/
theorem addBlock_of_mem (h : block ∈ c.blocks) :
    c.addBlock (some block) = (c.numberOf? block, c) := by
  have hnumber := addBlock_eq_numberOf? c block
  rcases addBlock_cases c block with ⟨i, -, hadd⟩ | ⟨hnew, -⟩
  · rw [hadd] at hnumber ⊢
    rw [← hnumber]
  · exact absurd h hnew

/-- What a row of calls gives: for each block its number among the
blocks that are left in the end. -/
theorem references_addBlocks (c : Container)
    (calls : List (Option Block)) :
    (c.addBlocks calls).1 =
      calls.map (Option.bind · (c.addBlocks calls).2.numberOf?) := by
  induction calls generalizing c with
  | nil => rfl
  | cons call calls ih =>
      rw [addBlocks_cons, List.map_cons]
      dsimp only
      rw [← ih]
      congr 1
      cases call with
      | none => rfl
      | some block =>
          rw [addBlock_eq_numberOf?]
          -- the calls behind leave the number as it is
          exact (numberOf?_eq_of_keeps (mem_addBlock c block)
            (keeps_addBlocks _ calls)).symm

/-- A block in a container that numbers every block has a number, which
names it. -/
theorem exists_numberOf? (h : block ∈ c.blocks)
    (hsize : c.size < 0x100000000) :
    ∃ r, c.numberOf? block = some r ∧ c.get? r = some block := by
  have hlt : c.blocks.idxOf block < c.size := List.idxOf_lt_length_iff.2 h
  obtain ⟨r, hr⟩ : ∃ r, c.numberOf? block = some r :=
    BlockRef.exists_ofNumber? (Nat.succ_pos _) (by omega)
  refine ⟨r, hr, ?_⟩
  unfold numberOf? at hr
  unfold get?
  rw [BlockRef.ofNumber?_eq_some.1 hr, Nat.add_sub_cancel]
  exact List.getElem?_idxOf h

/-- Two blocks of a container have one number only if they are equal. -/
theorem numberOf?_inj {other : Block} (h : block ∈ c.blocks)
    (hother : other ∈ c.blocks) (hsize : c.size < 0x100000000) :
    c.numberOf? block = c.numberOf? other ↔ block = other := by
  obtain ⟨r, hr, hget⟩ := exists_numberOf? h hsize
  obtain ⟨r', hr', hget'⟩ := exists_numberOf? hother hsize
  constructor
  · intro heq
    rw [hr, hr'] at heq
    obtain rfl := Option.some.inj heq
    exact Option.some.inj (hget.symm.trans hget')
  · rintro rfl
    rfl

/-- A block that is added is in every container that later calls
leave. -/
theorem mem_addBlocks_take {i k : Nat} (c : Container)
    (h : calls[i]? = some (some block)) (hik : i < k) :
    block ∈ (c.addBlocks (calls.take k)).2.blocks := by
  have hcall : some block ∈ calls.take k := by
    apply List.mem_of_getElem? (i := i)
    rw [List.getElem?_take_of_lt hik]
    exact h
  obtain ⟨before, after, hsplit⟩ := List.append_of_mem hcall
  rw [hsplit, addBlocks_append, addBlocks_cons]
  exact (keeps_addBlocks _ after).subset (mem_addBlock _ block)

-- ======================================== runs from the beginning

/-- The container that a row of calls makes of an empty one. -/
def ofCalls (calls : List (Option Block)) : Container :=
  (({} : Container).addBlocks calls).2

/-- The references that a row of calls on an empty container gives. -/
def referencesOf (calls : List (Option Block)) : List (Option BlockRef) :=
  (({} : Container).addBlocks calls).1

/-- The distinct blocks among a row of calls, in the order in which each
is added first. -/
def distinctBlocks (calls : List (Option Block)) : List Block :=
  calls.reduceOption.eraseDups

/-- A container holds the blocks that were added, each one once, in the
order of their first calls. -/
theorem blocks_ofCalls (calls : List (Option Block)) :
    (ofCalls calls).blocks = distinctBlocks calls := by
  unfold ofCalls
  rw [blocks_addBlocks]
  simp [List.removeAll, distinctBlocks]

/-- Each call is answered with the place of its block in the whole
container. -/
theorem referencesOf_eq (calls : List (Option Block)) :
    referencesOf calls =
      calls.map (Option.bind · (ofCalls calls).numberOf?) :=
  references_addBlocks {} calls

/-- Calls that are made in two parts leave what they leave in one. -/
theorem ofCalls_append (calls later : List (Option Block)) :
    ofCalls (calls ++ later) = ((ofCalls calls).addBlocks later).2 := by
  unfold ofCalls
  rw [addBlocks_append]

/-- Later calls change nothing of the references given before. -/
theorem referencesOf_append (calls later : List (Option Block)) :
    referencesOf (calls ++ later) =
      referencesOf calls ++ ((ofCalls calls).addBlocks later).1 := by
  unfold referencesOf
  rw [addBlocks_append]
  rfl

theorem length_referencesOf (calls : List (Option Block)) :
    (referencesOf calls).length = calls.length := by
  rw [referencesOf_eq, List.length_map]

/-- The references that the first calls give stay the first ones. -/
theorem referencesOf_take (calls : List (Option Block)) (k : Nat) :
    referencesOf (calls.take k) = (referencesOf calls).take k := by
  have hsplit := referencesOf_append (calls.take k) (calls.drop k)
  rw [List.take_append_drop] at hsplit
  have hprefix : referencesOf (calls.take k) <+: referencesOf calls := by
    rw [hsplit]
    exact List.prefix_append _ _
  rw [List.prefix_iff_eq_take.1 hprefix, length_referencesOf,
    List.length_take, ← length_referencesOf calls,
    ← List.take_eq_take_min]

/-- What the first calls put into a container stays at its place. -/
theorem keeps_ofCalls_take (calls : List (Option Block)) (k : Nat) :
    (ofCalls (calls.take k)).blocks <+: (ofCalls calls).blocks := by
  have hsplit := ofCalls_append (calls.take k) (calls.drop k)
  rw [List.take_append_drop] at hsplit
  rw [hsplit]
  exact keeps_addBlocks _ _

/-- A container that starts empty holds the distinct blocks that were
added, in the order of their first addition. Adding nothing gives
nothing and changes nothing; adding a block gives a reference that names
the block from then on, whatever else is added, and that is given for
equal blocks and no others. -/
theorem ofCalls_faithful (calls : List (Option Block))
    (h : (distinctBlocks calls).length < 0x100000000) :
    (ofCalls calls).blocks = distinctBlocks calls ∧
    (distinctBlocks calls).Nodup ∧
    (∀ k, referencesOf (calls.take k) = (referencesOf calls).take k) ∧
    (∀ i, calls[i]? = some none →
      (referencesOf calls)[i]? = some none ∧
        ofCalls (calls.take (i + 1)) = ofCalls (calls.take i)) ∧
    (∀ i block, calls[i]? = some (some block) →
      ∃ r, (referencesOf calls)[i]? = some (some r) ∧
        ∀ k, i < k → (ofCalls (calls.take k)).get? r = some block) ∧
    ∀ (i j : Nat) (a b : Block), calls[i]? = some (some a) →
      calls[j]? = some (some b) →
      ((referencesOf calls)[i]? = (referencesOf calls)[j]? ↔ a = b) ∧
        (a.IsBuilt → b.IsBuilt → (a = b ↔ a.Agrees b)) := by
  have hblocks := blocks_ofCalls calls
  have hsize : (ofCalls calls).size < 0x100000000 := by
    unfold size
    rw [hblocks]
    exact h
  have hreference : ∀ {i : Nat} {block : Block},
      calls[i]? = some (some block) →
      (referencesOf calls)[i]? =
          some ((ofCalls calls).numberOf? block) ∧
        block ∈ (ofCalls calls).blocks := by
    intro i block hi
    refine ⟨by simp [referencesOf_eq, hi], ?_⟩
    obtain ⟨hlt, -⟩ := List.getElem?_eq_some_iff.1 hi
    have hmem := mem_addBlocks_take {} hi hlt
    rwa [List.take_length] at hmem
  refine ⟨hblocks, ?_, referencesOf_take calls, ?_, ?_, ?_⟩
  · rw [← hblocks]
    exact nodup_addBlocks List.nodup_nil calls
  · intro i hi
    refine ⟨by simp [referencesOf_eq, hi], ?_⟩
    obtain ⟨hlt, hget⟩ := List.getElem?_eq_some_iff.1 hi
    rw [List.take_succ_eq_append_getElem hlt, hget, ofCalls_append]
    rfl
  · intro i block hi
    obtain ⟨href, hmem⟩ := hreference hi
    obtain ⟨r, hr, -⟩ := exists_numberOf? hmem hsize
    refine ⟨r, by rw [href, hr], fun k hik => ?_⟩
    -- the container of the first `k` calls has the block already, and
    -- gives it the number that it has in the end
    have hkeeps := keeps_ofCalls_take calls k
    have hthere := mem_addBlocks_take {} hi hik
    have hsizek := Nat.lt_of_le_of_lt hkeeps.length_le hsize
    obtain ⟨r', hr', hget⟩ := exists_numberOf? hthere hsizek
    rw [← numberOf?_eq_of_keeps hthere hkeeps, hr] at hr'
    obtain rfl := Option.some.inj hr'
    exact hget
  · intro i j a b hi hj
    obtain ⟨hri, hmemi⟩ := hreference hi
    obtain ⟨hrj, hmemj⟩ := hreference hj
    rw [hri, hrj, Option.some.injEq]
    exact ⟨numberOf?_inj hmemi hmemj hsize, Block.IsBuilt.eq_iff_agrees⟩

/-- The third of four calls adds another block than the first, the last
adds the first again. -/
theorem ofCalls_faithful_words :
    (distinctBlocks [some (Block.ofWord 7), none, some (Block.ofWord 8),
      some (Block.ofWord 7)]).length < 0x100000000 ∧
    ∃ r, (referencesOf [some (Block.ofWord 7), none, some (Block.ofWord 8),
        some (Block.ofWord 7)])[0]? = some (some r) ∧
      (ofCalls [some (Block.ofWord 7), none, some (Block.ofWord 8)]).get? r =
        some (Block.ofWord 7) ∧
      (referencesOf [some (Block.ofWord 7), none, some (Block.ofWord 8),
        some (Block.ofWord 7)])[3]? = some (some r) := by
  have hfew : (distinctBlocks [some (Block.ofWord 7), none,
      some (Block.ofWord 8), some (Block.ofWord 7)]).length < 0x100000000 := by
    decide
  obtain ⟨-, -, -, -, hnames, hsame⟩ := ofCalls_faithful _ hfew
  obtain ⟨r, hr, hget⟩ := hnames 0 (Block.ofWord 7) rfl
  refine ⟨hfew, r, hr, hget 3 (by decide), ?_⟩
  rw [← hr]
  exact (hsame 3 0 (Block.ofWord 7) (Block.ofWord 7) rfl rfl).1.2 rfl

end Container

end GamePack
