import GamePack.Proofs.Conversion.Frame
import GamePack.Proofs.Conversion.Values

/-!
What conversion adds to the file and what it refers to. Sprites and
strings are added deep inside a value, and the number of each goes into
the value that is built there; nothing that is built is dropped when the
conversion succeeds. So every block that a conversion adds is named by a
reference inside the value that it gives. `Adds` speaks of the blocks
that come up between two states of a file and chains over the steps of a
conversion; `NamedBy` is what holds of each of them.
-/
namespace GamePack

-- =========================================================== additions

/-- A container keeps its blocks in their places, and something holds of
each block that comes up behind them, at its place. -/
structure Container.Adds (P : Nat → Block → Prop) (c c' : Container) :
    Prop where
  keeps : c.blocks <+: c'.blocks
  added : ∀ (i : Nat) (b : Block), c.size ≤ i →
    c'.blocks[i]? = some b → P i b

/-- A generated block whose number is one of some references, if it fits
a word. -/
def Block.NamedBy (refs : List BlockRef) (i : Nat) (b : Block) : Prop :=
  i + 1 < 0x100000000 →
    b.IsGenerated ∧ ∃ r ∈ refs, r.number = i + 1

/-- What is named by some references is named by more of them. -/
theorem Block.NamedBy.mono {refs refs' : List BlockRef} {i : Nat}
    {b : Block} (h : b.NamedBy refs i) (hmore : refs ⊆ refs') :
    b.NamedBy refs' i := by
  intro hi
  obtain ⟨hgenerated, r, hr, hnumber⟩ := h hi
  exact ⟨hgenerated, r, hmore hr, hnumber⟩

namespace Container

variable {P P' : Nat → Block → Prop} {refs refs' : List BlockRef}
  {c c' c'' : Container} {block : Block}

theorem Adds.refl (P : Nat → Block → Prop) (c : Container) :
    c.Adds P c where
  keeps := List.prefix_rfl
  added := by
    intro i b hi hb
    obtain ⟨hlt, -⟩ := List.getElem?_eq_some_iff.1 hb
    exact absurd hlt (Nat.not_lt.2 hi)

/-- Blocks that were added for a reason were added for a weaker one. -/
theorem Adds.mono (h : c.Adds P c') (himp : ∀ i b, P i b → P' i b) :
    c.Adds P' c' :=
  ⟨h.keeps, fun i b hi hb => himp i b (h.added i b hi hb)⟩

theorem Adds.trans (h : c.Adds P c') (h' : c'.Adds P c'') :
    c.Adds P c'' where
  keeps := h.keeps.trans h'.keeps
  added := by
    intro i b hi hb
    rcases Nat.lt_or_ge i c'.size with hlt | hge
    · -- a block that was there after the first step was added by it
      refine h.added i b hi ?_
      obtain ⟨later, hlater⟩ := h'.keeps
      rw [← hb, ← hlater]
      exact (List.getElem?_append_left hlt).symm
    · exact h'.added i b hge hb

/-- A block that is added comes up behind the others, unless it is there
already. -/
theorem adds_addBlock (h : block ∉ c.blocks → P c.size block) :
    c.Adds P (c.addBlock (some block)).2 := by
  rcases addBlock_cases c block with ⟨_, -, hadd⟩ | ⟨hnew, hadd⟩
  · rw [hadd]
    exact .refl _ c
  · rw [hadd]
    refine ⟨List.prefix_append _ _, fun i b hi hb => ?_⟩
    have hlength : (c.blocks ++ [block]).length = c.size + 1 :=
      List.length_append
    obtain ⟨hlt, -⟩ := List.getElem?_eq_some_iff.1 hb
    obtain rfl : i = c.size :=
      Nat.le_antisymm (Nat.le_of_lt_succ (hlt.trans_eq hlength)) hi
    obtain rfl : block = b :=
      Option.some.inj (List.getElem?_concat_length.symm.trans hb)
    exact h hnew

/-- A generated block is found or comes up, and the reference that is
given names it. -/
theorem adds_generated (hblock : block.IsGenerated) (c : Container) :
    c.Adds (Block.NamedBy (c.addBlock (some block)).1.toList)
      (c.addBlock (some block)).2 := by
  refine adds_addBlock fun hnew hfits => ⟨hblock, ?_⟩
  rcases addBlock_cases c block with ⟨i, hi, -⟩ | ⟨-, hadd⟩
  · exact absurd (List.mem_of_getElem? hi) hnew
  · obtain ⟨r, hr⟩ := BlockRef.exists_ofNumber? (Nat.succ_pos c.size) hfits
    refine ⟨r, ?_, BlockRef.ofNumber?_eq_some.1 hr⟩
    rw [hadd, hr]
    exact List.mem_singleton.2 rfl

/-- What two steps add is named by their references in a row. -/
theorem Adds.append (h : c.Adds (Block.NamedBy refs) c')
    (h' : c'.Adds (Block.NamedBy refs') c'') :
    c.Adds (Block.NamedBy (refs ++ refs')) c'' :=
  (h.mono fun _ _ hb => hb.mono (List.subset_append_left _ _)).trans
    (h'.mono fun _ _ hb => hb.mono (List.subset_append_right _ _))

end Container

namespace Conversion

variable {settings : ConversionSettings} {s s' : ConversionState}
  {v : Value}

/-- A row of steps adds what its steps add. -/
theorem adds_of_mapM {α β : Type} {f : α → Conversion β}
    {refs : β → List BlockRef} {l : List α} {r : List β}
    (hstep : ∀ a ∈ l, ∀ {s b s'}, (f a).Runs s b s' →
      s.container.Adds (Block.NamedBy (refs b)) s'.container)
    (h : (l.mapM f).Runs s r s') :
    s.container.Adds (Block.NamedBy (r.flatMap refs)) s'.container := by
  induction l generalizing s r with
  | nil =>
      obtain ⟨rfl, rfl⟩ := runs_mapM_nil.1 h
      exact .refl _ _
  | cons a l ih =>
      obtain ⟨b, s₁, hb, bs, hbs, rfl⟩ := runs_mapM_cons.1 h
      rw [List.flatMap_cons]
      exact (hstep a List.mem_cons_self hb).append
        (ih (fun a ha => hstep a (List.mem_cons_of_mem _ ha)) hbs)

-- ============================================================= sprites

/-- The block of a region is named by the reference that it gives. -/
theorem adds_of_sprite {region : SheetRegion} {reference : Option BlockRef}
    (h : (sprite settings region).Runs s reference s') :
    s.container.Adds (Block.NamedBy reference.toList) s'.container := by
  obtain ⟨_, image, -, hencode, hfits, rfl, rfl⟩ := effects_of_sprite h
  cases image with
  | none => exact .refl _ _
  | some image =>
      have hblock := SpriteImage.toBlock_ok_iff.2 ⟨hfits image rfl, rfl⟩
      exact Container.adds_generated (.sprite hencode hblock) _

/-- A row of sprites adds blocks that its references name. -/
theorem adds_of_spriteRefs {regions : List SheetRegion}
    {items : List Value}
    (h : (spriteRefs settings regions).Runs s items s') :
    s.container.Adds (Block.NamedBy (items.flatMap Value.refs))
      s'.container := by
  refine adds_of_mapM (fun region _ s item s' hitem => ?_) h
  simp only [runs_bind, runs_pure] at hitem
  obtain ⟨reference, s₁, hsprite, rfl, rfl⟩ := hitem
  exact adds_of_sprite hsprite

/-- The cells of the sub-fields are all among the items. -/
theorem adds_of_cellRefs {fields : List (String × DataType)}
    {cells : List (String × SheetRegion)} {items : List Value}
    (h : (cellRefs settings fields cells).Runs s items s') :
    s.container.Adds (Block.NamedBy (items.flatMap Value.refs))
      s'.container := by
  induction fields generalizing cells s items with
  | nil =>
      obtain ⟨rfl, rfl⟩ := runs_pure.1 h
      exact .refl _ _
  | cons f fields ih =>
      obtain ⟨name, t⟩ := f
      unfold cellRefs at h
      split at h
      · exact absurd h not_runs_throw
      · simp only [runs_bind, runs_pure] at h
        obtain ⟨reference, s₁, hsprite, rest, s₂, hrest, rfl, rfl⟩ := h
        rw [List.flatMap_cons]
        exact (adds_of_sprite hsprite).append (ih hrest)

/-- So does a list from a grid. -/
theorem adds_of_listGrid {count : Numeric} {element : DataType}
    {grid : SheetGrid}
    (h : (listGrid settings count element grid).Runs s v s') :
    s.container.Adds (Block.NamedBy v.refs) s'.container := by
  simp only [listGrid, runs_guard, runs_bind, runs_ofValue,
    runs_pure] at h
  obtain ⟨-, cells, s₁, hcells, _, _, ⟨-, rfl⟩, items, s₂, hitems, rfl,
    rfl⟩ := h
  rw [Value.refs, Value.refsAll_eq_flatMap, ← container_of_gridCells hcells]
  exact adds_of_spriteRefs hitems

/-- So does a structure from a grid. -/
theorem adds_of_structGrid {record : String}
    {fields : List (String × DataType)} {grid : SheetGrid}
    (h : (structGrid settings record fields grid).Runs s v s') :
    s.container.Adds (Block.NamedBy v.refs) s'.container := by
  unfold structGrid at h
  split at h
  · exact absurd h not_runs_throw
  · simp only [runs_bind] at h
    obtain ⟨cells, s₁, hcells, h⟩ := h
    split at h
    · exact absurd h not_runs_throw
    · simp only [runs_bind, runs_pure] at h
      obtain ⟨items, s₂, hitems, rfl, rfl⟩ := h
      rw [Value.refs, Value.refsAll_eq_flatMap,
        ← container_of_gridCells hcells]
      exact adds_of_cellRefs hitems

-- ============================================================== values

/-- Numbers are converted without touching the state. -/
theorem state_of_int {r : Except Error Int}
    (h : (do return Value.int (← ofExcept r) : Conversion Value).Runs s v
      s') : s' = s := by
  simp only [runs_bind, runs_ofExcept, runs_pure] at h
  obtain ⟨_, _, ⟨-, rfl⟩, -, rfl⟩ := h
  rfl

/-- The sub-fields of a structure are all among the items. -/
theorem adds_of_convertFields {record : String}
    {fields : List (String × DataType)}
    {bounds : List (String × FieldValue)} {items : List Value}
    (ih : ∀ f ∈ fields, ∀ {s s' v bound},
      (convert settings f.2 bound).Runs s v s' →
        s.container.Adds (Block.NamedBy v.refs) s'.container)
    (h : (convertFields settings record bounds fields).Runs s items s') :
    s.container.Adds (Block.NamedBy (items.flatMap Value.refs))
      s'.container := by
  induction fields generalizing s items with
  | nil =>
      obtain ⟨rfl, rfl⟩ := runs_pure.1 h
      exact .refl _ _
  | cons f fields ihfields =>
      obtain ⟨name, t⟩ := f
      simp only [convertFields, runs_bind, runs_inField, runs_pure] at h
      obtain ⟨bound, s₁, hbound, v, s₂, hv, rest, s₃, hrest, rfl, rfl⟩ := h
      obtain ⟨-, rfl⟩ := runs_subFieldValue.1 hbound
      rw [List.flatMap_cons]
      exact (ih (name, t) List.mem_cons_self hv).append
        (ihfields (fun f hf => ih f (List.mem_cons_of_mem _ hf)) hrest)

/-- Every block that a conversion adds is named by a reference inside the
value that it gives. -/
theorem adds_of_convert {t : DataType} {bound : FieldValue}
    (h : (convert settings t bound).Runs s v s') :
    s.container.Adds (Block.NamedBy v.refs) s'.container := by
  -- where the file is left alone any references will do; the other cases
  -- are the conversions of sprites, strings, rows and structures
  induction t using DataType.induction generalizing bound s v s' with
  | numeric n =>
      cases bound with
      | number k =>
          obtain rfl := state_of_int h
          exact .refl _ _
      | symbol text =>
          obtain rfl := state_of_int h
          exact .refl _ _
      | _ => simp [convert, unsuitable] at h
  | enumeration e =>
      cases bound with
      | symbol symbol =>
          obtain rfl := state_of_int h
          exact .refl _ _
      | _ => simp [convert, unsuitable] at h
  | bitSet b =>
      cases bound with
      | bits literal =>
          obtain rfl := state_of_int h
          exact .refl _ _
      | _ => simp [convert, unsuitable] at h
  | reference kind =>
      cases bound with
      | block r =>
          obtain ⟨-, rfl⟩ := runs_pure.1 h
          exact .refl _ _
      | number n =>
          rw [convert] at h
          obtain ⟨rfl, -⟩ := runs_blockNumber h
          exact .refl _ _
      | image region =>
          simp only [convert, runs_bind, runs_pure] at h
          obtain ⟨reference, s₁, hsprite, rfl, rfl⟩ := h
          exact adds_of_sprite hsprite
      | _ => simp [convert, unsuitable] at h
  | text =>
      cases bound with
      | block r =>
          obtain ⟨-, rfl⟩ := runs_pure.1 h
          exact .refl _ _
      | text strings =>
          simp only [convert, runs_bind, runs_ofValue, runs_addBlock,
            runs_pure] at h
          obtain ⟨block, _, ⟨hblock, rfl⟩, _, _, ⟨rfl, rfl⟩, rfl, rfl⟩ := h
          exact Container.adds_generated (.strings hblock) _
      | _ => simp [convert, unsuitable] at h
  | imageData =>
      cases bound with
      | image region =>
          simp only [convert, imageLines, runs_bind, runs_pure] at h
          obtain ⟨image, s₁, himage, -, rfl⟩ := h
          rw [container_of_encodeRegion himage]
          exact .refl _ _
      | _ => simp [convert, unsuitable] at h
  | list count element ih =>
      cases bound with
      | list bounds =>
          simp only [convert, runs_bind, runs_ofValue, runs_pure] at h
          obtain ⟨_, _, ⟨-, rfl⟩, items, s₁, hitems, rfl, rfl⟩ := h
          rw [Value.refs, Value.refsAll_eq_flatMap]
          exact adds_of_mapM (fun _ _ _ _ _ hitem => ih hitem) hitems
      | grid grid =>
          rw [convert] at h
          exact adds_of_listGrid h
      | _ => simp [convert, unsuitable] at h
  | struct name fields ih =>
      cases bound with
      | struct bounds =>
          simp only [convert, runs_bind, runs_pure] at h
          obtain ⟨items, s₁, hitems, rfl, rfl⟩ := h
          rw [Value.refs, Value.refsAll_eq_flatMap]
          exact adds_of_convertFields ih hitems
      | grid grid =>
          rw [convert] at h
          exact adds_of_structGrid h
      | _ => simp [convert, unsuitable] at h
  | raw => cases bound <;> simp [convert, unsuitable] at h

end Conversion

end GamePack
