import GamePack.Proofs.Compilation.Frame
import GamePack.Proofs.Compilation.Outputs
import GamePack.Proofs.Conversion.Additions

/-!
Where the blocks of a file come from. `Compiles` names the block that
each entry of an output is compiled to. All of these are in the file, and
every other block of it was generated on the way to one of them, which
refers to it: what the conversion of a field adds is named in its value,
no field loses its value again, and the block with these values is added
or is there already. References point backwards, so the block that refers
to a generated one stands behind it.
-/
namespace GamePack

variable {baseDir : Path} {schema : Schema} {spec : BlockSpec}
  {specs : List BlockSpec} {settings : ConversionSettings}
  {s s' : ConversionState} {fields : List Field} {block : Block}

/-- A generated block is one of a sprite or of strings. -/
theorem Block.IsGenerated.isSprite_or_isText (h : block.IsGenerated) :
    block.IsSprite ∨ block.IsText := by
  cases h with
  | sprite _ hblock =>
      obtain ⟨-, rfl⟩ := SpriteImage.toBlock_ok_iff.1 hblock
      exact .inl ⟨rfl, rfl⟩
  | strings hblock =>
      obtain ⟨_, -, rfl⟩ := Strings.toBlock_ok_iff.1 hblock
      exact .inr ⟨rfl, rfl⟩

/-- The references in the values of some fields of a block. -/
def Block.refsOf (b : Block) (names : List String) : List BlockRef :=
  names.flatMap fun name => ((b.get? name).map Value.refs).getD []

/-- The references of some of the fields are among those of the block. -/
theorem Block.refsOf_subset (b : Block) (names : List String) :
    b.refsOf names ⊆ b.refs := by
  intro r hr
  obtain ⟨name, -, hr⟩ := List.mem_flatMap.1 hr
  cases hvalue : b.get? name with
  | none => simp [hvalue] at hr
  | some v =>
      rw [hvalue, Option.map_some, Option.getD_some] at hr
      exact List.mem_flatMap.2 ⟨_, Dictionary.mem_of_find? hvalue, hr⟩

namespace Compiler

open Conversion

-- ============================================================== fields

/-- What is added for the fields of a block is named in their values, and
the values of other fields stay. -/
theorem adds_of_compileFields {block' : Block}
    (hnodup : (fields.map Field.name).Nodup)
    (h : (compileFields settings baseDir spec fields block).Runs s block'
      s') :
    s.container.Adds (Block.NamedBy (block'.refsOf (fields.map Field.name)))
        s'.container ∧
      ∀ name, name ∉ fields.map Field.name →
        block'.get? name = block.get? name := by
  induction fields generalizing block s with
  | nil =>
      obtain ⟨rfl, rfl⟩ := runs_pure.1 h
      exact ⟨.refl _ _, fun _ _ => rfl⟩
  | cons f fields ih =>
      obtain ⟨hfresh, hnodup⟩ := List.nodup_cons.1 hnodup
      unfold compileFields at h
      split at h
      · obtain ⟨hadds, hothers⟩ := ih hnodup h
        refine ⟨hadds.mono fun _ _ hb =>
          hb.mono (List.subset_append_right _ _), ?_⟩
        exact fun name hname =>
          hothers name fun hmem => hname (List.mem_cons_of_mem _ hmem)
      next binding _ =>
        simp only [runs_bind, runs_inField, runs_ofExcept,
          mapError_ok_iff] at h
        obtain ⟨v, s₁, hv, block₁, _, ⟨hset, rfl⟩, h⟩ := h
        simp only [compileValue, runs_bind, runs_ofExcept] at hv
        obtain ⟨bound, _, ⟨-, rfl⟩, hconvert⟩ := hv
        obtain ⟨-, rfl⟩ := Block.set_ok_iff.1 hset
        obtain ⟨hadds, hothers⟩ := ih hnodup h
        -- the later fields have other names and leave the value alone
        have hvalue : block'.get? f.name = some v := by
          rw [hothers _ hfresh]
          exact Dictionary.find?_insert_self _ v block.values
        have hrefs : block'.refsOf ((f :: fields).map Field.name) =
            v.refs ++ block'.refsOf (fields.map Field.name) := by
          rw [Block.refsOf, List.map_cons, List.flatMap_cons, hvalue]
          rfl
        rw [hrefs]
        refine ⟨(adds_of_convert hconvert).append hadds, ?_⟩
        intro name hname
        rw [List.map_cons, List.mem_cons, not_or] at hname
        rw [hothers name hname.2]
        exact Dictionary.find?_insert_of_ne hname.1 v block.values

/-- What is added on the way to a block is named in the block. -/
theorem adds_of_compileBlock
    (h : (compileBlock schema settings baseDir spec).Runs s block s') :
    s.container.Adds (Block.NamedBy block.refs) s'.container := by
  simp only [compileBlock, runs_bind, runs_ofExcept, mapError_ok_iff] at h
  obtain ⟨fields, _, ⟨hresolve, rfl⟩, _, s₁, hcheck, hfields⟩ := h
  obtain ⟨hsame, -⟩ := bound_of_checkBlock hcheck
  obtain ⟨hadds, -⟩ := adds_of_compileFields
    (Schema.nodup_of_resolve hresolve) hfields
  rw [← hsame]
  exact hadds.mono fun _ _ hb => hb.mono (block.refsOf_subset _)

-- ============================================================== blocks

/-- The blocks that a row of entries is compiled to, each from the state
that the earlier ones leave with their blocks added. -/
inductive Compiles (schema : Schema) (settings : ConversionSettings)
    (baseDir : Path) : List BlockSpec → ConversionState → List Block →
      ConversionState → Prop where
  | done (s : ConversionState) : Compiles schema settings baseDir [] s [] s
  | step {spec : BlockSpec} {specs : List BlockSpec}
      {s s₁ s' : ConversionState} {block : Block} {blocks : List Block}
      (hblock : (compileBlock schema settings baseDir spec).Runs s block s₁)
      (hrest : Compiles schema settings baseDir specs
        { s₁ with
          container := (s₁.container.addBlock (some block)).2 } blocks s') :
      Compiles schema settings baseDir (spec :: specs) s (block :: blocks)
        s'

/-- The entries of an output are compiled to blocks one by one. -/
theorem runs_compileBlocks_iff :
    (compileBlocks schema settings baseDir specs).Runs s ⟨⟩ s' ↔
      ∃ blocks, Compiles schema settings baseDir specs s blocks s' := by
  induction specs generalizing s with
  | nil =>
      constructor
      · intro h
        obtain ⟨-, rfl⟩ := runs_pure.1 h
        exact ⟨[], .done s'⟩
      · rintro ⟨_, h⟩
        cases h
        exact runs_pure.2 ⟨rfl, rfl⟩
  | cons spec specs ih =>
      rw [compileBlocks, List.forM_eq_forM, List.forM_cons]
      simp only [runs_bind, runs_addBlock, runs_pure]
      constructor
      · rintro ⟨_, _, ⟨block, s₁, hblock, _, _, ⟨rfl, rfl⟩, -, rfl⟩, hrest⟩
        obtain ⟨blocks, hblocks⟩ := ih.1 hrest
        exact ⟨block :: blocks, .step hblock hblocks⟩
      · rintro ⟨_, h⟩
        cases h with
        | step hblock hrest =>
            exact ⟨⟨⟩, _, ⟨_, _, hblock, _, _, ⟨rfl, rfl⟩, trivial, rfl⟩,
              ih.2 ⟨_, hrest⟩⟩

namespace Compiles

variable {blocks : List Block}

/-- There is one block for each entry, of the kind that it asks for. -/
theorem kinds (h : Compiles schema settings baseDir specs s blocks s') :
    List.Forall₂ (fun (spec : BlockSpec) (b : Block) =>
      b.magic = spec.magic ∧ b.version = spec.version) specs blocks := by
  induction h with
  | done s => exact .nil
  | step hblock _ ih => exact .cons (kind_of_compileBlock hblock) ih

/-- The blocks of entries are added, or are there already, and stay. -/
theorem mem (h : Compiles schema settings baseDir specs s blocks s') :
    s.container.blocks <+: s'.container.blocks ∧
      ∀ b ∈ blocks, b ∈ s'.container.blocks := by
  induction h with
  | done s => exact ⟨List.prefix_rfl, fun b hb => absurd hb List.not_mem_nil⟩
  | @step spec specs s s₁ s' block blocks hblock _ ih =>
      obtain ⟨hkeeps, hmem⟩ := ih
      have hadds := (adds_of_compileBlock hblock).keeps
      have hadd := Container.keeps_addBlock s₁.container (some block)
      refine ⟨(hadds.trans hadd).trans hkeeps,
        List.forall_mem_cons.2 ⟨?_, hmem⟩⟩
      obtain ⟨i, hi, -⟩ := Container.exists_addBlock s₁.container block
      exact hkeeps.subset (List.mem_of_getElem? hi)

/-- A block that comes up is that of an entry, or is named by a reference
in the block of an entry. -/
theorem adds (h : Compiles schema settings baseDir specs s blocks s') :
    s.container.Adds
      (fun i b => b ∈ blocks ∨ ∃ user ∈ blocks, b.NamedBy user.refs i)
      s'.container := by
  induction h with
  | done s => exact .refl _ _
  | @step spec specs s s₁ s' block blocks hblock _ ih =>
      -- what comes up on the way, the block itself, and the later blocks
      have hway := (adds_of_compileBlock hblock).mono fun i b hb =>
        show b ∈ block :: blocks ∨
          ∃ user ∈ block :: blocks, b.NamedBy user.refs i from
        .inr ⟨block, List.mem_cons_self, hb⟩
      refine (hway.trans (Container.adds_addBlock fun _ =>
        .inl List.mem_cons_self)).trans (ih.mono ?_)
      rintro i b (hb | ⟨user, huser, hb⟩)
      · exact .inl (List.mem_cons_of_mem _ hb)
      · exact .inr ⟨user, List.mem_cons_of_mem _ huser, hb⟩

end Compiles

-- ============================================================= outputs

variable {c : Compiler} {load : Path → Except Error Bitmap}
  {output : OutputSpec} {file : CompiledFile}

/-- Each entry of a compiled output is compiled to one block of its kind,
and this block is in the file. Each other block of the file was
generated, for a sprite or for strings, and a block behind it refers to
it. -/
theorem origins_of_compileOutput
    (h : (c.compileOutput load baseDir output).1 = .ok file)
    (hsize : file.container.size < 0x100000000) :
    ∃ asked s', Compiles c.schema (c.settingsOf load output) baseDir
        output.blocks { sheets := c.sheets, diagnostics := c.diagnostics }
        asked s' ∧ file.container = s'.container ∧
      List.Forall₂ (fun (spec : BlockSpec) (b : Block) =>
        b.magic = spec.magic ∧ b.version = spec.version)
        output.blocks asked ∧
      (∀ b ∈ asked, b ∈ file.container.blocks) ∧
      ∀ (i : Nat) (b : Block), file.container.blocks[i]? = some b →
        b ∈ asked ∨ b.IsGenerated ∧ (b.IsSprite ∨ b.IsText) ∧
          ∃ j, i < j ∧ RefersTo file.container j i := by
  obtain ⟨s', hrun, hsame⟩ := runs_of_compileOutput h
  obtain ⟨asked, hasked⟩ := runs_compileBlocks_iff.1 hrun
  obtain ⟨-, hmem⟩ := hasked.mem
  have hsound := (sound_of_compileOutput h).1
  rw [hsame] at hsize hsound ⊢
  refine ⟨asked, s', hasked, rfl, hasked.kinds, hmem, fun i b hb => ?_⟩
  obtain ⟨hlt, -⟩ := List.getElem?_eq_some_iff.1 hb
  rcases hasked.adds.added i b (Nat.zero_le i) hb with
    hentry | ⟨user, huser, hnamed⟩
  · exact .inl hentry
  · obtain ⟨hgenerated, r, hr, hnumber⟩ :=
      hnamed (Nat.lt_of_le_of_lt hlt hsize)
    -- the block of the entry stands somewhere, behind what it refers to
    obtain ⟨j, hj⟩ := List.mem_iff_getElem?.1 (hmem user huser)
    have hle := (hsound j user hj).le_length_of_mem_refs hr
    rw [List.length_take] at hle
    exact .inr ⟨hgenerated, hgenerated.isSprite_or_isText, j, by omega,
      user, r, hj, hr, hnumber⟩

/-- In the small output both entries are compiled to the same kind of
block, and one of these refers to the sprite in front. -/
theorem origins_of_compileOutput_icons :
    (iconCompiler.compileOutput clearSheet ⟨"."⟩ iconOutput).1 =
      .ok iconFile ∧ iconFile.container.size < 0x100000000 ∧
    ∃ asked : List Block, asked.length = 2 ∧
      (∀ b ∈ asked, b ∈ iconFile.container.blocks) ∧
      ∃ j, 0 < j ∧ RefersTo iconFile.container j 0 := by
  have hsize : iconFile.container.size < 0x100000000 := by decide
  obtain ⟨asked, s', -, -, hkinds, hmem, horigin⟩ :=
    origins_of_compileOutput compileOutput_iconOutput hsize
  refine ⟨compileOutput_iconOutput, hsize, asked, hkinds.length_eq.symm,
    hmem, ?_⟩
  rcases horigin 0 _ rfl with hentry | ⟨-, -, hrefers⟩
  · -- no entry asks for a sprite
    obtain ⟨spec, hspec, hmagic, -⟩ :=
      exists_mem_of_forall₂ hkinds.flip hentry
    simp only [iconOutput, List.mem_cons, List.not_mem_nil,
      or_false] at hspec
    rcases hspec with rfl | rfl <;> exact absurd hmagic (by decide)
  · exact hrefers

end Compiler

end GamePack
