import GamePack.Proofs.Compilation.Blocks
import GamePack.Proofs.Sprite.Picture

/-!
What holds of every compiled output. Its container is sound, so it is
written unless it is too large, its references point backwards, and text
fields name texts. Sprite fields name sprites exactly as far as the block
numbers that the data gives for them do: conversion checks that such a
number names a block, but not which kind of block it is.
-/
namespace GamePack

/-- The block numbers that an output gives for sprites. -/
def OutputSpec.spriteNumbers (schema : Schema) (baseDir : Path)
    (output : OutputSpec) : List Int :=
  output.blocks.flatMap fun spec => spec.spriteNumbers schema baseDir

namespace Compiler

variable {baseDir : Path}

/-- The container of a compiled output is left by a run over its
blocks. -/
theorem runs_of_compileOutput {c : Compiler}
    {load : Path → Except Error Bitmap} {output : OutputSpec}
    {file : CompiledFile}
    (h : (c.compileOutput load baseDir output).1 = .ok file) :
    ∃ s', (compileBlocks c.schema (c.settingsOf load output) baseDir
        output.blocks).Runs
      { sheets := c.sheets, diagnostics := c.diagnostics } ⟨⟩ s' ∧
        file.container = s'.container := by
  unfold compileOutput at h
  rcases hrun : (compileBlocks c.schema (c.settingsOf load output) baseDir
    output.blocks).outcome
      { sheets := c.sheets, diagnostics := c.diagnostics } with ⟨r, s'⟩
  unfold Conversion.outcome at hrun
  simp only [hrun] at h
  cases r with
  | error e => cases h
  | ok u =>
      obtain rfl := Except.ok.inj h
      exact ⟨s', hrun, rfl⟩

/-- The container of a compiled output is sound, where the numbers that
the output gives for sprites are the given ones, and each of these is
among the references of its blocks. -/
theorem sound_of_compileOutput {c : Compiler}
    {load : Path → Except Error Bitmap} {output : OutputSpec}
    {file : CompiledFile}
    (h : (c.compileOutput load baseDir output).1 = .ok file) :
    file.container.IsSound
        (· ∈ output.spriteNumbers c.schema baseDir) ∧
      ∀ n ∈ output.spriteNumbers c.schema baseDir, n ≠ 0 →
        ∃ b ∈ file.container.blocks, ∃ r,
          (.reference .sprite, r) ∈ b.refsIn ∧ (r.number : Int) = n := by
  obtain ⟨s', hrun, hsame⟩ := runs_of_compileOutput h
  have hgiven : ∀ spec ∈ output.blocks,
      ∀ n ∈ spec.spriteNumbers c.schema baseDir,
        n ∈ output.spriteNumbers c.schema baseDir :=
    fun spec hspec n hn => List.mem_flatMap.2 ⟨spec, hspec, hn⟩
  obtain ⟨hgrow, hnumbers⟩ := grows_of_compileBlocks hgiven hrun
  rw [hsame]
  refine ⟨hgrow.sound (Container.isSound_empty _), fun n hn hne => ?_⟩
  obtain ⟨spec, hspec, hn⟩ := List.mem_flatMap.1 hn
  exact hnumbers spec hspec n hn hne

-- ====================================================== a small output

/-- A kind of block with one sprite field. -/
def iconDef : BlockDef where
  magic := ⟨[0x49, 0x43, 0x4f, 0x4e], rfl, by decide⟩
  minVersion := 1
  maxVersion := 1
  fields := [{ name := "icon", type := .reference .sprite }]

/-- A compiler for blocks of this kind. -/
def iconCompiler : Compiler where
  schema := ⟨Registry.builtin, [(iconDef.magic.text, iconDef)]⟩

/-- A block of this kind. -/
def iconBlock (icon : Option BlockRef) : Block where
  magic := iconDef.magic
  version := 1
  fields := [("icon", .reference .sprite)]
  values := [("icon", .ref icon)]

/-- What a data file asks for with a block of this kind. -/
def iconSpec (icon : Yaml.Value) : BlockSpec :=
  ⟨iconDef.magic, 1, [("icon", icon)]⟩

/-- The number of the first block. -/
def firstRef : BlockRef := ⟨1, by decide, by decide⟩

/-- Every sheet is one transparent pixel. -/
def clearSheet (_ : Path) : Except Error Bitmap := .ok (.filled 1 1 0)

/-- Two blocks: the icon of the first is a region of a sheet, that of the
second is given by the number of the sprite made of the region. -/
def iconOutput : OutputSpec where
  target := ⟨"icons.rcd"⟩
  emptySprites := some .blank
  blocks := [
    iconSpec (.mapping [(.string "sheet", .string "clear.png")]),
    iconSpec (.int 1)]

/-- The two blocks are equal, so only one stands behind the sprite. -/
def iconFile : CompiledFile where
  target := ⟨"./icons.rcd"⟩
  container := ⟨[(SpriteImage.blankOf ⟨0, 0, 1, 1, 0, 0⟩).blockOf,
    iconBlock (some firstRef)]⟩
  sprites := [⟨⟨"./clear.png"⟩, 1, 1, 0, 0, some firstRef⟩]

theorem compileOutput_iconOutput :
    (iconCompiler.compileOutput clearSheet ⟨"."⟩ iconOutput).1 =
      .ok iconFile := rfl

-- ============================================================= writing

/-- A container that a compiled output leaves is refused only because
something is too large for its word. Every block has a size, and the
container is written exactly when every size fits a word. -/
theorem toBytes_of_compileOutput {c : Compiler}
    {load : Path → Except Error Bitmap} {output : OutputSpec}
    {file : CompiledFile}
    (h : (c.compileOutput load baseDir output).1 = .ok file) :
    (∀ e, file.container.toBytes = .error e →
      ∃ what size, e = .consistency (.tooLarge what size) ∧
        0x100000000 ≤ size) ∧
    (∀ b ∈ file.container.blocks, ∃ size, b.payloadSize = .ok size) ∧
    ((∃ bytes, file.container.toBytes = .ok bytes) ↔
      ∀ b ∈ file.container.blocks, ∀ size,
        b.payloadSize = .ok size → size < 0x100000000) := by
  have hcomplete : ∀ b ∈ file.container.blocks, b.IsComplete := by
    intro b hb
    obtain ⟨i, hi⟩ := List.mem_iff_getElem?.1 hb
    exact ((sound_of_compileOutput h).1 i b hi).complete
  refine ⟨fun e he => Container.toBytes_error hcomplete he,
    fun b hb => (hcomplete b hb).writes.sized, ?_⟩
  rw [Container.exists_toBytes_iff hcomplete]
  constructor
  · intro hfits b hb size hsize
    obtain ⟨size', hsize', hlt⟩ := hfits b hb
    obtain rfl : size = size' := Except.ok.inj (hsize.symm.trans hsize')
    exact hlt
  · intro hfits b hb
    obtain ⟨size, hsize⟩ := (hcomplete b hb).writes.sized
    exact ⟨size, hsize, hfits b hb size hsize⟩

/-- The blocks of the small output have 12 and 4 bytes and are
written. -/
theorem toBytes_of_compileOutput_icons :
    (iconCompiler.compileOutput clearSheet ⟨"."⟩ iconOutput).1 =
      .ok iconFile ∧
    ∃ bytes, iconFile.container.toBytes = .ok bytes := by
  refine ⟨rfl, ?_⟩
  obtain ⟨-, -, hwritten⟩ :=
    toBytes_of_compileOutput compileOutput_iconOutput
  apply hwritten.2
  intro b hb size hsize
  simp only [iconFile, List.mem_cons, List.not_mem_nil, or_false] at hb
  rcases hb with rfl | rfl
  · obtain rfl : 12 = size := Except.ok.inj hsize
    decide
  · obtain rfl : 4 = size := Except.ok.inj hsize
    decide

-- ========================================================== references

/-- One block of a container refers to another, by their places. -/
def RefersTo (c : Container) (i j : Nat) : Prop :=
  ∃ b r, c.blocks[i]? = some b ∧ r ∈ b.refs ∧ r.number = j + 1

/-- References in a compiled output name blocks in front of the one that
holds them. So no chain of references leads from a block to itself. -/
theorem refs_backwards_of_compileOutput {c : Compiler}
    {load : Path → Except Error Bitmap} {output : OutputSpec}
    {file : CompiledFile}
    (h : (c.compileOutput load baseDir output).1 = .ok file) :
    (∀ (i : Nat) (b : Block), file.container.blocks[i]? = some b →
      ∀ r ∈ b.refs, r.number ≤ i ∧
        ∃ target, file.container.get? r = some target) ∧
    ∀ i, ¬ Relation.TransGen (RefersTo file.container) i i := by
  have hsound := (sound_of_compileOutput h).1
  have hback : ∀ (i : Nat) (b : Block),
      file.container.blocks[i]? = some b → ∀ r ∈ b.refs, r.number ≤ i := by
    intro i b hb r hr
    have hle := (hsound i b hb).le_length_of_mem_refs hr
    rw [List.length_take] at hle
    omega
  refine ⟨fun i b hb r hr => ⟨hback i b hb r hr, ?_⟩, fun i hcycle => ?_⟩
  · obtain ⟨hlt, -⟩ := List.getElem?_eq_some_iff.1 hb
    have hle := hback i b hb r hr
    have hplace : r.number - 1 < file.container.blocks.length := by omega
    exact ⟨_, List.getElem?_eq_getElem hplace⟩
  · have hdown : ∀ {i j}, RefersTo file.container i j → j < i := by
      rintro i j ⟨b, r, hb, hr, hnumber⟩
      have := hback i b hb r hr
      omega
    -- every step of a chain goes down, so the whole chain does
    have hlt : ∀ j, Relation.TransGen (RefersTo file.container) i j →
        j < i := by
      intro j hj
      induction hj with
      | single hstep => exact hdown hstep
      | tail _ hstep ih => exact Nat.lt_trans (hdown hstep) ih
    exact Nat.lt_irrefl i (hlt i hcycle)

/-- The block behind the sprite refers to the sprite. -/
theorem refs_backwards_of_compileOutput_icons :
    (iconCompiler.compileOutput clearSheet ⟨"."⟩ iconOutput).1 =
      .ok iconFile ∧
    firstRef ∈ (iconBlock (some firstRef)).refs ∧
    firstRef.number ≤ 1 := by
  have hmem : firstRef ∈ (iconBlock (some firstRef)).refs := by decide
  obtain ⟨hback, -⟩ :=
    refs_backwards_of_compileOutput compileOutput_iconOutput
  exact ⟨rfl, hmem, (hback 1 _ rfl firstRef hmem).1⟩

/-- In a compiled output the references in text fields name localized
strings. Those in sprite fields name sprites exactly when every block
number that the data gives for a sprite does, unless it is zero. -/
theorem kinds_of_compileOutput {c : Compiler}
    {load : Path → Except Error Bitmap} {output : OutputSpec}
    {file : CompiledFile}
    (h : (c.compileOutput load baseDir output).1 = .ok file) :
    (∀ b ∈ file.container.blocks, ∀ r, (.text, r) ∈ b.refsIn →
      NamesBlock Block.IsText file.container.blocks r.number) ∧
    ((∀ b ∈ file.container.blocks, ∀ r,
        (.reference .sprite, r) ∈ b.refsIn →
          NamesBlock Block.IsSprite file.container.blocks r.number) ↔
      ∀ n ∈ output.spriteNumbers c.schema baseDir, n ≠ 0 →
        NamesBlock Block.IsSprite file.container.blocks n.toNat) := by
  obtain ⟨hsound, hnumbers⟩ := sound_of_compileOutput h
  have hnames : ∀ b ∈ file.container.blocks, ∀ k r, (k, r) ∈ b.refsIn →
      Names (· ∈ output.spriteNumbers c.schema baseDir)
        file.container.blocks k r := by
    intro b hb k r hr
    obtain ⟨i, hi⟩ := List.mem_iff_getElem?.1 hb
    exact ((hsound i b hi).names_of_mem_refsIn hr).mono
      (List.take_prefix _ _) fun _ hn => hn
  refine ⟨fun b hb r hr => (hnames b hb _ r hr).text rfl, ?_, ?_⟩
  · intro hall n hn hne
    obtain ⟨b, hb, r, hr, rfl⟩ := hnumbers n hn hne
    exact hall b hb r hr
  · intro hgiven b hb r hr
    rcases (hnames b hb _ r hr).sprite rfl with hsprite | hnumber
    · exact hsprite
    · have hpos := r.pos
      exact hgiven r.number hnumber (by omega)

/-- The number that the small output gives for a sprite names one, so
all references in its sprite fields do. -/
theorem kinds_of_compileOutput_icons :
    (iconCompiler.compileOutput clearSheet ⟨"."⟩ iconOutput).1 =
      .ok iconFile ∧
    ∀ b ∈ iconFile.container.blocks, ∀ r,
      (.reference .sprite, r) ∈ b.refsIn →
        NamesBlock Block.IsSprite iconFile.container.blocks r.number := by
  refine ⟨rfl, ?_⟩
  obtain ⟨-, hkinds⟩ := kinds_of_compileOutput compileOutput_iconOutput
  apply hkinds.2
  intro n hn _
  have hnumbers :
      iconOutput.spriteNumbers iconCompiler.schema ⟨"."⟩ = [1] := rfl
  rw [hnumbers, List.mem_singleton] at hn
  subst hn
  exact ⟨_, rfl, rfl, rfl⟩

/-- Two blocks of which the second gives the number of the first for its
sprite. -/
def bareOutput : OutputSpec where
  target := ⟨"icons.rcd"⟩
  blocks := [iconSpec .null, iconSpec (.int 1)]

/-- The output is compiled, though the block that is named for a sprite
is none. -/
theorem compileOutput_bareOutput_sprite :
    ∃ file, (iconCompiler.compileOutput clearSheet ⟨"."⟩ bareOutput).1 =
        .ok file ∧
      ∃ b ∈ file.container.blocks, ∃ r,
        (.reference .sprite, r) ∈ b.refsIn ∧
          ¬ NamesBlock Block.IsSprite file.container.blocks r.number := by
  refine ⟨⟨⟨"./icons.rcd"⟩,
    ⟨[iconBlock none, iconBlock (some firstRef)]⟩, []⟩, rfl,
    iconBlock (some firstRef), by simp, firstRef, by decide, ?_⟩
  rintro ⟨b, hb, hmagic, -⟩
  obtain rfl : iconBlock none = b := Option.some.inj hb
  revert hmagic
  decide

end Compiler

end GamePack
