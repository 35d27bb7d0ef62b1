import GamePack.Proofs.Compilation.Frame
import GamePack.Proofs.Compilation.Outputs
import GamePack.Proofs.Container.Listing
import GamePack.Proofs.Schema.Loading
import GamePack.Proofs.Sprite.Fidelity

/-!
Listing what was compiled. Every block of a compiled output was made by
a conversion or is asked for by the data, in a version that the schema
supports. The payload of a sprite that was made is read back, so the
listing can fail only for a block that the data asks for under the magic
and the version of sprites: the fields of such a block are what the
schema says, and need not be those of a sprite.
-/
namespace GamePack

variable {b : Block} {payload : Bytes}

-- ==================================================== generated blocks

/-- The payload of a sprite that was made is read back. -/
theorem Block.IsGenerated.holdsImage (h : b.IsGenerated)
    (hsprite : b.IsSprite) (hpayload : b.payload = .ok payload) :
    b.HoldsImage := by
  cases h with
  | sprite hencode hblock =>
      obtain ⟨_, hbounds, -⟩ := bind_eq_ok.1 hencode
      obtain ⟨rows, hdepicts, -⟩ :=
        SpriteImage.depicts_of_encode (mapError_ok_iff.1 hbounds) hencode
      exact ⟨payload, _, hpayload, hdepicts.fromPayload_eq hblock hpayload⟩
  | strings hblock =>
      obtain ⟨_, -, rfl⟩ := Strings.toBlock_ok_iff.1 hblock
      have hne : Magic.strings ≠ Magic.sprite := by decide
      exact absurd hsprite.1 hne

/-- The version of a block that conversion makes is a constant of few
bits. -/
theorem Block.IsGenerated.isWord_version (h : b.IsGenerated) :
    b.version < 0x100000000 := by
  cases h with
  | sprite _ hblock =>
      obtain ⟨-, rfl⟩ := SpriteImage.toBlock_ok_iff.1 hblock
      show spriteVersion < _
      decide
  | strings hblock =>
      obtain ⟨_, -, rfl⟩ := Strings.toBlock_ok_iff.1 hblock
      show Strings.blockVersion < _
      decide

namespace Compiler

open Conversion

variable {schema : Schema} {settings : ConversionSettings}
  {baseDir : Path} {specs : List BlockSpec} {s s' : ConversionState}

-- ============================================================== origin

/-- Blocks that come up were made by a conversion or are asked for. -/
theorem frame_of_origin (schema : Schema) (settings : ConversionSettings)
    (specs : List BlockSpec) :
    Frame schema (Asks specs) settings
      (fun s s' => ∀ b ∈ s'.container.blocks,
        b ∈ s.container.blocks ∨ b.IsGenerated ∨ Asks specs b)
      (fun _ => True) where
  refl := fun _ _ hb => .inl hb
  trans := by
    intro s s' s'' h h' b hb
    rcases h' b hb with hb | horigin
    · exact h b hb
    · exact .inr horigin
  sheet := fun _ _ _ _ _ _ hb => .inl hb
  report := fun _ _ _ hb => .inl hb
  sprite := fun _ _ _ hb => .inl hb
  block := by
    intro s block hblock b hb
    rcases Container.mem_of_mem_addBlock hb with rfl | hb
    · exact .inr (.inl hblock)
    · exact .inl hb
  asks := by
    intro s block hblock b hb
    rcases Container.mem_of_mem_addBlock hb with rfl | hb
    · exact .inr (.inr hblock)
    · exact .inl hb
  load := fun _ _ _ => trivial
  value := fun _ => trivial
  panic := fun _ => trivial
  field := fun _ _ _ _ => trivial
  resolve := fun _ _ _ _ => trivial
  document := fun _ => trivial
  consistency := fun _ => trivial
  validation := fun _ => trivial

/-- The versions of the blocks that are asked for resolve. -/
theorem resolves_of_compileBlocks
    (h : (compileBlocks schema settings baseDir specs).Runs s ⟨⟩ s') :
    ∀ spec ∈ specs, ∃ fields,
      schema.resolve spec.magic spec.version = .ok fields := by
  induction specs generalizing s with
  | nil => exact fun spec hspec => absurd hspec List.not_mem_nil
  | cons spec specs ih =>
      rw [compileBlocks, List.forM_eq_forM, List.forM_cons] at h
      obtain ⟨_, _, hfirst, hrest⟩ := runs_bind.1 h
      simp only [compileBlock, runs_bind, runs_ofExcept,
        mapError_ok_iff] at hfirst
      obtain ⟨_, _, ⟨fields, _, ⟨hresolve, -⟩, -⟩, -⟩ := hfirst
      exact List.forall_mem_cons.2 ⟨⟨fields, hresolve⟩, ih hrest⟩

variable {c : Compiler} {load : Path → Except Error Bitmap}
  {output : OutputSpec} {file : CompiledFile}

/-- Every block of a compiled output was made by a conversion or is asked
for in a version that resolves. -/
theorem origin_of_compileOutput
    (h : (c.compileOutput load baseDir output).1 = .ok file) :
    ∀ b ∈ file.container.blocks, b.IsGenerated ∨
      Asks output.blocks b ∧ ∃ fields,
        c.schema.resolve b.magic b.version = .ok fields := by
  obtain ⟨s', hruns, hfile⟩ := runs_of_compileOutput h
  rw [hfile]
  intro b hb
  have hkeeps := (frame_of_origin c.schema (c.settingsOf load output)
    output.blocks).keeps_compileBlocks baseDir
  have hstate := (hkeeps
    { sheets := c.sheets, diagnostics := c.diagnostics }).1
  rw [hruns] at hstate
  rcases hstate b hb with hb | hgenerated | hasks
  · exact absurd hb List.not_mem_nil
  · exact .inl hgenerated
  · refine .inr ⟨hasks, ?_⟩
    obtain ⟨spec, hspec, hmagic, hversion⟩ := hasks
    rw [hmagic, hversion]
    exact resolves_of_compileBlocks hruns spec hspec

-- ============================================================= listing

/-- The blocks of a compiled output have versions that are words. -/
theorem isWord_of_compileOutput (hloaded : c.schema.IsLoaded)
    (h : (c.compileOutput load baseDir output).1 = .ok file) :
    ∀ b ∈ file.container.blocks, b.version < 0x100000000 := by
  intro b hb
  rcases origin_of_compileOutput h b hb with
    hgenerated | ⟨-, fields, hresolve⟩
  · exact hgenerated.isWord_version
  · exact (hloaded.of_resolve hresolve).1

/-- The sprites of a compiled output hold images as far as those that the
data asks for do. -/
theorem holdsImage_iff_of_compileOutput
    (h : (c.compileOutput load baseDir output).1 = .ok file)
    (hpayloads : ∀ b ∈ file.container.blocks, ∃ payload,
      b.payload = .ok payload) :
    (∀ b ∈ file.container.blocks, b.IsSprite → b.HoldsImage) ↔
      ∀ b ∈ file.container.blocks, b.IsSprite → Asks output.blocks b →
        b.HoldsImage := by
  constructor
  · exact fun hall b hb hsprite _ => hall b hb hsprite
  · intro hall b hb hsprite
    rcases origin_of_compileOutput h b hb with hgenerated | ⟨hasks, -⟩
    · obtain ⟨payload, hpayload⟩ := hpayloads b hb
      exact hgenerated.holdsImage hsprite hpayload
    · exact hall b hb hsprite hasks

/-- Data asks for sprites only if the schema supports their version. -/
theorem not_asks_of_supports (hloaded : c.schema.IsLoaded)
    (h : (c.compileOutput load baseDir output).1 = .ok file)
    (hnone : ∀ d, c.schema.block? .sprite = some d →
      d.supports spriteVersion = false)
    (hsprite : b.IsSprite) : ¬ Asks output.blocks b := by
  rintro ⟨spec, hspec, hmagic, hversion⟩
  -- what is asked for was resolved before it was compiled
  obtain ⟨s', hruns, -⟩ := runs_of_compileOutput h
  obtain ⟨fields, hresolve⟩ := resolves_of_compileBlocks hruns spec hspec
  obtain ⟨-, d, hd, hsupports⟩ := hloaded.of_resolve hresolve
  rw [← hmagic, hsprite.1] at hd
  rw [← hversion, hsprite.2, hnone d hd] at hsupports
  cases hsupports

/-- What a compiled output writes is parsed into its blocks. It is listed
exactly when every block that the data asks for under the magic and the
version of sprites has the payload of one, so always if the schema does
not support that version; and the listing says of each block what is
stored. -/
theorem summarize_of_compileOutput {text : String} {bytes : Bytes}
    (hschema : Schema.parse text = .ok c.schema)
    (h : (c.compileOutput load baseDir output).1 = .ok file)
    (hbytes : file.container.toBytes = .ok bytes) :
    ∃ stored, StoredFile.parse bytes = .ok stored ∧
      List.Forall₂ Block.IsStoredAs file.container.blocks stored.blocks ∧
      ((∃ summaries, stored.summarize = .ok summaries) ↔
        ∀ b ∈ file.container.blocks, b.IsSprite → Asks output.blocks b →
          b.HoldsImage) ∧
      ((∀ d, c.schema.block? .sprite = some d →
          d.supports spriteVersion = false) →
        ∃ summaries, stored.summarize = .ok summaries) ∧
      ∀ summaries, stored.summarize = .ok summaries →
        summaries = stored.listed := by
  have hloaded := Schema.isLoaded_of_parse hschema
  obtain ⟨stored, hparse, hstored⟩ := Container.exists_parse_of_words
    (isWord_of_compileOutput hloaded h) hbytes
  have hpayloads : ∀ b ∈ file.container.blocks, ∃ payload,
      b.payload = .ok payload := by
    intro b hb
    obtain ⟨s, -, hs⟩ := exists_mem_of_forall₂ hstored hb
    exact ⟨s.payload, hs.payload⟩
  have hlisted := (StoredFile.exists_summarize_iff hstored).trans
    (holdsImage_iff_of_compileOutput h hpayloads)
  refine ⟨stored, hparse, hstored, hlisted, ?_, ?_⟩
  · intro hnone
    rw [hlisted]
    intro b _ hsprite hasks
    exact absurd hasks (not_asks_of_supports hloaded h hnone hsprite)
  · intro summaries hsummaries
    exact (StoredFile.summarize_ok_iff.1 hsummaries).2

/-- A schema with blocks of one sprite field. -/
def iconText : String :=
  "blocks: [\x7bmagic: ICON, minversion: 1, maxversion: 1, " ++
    "fields: [\x7bname: icon, type: sprite\x7d]\x7d]"

/-- The text is the schema that its compiler works with. -/
theorem parse_iconText :
    Schema.parse iconText = .ok iconCompiler.schema :=
  Schema.parse_eq_of_parts (by decide +kernel)

/-- The sprite of the small output is listed with its size, the block
that refers to it without one. -/
theorem summarize_of_compileOutput_icons :
    Schema.parse iconText = .ok iconCompiler.schema ∧
      (iconCompiler.compileOutput clearSheet ⟨"."⟩ iconOutput).1 =
        .ok iconFile ∧
      ∃ bytes stored summaries,
        iconFile.container.toBytes = .ok bytes ∧
        StoredFile.parse bytes = .ok stored ∧
        stored.summarize = .ok summaries ∧
        summaries.map BlockSummary.sprite = [some ⟨1, 1, 0, 0⟩, none] := by
  obtain ⟨bytes, hbytes⟩ :
      ∃ bytes, iconFile.container.toBytes = .ok bytes := ⟨_, rfl⟩
  obtain ⟨stored, hparse, hstored, -, hlisted, hsummaries⟩ :=
    summarize_of_compileOutput parse_iconText compileOutput_iconOutput
      hbytes
  have hnone : iconCompiler.schema.block? .sprite = none := by decide
  obtain ⟨summaries, hsummarize⟩ := hlisted fun d hd => by
    rw [hnone] at hd
    cases hd
  refine ⟨parse_iconText, compileOutput_iconOutput, bytes, stored,
    summaries, hbytes, hparse, hsummarize, ?_⟩
  obtain ⟨first, _, ⟨hmagic, hversion, hpayload⟩, hrest, hfile⟩ :=
    List.forall₂_cons_left_iff.1 hstored
  obtain ⟨second, _, ⟨hmagic', -, -⟩, hnil, rfl⟩ :=
    List.forall₂_cons_left_iff.1 hrest
  rw [List.forall₂_nil_left_iff] at hnil
  rw [hsummaries summaries hsummarize, StoredFile.listed, hfile, hnil]
  have hfirst : (SpriteImage.blankOf ⟨0, 0, 1, 1, 0, 0⟩).blockOf.payload =
      .ok [1, 0, 1, 0, 0, 0, 0, 0, 0, 0, 0, 0] := by rfl
  rw [hfirst, Except.ok.injEq] at hpayload
  have hsprite : first.isSprite = true := by
    rw [StoredBlock.isSprite, hmagic, hversion]
    decide
  have hother : second.isSprite = false := by
    rw [StoredBlock.isSprite, hmagic', Bool.and_eq_false_iff]
    exact .inl (by decide)
  simp only [List.zipIdx_cons, List.zipIdx_nil, List.map_cons,
    List.map_nil, StoredBlock.listed, hsprite, hother, ← hpayload]
  rfl

/-- A schema with blocks that have the magic and the version of sprites,
but no image data. -/
def plainText : String :=
  "blocks: [\x7bmagic: 8PXL, minversion: 2, maxversion: 2, fields: [" ++
    "\x7bname: width, type: uint16\x7d, " ++
    "\x7bname: height, type: uint16\x7d, " ++
    "\x7bname: x_offset, type: int16\x7d, " ++
    "\x7bname: y_offset, type: int16\x7d]\x7d]"

/-- A kind of block of four numbers that has the magic and the version of
sprites. -/
def plainDef : BlockDef where
  magic := .sprite
  minVersion := 2
  maxVersion := 2
  fields := [{ name := "width", type := .numeric .uint16 },
    { name := "height", type := .numeric .uint16 },
    { name := "x_offset", type := .numeric .int16 },
    { name := "y_offset", type := .numeric .int16 }]

/-- A compiler for blocks of this kind. -/
def plainCompiler : Compiler where
  schema := ⟨Registry.builtin, [(plainDef.magic.text, plainDef)]⟩

/-- One block of this kind, with the size of a pixel. -/
def plainOutput : OutputSpec where
  target := ⟨"plain.rcd"⟩
  blocks := [⟨.sprite, 2, [("width", .int 1), ("height", .int 1),
    ("x_offset", .int 0), ("y_offset", .int 0)]⟩]

/-- The block is compiled and written, but it cannot be listed: behind
its numbers the lines of a sprite are missing. -/
theorem summarize_plainOutput_endOfBytes :
    Schema.parse plainText = .ok plainCompiler.schema ∧
      ∃ file bytes stored,
        (plainCompiler.compileOutput clearSheet ⟨"."⟩ plainOutput).1 =
          .ok file ∧
        file.container.toBytes = .ok bytes ∧
        StoredFile.parse bytes = .ok stored ∧
        stored.summarize = .error .endOfBytes :=
  ⟨Schema.parse_eq_of_parts (by decide +kernel), _, _, _, rfl, rfl, rfl,
    rfl⟩

end Compiler

end GamePack
