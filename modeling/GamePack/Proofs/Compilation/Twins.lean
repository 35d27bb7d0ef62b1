import GamePack.Proofs.Compilation.Frame
import GamePack.Proofs.Conversion.Twins

/-!
One output compiled twice, by compilers whose sheets may differ. An
output asks for no sheets but those that its bindings name, so twins of
conversions become twins of compilers: where these sheets are the same
for both, they give files with the same blocks and sprites, and agree on
the sheets afterwards. Where the files go is not compared; it depends on
the directory that each compiler writes to.
-/
namespace GamePack

open Conversion

-- ======================================================== named sheets

/-- The sheets that the bindings of a block name. -/
def BlockSpec.sheets (schema : Schema) (baseDir : Path)
    (spec : BlockSpec) : List Path :=
  match schema.resolve spec.magic spec.version with
  | .error _ => []
  | .ok fields => fields.flatMap fun f =>
    ((spec.bound? baseDir f).map f.type.sheets).getD []

/-- The sheets that an output names. -/
def OutputSpec.sheets (schema : Schema) (baseDir : Path)
    (output : OutputSpec) : List Path :=
  output.blocks.flatMap fun spec => spec.sheets schema baseDir

-- ============================================================== blocks

namespace Compiler

variable {strict : Prop} {S : ConversionState → ConversionState → Prop}
  {settings settings' : ConversionSettings} {schema : Schema}
  {baseDir : Path}

/-- Fields meet when their last bindings are the same and are converted
alike. -/
theorem meets_compileFields {spec spec' : BlockSpec} {fields : List Field}
    (block : Block) (hmagic : spec.magic = spec'.magic)
    (hbinding : ∀ f ∈ fields,
      spec.binding? f.name = spec'.binding? f.name)
    (hvalue : ∀ f ∈ fields, ∀ binding,
      spec.binding? f.name = some binding →
        MeetsOver strict S (compileValue settings baseDir f.type binding)
          (compileValue settings' baseDir f.type binding)) :
    MeetsOver strict S (compileFields settings baseDir spec fields block)
      (compileFields settings' baseDir spec' fields block) := by
  induction fields generalizing block with
  | nil => exact meets_pure _
  | cons f fields ih =>
      obtain ⟨hfirst, hrest⟩ := List.forall_mem_cons.1 hbinding
      obtain ⟨hconvert, hconverts⟩ := List.forall_mem_cons.1 hvalue
      unfold compileFields
      rw [← hfirst, ← hmagic]
      split
      · exact ih block hrest hconverts
      next binding hsome =>
        refine meets_bind (meets_inField (hconvert binding hsome))
          fun _ => ?_
        exact meets_bind (meets_ofExcept _) fun _ =>
          ih _ hrest hconverts

/-- Rows of blocks meet when their blocks do, one by one. -/
theorem meets_compileBlocks {specs specs' : List BlockSpec}
    (h : List.Forall₂ (fun spec spec' =>
      MeetsOver strict S (compileBlock schema settings baseDir spec)
        (compileBlock schema settings' baseDir spec')) specs specs')
    (hadd : ∀ block,
      MeetsOver strict S (addBlock block) (addBlock block)) :
    MeetsOver strict S (compileBlocks schema settings baseDir specs)
      (compileBlocks schema settings' baseDir specs') := by
  induction h with
  | nil => exact meets_pure _
  | cons hspec _ ih =>
      simp only [compileBlocks, List.forM_eq_forM, List.forM_cons] at ih ⊢
      refine meets_bind (meets_bind hspec fun _ => ?_) fun _ => ih
      exact meets_bind (hadd _) fun _ => meets_pure _

end Compiler

namespace Conversion.Twins

open Compiler

variable {strict : Prop} {asked : Path → Prop}
  {settings : ConversionSettings} {load : Path → Except Error Bitmap}
  {R : SheetCache → SheetCache → Prop} {schema : Schema} {baseDir : Path}
  {spec : BlockSpec}

/-- A field is given the same value by both compilers, if its sheets are
asked for. -/
theorem meets_compileValue (T : Twins strict asked settings.load load R)
    {f : Field} {binding : Yaml.Value}
    (hbinding : spec.binding? f.name = some binding)
    (h : ∀ bound, spec.bound? baseDir f = some bound →
      ∀ p ∈ f.type.sheets bound, asked p) :
    Meets strict R (compileValue settings baseDir f.type binding)
      (compileValue (settings.withLoad load) baseDir f.type binding) := by
  refine meets_bind (meets_ofExcept _) fun {_ bound _} hbind => ?_
  obtain ⟨hbind, -⟩ := runs_ofExcept.1 hbind
  refine T.meets_convert _ (h bound ?_)
  simp [BlockSpec.bound?, hbinding, hbind, Except.toOption]

/-- So are the fields of a block, one after the other. -/
theorem meets_compileFields (T : Twins strict asked settings.load load R)
    {fields : List Field} {block : Block}
    (h : ∀ f ∈ fields, ∀ bound, spec.bound? baseDir f = some bound →
      ∀ p ∈ f.type.sheets bound, asked p) :
    Meets strict R (compileFields settings baseDir spec fields block)
      (compileFields (settings.withLoad load) baseDir spec fields
        block) :=
  Compiler.meets_compileFields block rfl (fun _ _ => rfl)
    fun f hf _ hbinding => T.meets_compileValue hbinding (h f hf)

/-- What the check of an entry finds does not depend on sheets. -/
theorem meets_checkBlock (spec : BlockSpec) (fields : List Field) :
    Meets strict R (checkBlock spec fields) (checkBlock spec fields) := by
  refine meets_bind (meets_modify fun halike => ?_) fun _ => ?_
  · exact ⟨halike.container, halike.sprites, halike.sheets⟩
  · dsimp only
    split
    · exact meets_throw _
    · exact meets_pure _

/-- A block is compiled the same way by both compilers. -/
theorem meets_compileBlock (T : Twins strict asked settings.load load R)
    (h : ∀ p ∈ spec.sheets schema baseDir, asked p) :
    Meets strict R (compileBlock schema settings baseDir spec)
      (compileBlock schema (settings.withLoad load) baseDir spec) := by
  refine meets_bind (meets_ofExcept _) fun {_ fields _} hresolve => ?_
  refine meets_bind (meets_checkBlock spec fields) fun _ => ?_
  refine T.meets_compileFields fun f hf bound hbound p hp => h p ?_
  simp only [runs_ofExcept, mapError_ok_iff] at hresolve
  rw [BlockSpec.sheets, hresolve.1]
  exact List.mem_flatMap.2 ⟨f, hf, by simpa [hbound] using hp⟩

/-- A row of blocks is compiled the same way, block by block. -/
theorem meets_compileBlocks (T : Twins strict asked settings.load load R)
    {specs : List BlockSpec}
    (h : ∀ spec ∈ specs, ∀ p ∈ spec.sheets schema baseDir, asked p) :
    Meets strict R (compileBlocks schema settings baseDir specs)
      (compileBlocks schema (settings.withLoad load) baseDir specs) :=
  Compiler.meets_compileBlocks
    (List.forall₂_same.2 fun spec hspec =>
      T.meets_compileBlock (h spec hspec))
    meets_addBlock

end Conversion.Twins

-- ============================================================= outputs

namespace Compiler

/-- Two compilers for one schema that treat sprites in the same way. -/
structure Alike (R : SheetCache → SheetCache → Prop)
    (c c' : Compiler) : Prop where
  schema : c.schema = c'.schema
  emptySprites : c.options.emptySprites = c'.options.emptySprites
  transparent : c.options.transparent = c'.options.transparent
  sheets : R c.sheets c'.sheets

variable {strict : Prop} {asked : Path → Prop}
  {load load' : Path → Except Error Bitmap}
  {R : SheetCache → SheetCache → Prop} {c c' : Compiler} {baseDir : Path}
  {output : OutputSpec}

/-- Compiling an output leaves the options of a compiler alone. -/
theorem options_compileOutput (c : Compiler)
    (load : Path → Except Error Bitmap) (baseDir : Path)
    (output : OutputSpec) :
    (c.compileOutput load baseDir output).2.options = c.options := by
  rw [compileOutput_eq (Prod.eta _).symm]

/-- Where an output goes depends on the options alone. -/
theorem target_of_compileOutput {file : CompiledFile}
    (h : (c.compileOutput load baseDir output).1 = .ok file) :
    file.target = targetOf c.options output.target := by
  rw [compileOutput_eq (Prod.eta _).symm] at h
  obtain ⟨_, -, rfl⟩ := map_eq_ok.1 h
  rfl

/-- A failure counts whatever would have been made of a success. -/
theorem counts_of_map {α β : Type} {r : Except Error α} {f : α → β}
    (h : Counts strict (r.map f)) : Counts strict r := by
  refine h.imp_right ?_
  rintro ⟨_, hb⟩
  obtain ⟨a, ha, -⟩ := map_eq_ok.1 hb
  exact ⟨a, ha⟩

/-- Compilers that are alike give the same but for the target for an
output that names only sheets that may be asked for, and are alike
afterwards. -/
theorem Alike.compileOutput (h : Alike R c c')
    (T : Twins strict asked load load' R)
    (hasked : ∀ p ∈ output.sheets c.schema baseDir, asked p)
    (hcounts : Counts strict (c.compileOutput load baseDir output).1) :
    (c.compileOutput load baseDir output).1 =
        (c'.compileOutput load' baseDir output).1.map (fun file =>
          { file with target := targetOf c.options output.target }) ∧
      Alike R (c.compileOutput load baseDir output).2
        (c'.compileOutput load' baseDir output).2 := by
  obtain ⟨hschema, hempty, htransparent, hsheets⟩ := h
  have hsettings : c'.settingsOf load' output =
      (c.settingsOf load output).withLoad load' := by
    simp [settingsOf, ConversionSettings.withLoad, hempty, htransparent]
  have hblocks : ∀ spec ∈ output.blocks,
      ∀ p ∈ spec.sheets c.schema baseDir, asked p :=
    fun spec hspec p hp =>
      hasked p (List.mem_flatMap.2 ⟨spec, hspec, hp⟩)
  have hmeets : Meets strict R
      (compileBlocks c.schema (c.settingsOf load output) baseDir
        output.blocks)
      (compileBlocks c'.schema (c'.settingsOf load' output) baseDir
        output.blocks) := by
    rw [hsettings, ← hschema]
    exact Twins.meets_compileBlocks T hblocks
  have hrun := hmeets { sheets := c.sheets, diagnostics := c.diagnostics }
    { sheets := c'.sheets, diagnostics := c'.diagnostics }
    ⟨rfl, rfl, hsheets⟩
  rw [compileOutput_eq (Prod.eta _).symm] at hcounts ⊢
  rw [compileOutput_eq (Prod.eta _).symm]
  obtain ⟨hresult, halike⟩ := hrun (counts_of_map hcounts)
  refine ⟨?_, hschema, hempty, htransparent, halike.sheets⟩
  rw [hresult, halike.container, halike.sprites]
  dsimp only
  generalize ((compileBlocks _ _ _ _).outcome _).1 = r
  cases r <;> rfl

/-- With the same options also the targets are the same. -/
theorem Alike.compileOutput_eq (h : Alike R c c')
    (hoptions : c.options = c'.options)
    (T : Twins strict asked load load' R)
    (hasked : ∀ p ∈ output.sheets c.schema baseDir, asked p)
    (hcounts : Counts strict (c.compileOutput load baseDir output).1) :
    (c.compileOutput load baseDir output).1 =
      (c'.compileOutput load' baseDir output).1 := by
  rw [(h.compileOutput T hasked hcounts).1]
  cases hresult : (c'.compileOutput load' baseDir output).1 with
  | error e => rfl
  | ok file =>
      rw [hoptions, ← target_of_compileOutput hresult]
      rfl

-- ==================================================== rows of outputs

/-- A row of outputs is compiled when its first output is and the rest
is by the compiler that this leaves. -/
theorem compileOutputs_cons_ok {outputs : List OutputSpec}
    {files : List CompiledFile} :
    compileOutputs load baseDir (output :: outputs) c =
        (.ok files, c') ↔
      ∃ file c₁ more,
        c.compileOutput load baseDir output = (.ok file, c₁) ∧
        compileOutputs load baseDir outputs c₁ = (.ok more, c') ∧
        files = file :: more := by
  rw [compileOutputs]
  rcases c.compileOutput load baseDir output with ⟨r, c₁⟩
  cases r with
  | error e => simp
  | ok file =>
      dsimp only
      rcases hrest : compileOutputs load baseDir outputs c₁ with ⟨rs, c₂⟩
      cases rs with
      | error e => simp [hrest]
      | ok more => simp [hrest, and_comm, eq_comm]

/-- Where a row of outputs goes; schema and options stay as they are. -/
theorem targets_of_compileOutputs {outputs : List OutputSpec}
    {files : List CompiledFile}
    (h : compileOutputs load baseDir outputs c = (.ok files, c')) :
    files.map CompiledFile.target =
        outputs.map (fun output => targetOf c.options output.target) ∧
      c'.schema = c.schema ∧ c'.options = c.options := by
  induction outputs generalizing c files with
  | nil =>
      cases h
      exact ⟨rfl, rfl, rfl⟩
  | cons output outputs ih =>
      obtain ⟨file, c₁, more, hfirst, hrest, rfl⟩ :=
        compileOutputs_cons_ok.1 h
      have hschema := schema_compileOutput c load baseDir output
      have hoptions := options_compileOutput c load baseDir output
      rw [hfirst] at hschema hoptions
      have htarget := target_of_compileOutput (by rw [hfirst])
      obtain ⟨htargets, hschema', hoptions'⟩ := ih hrest
      rw [List.map_cons, List.map_cons, htarget, htargets, hoptions]
      exact ⟨rfl, hschema'.trans hschema, hoptions'.trans hoptions⟩

/-- Every file of a row was compiled for one of its outputs. -/
theorem exists_of_mem_compileOutputs {outputs : List OutputSpec}
    {files : List CompiledFile}
    (h : compileOutputs load baseDir outputs c = (.ok files, c')) :
    ∀ file ∈ files, ∃ (c₁ : Compiler) (output : OutputSpec),
      (c₁.compileOutput load baseDir output).1 = .ok file := by
  induction outputs generalizing c files with
  | nil =>
      cases h
      exact fun file hfile => absurd hfile List.not_mem_nil
  | cons output outputs ih =>
      obtain ⟨file, c₁, more, hfirst, hrest, rfl⟩ :=
        compileOutputs_cons_ok.1 h
      exact List.forall_mem_cons.2
        ⟨⟨c, output, by rw [hfirst]⟩, ih hrest⟩

/-- A row of outputs that one compiler compiles is compiled by one that
is alike, and both are alike afterwards. -/
theorem Alike.compileOutputs {outputs : List OutputSpec}
    {files : List CompiledFile} {d : Compiler} (h : Alike R c c')
    (T : Twins strict asked load load' R)
    (hasked : ∀ output ∈ outputs,
      ∀ p ∈ output.sheets c.schema baseDir, asked p)
    (hok : compileOutputs load baseDir outputs c = (.ok files, d)) :
    ∃ files' d', compileOutputs load' baseDir outputs c' =
      (.ok files', d') ∧ Alike R d d' := by
  induction outputs generalizing c c' files with
  | nil =>
      cases hok
      exact ⟨[], c', rfl, h⟩
  | cons output outputs ih =>
      obtain ⟨houtput, hrest⟩ := List.forall_mem_cons.1 hasked
      obtain ⟨file, c₁, more, hfirst, hmore, rfl⟩ :=
        compileOutputs_cons_ok.1 hok
      have hschema := schema_compileOutput c load baseDir output
      obtain ⟨hfile, halike⟩ :=
        h.compileOutput T houtput (.inr ⟨file, by rw [hfirst]⟩)
      rw [hfirst] at hschema hfile halike
      obtain ⟨file', hfile', -⟩ := map_eq_ok.1 hfile.symm
      rw [← hschema] at hrest
      obtain ⟨more', d', hmore', hd⟩ := ih halike hrest hmore
      exact ⟨file' :: more', d', compileOutputs_cons_ok.2
        ⟨file', _, more', Prod.ext hfile' rfl, hmore', rfl⟩, hd⟩

end Compiler

end GamePack
