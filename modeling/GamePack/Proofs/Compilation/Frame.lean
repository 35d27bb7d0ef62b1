import GamePack.Proofs.Compilation.Blocks
import GamePack.Proofs.Conversion.Frame

/-!
What every run of a compilation keeps. Beyond what conversions do,
compiling a block looks its fields up, reports what is wrong with its
bindings, binds them, and adds the block that was asked for; it may fail
in each of these steps. A frame of a compilation allows for all of it, so
its relation and its property hold of every run over the blocks of an
output, whether it succeeds or fails.
-/
namespace GamePack

namespace Compiler

open Conversion

variable {schema : Schema} {baseDir : Path} {spec : BlockSpec}
  {settings : ConversionSettings} {asked : Block → Prop}
  {R : ConversionState → ConversionState → Prop} {E : Error → Prop}
  {s s' : ConversionState} {block : Block}

/-- A relation between states and a property of failures that allow for
what compiling blocks does; `asked` are the blocks that may be added
beside those that conversion makes. -/
structure Frame (schema : Schema) (asked : Block → Prop)
    (settings : ConversionSettings)
    (R : ConversionState → ConversionState → Prop)
    (E : Error → Prop) : Prop extends Conversion.Frame settings R E where
  asks : ∀ (s : ConversionState) (block : Block), asked block →
    R s { s with container := (s.container.addBlock (some block)).2 }
  resolve : ∀ magic version cause,
    schema.resolve magic version = .error cause → E (.schema cause)
  document : ∀ cause, E (.document cause)
  consistency : ∀ cause, E (.consistency cause)
  validation : ∀ cause, E (.validation cause)

/-- A block of the kind and version that a data file asks for. -/
def Asks (specs : List BlockSpec) (block : Block) : Prop :=
  ∃ spec ∈ specs, block.magic = spec.magic ∧ block.version = spec.version

/-- Giving fields their values leaves the kind of a block alone. -/
theorem kind_of_compileFields {fields : List Field} {block' : Block}
    (h : (compileFields settings baseDir spec fields block).Runs s block'
      s') :
    block'.magic = block.magic ∧ block'.version = block.version := by
  induction fields generalizing block s with
  | nil =>
      obtain ⟨rfl, -⟩ := runs_pure.1 h
      exact ⟨rfl, rfl⟩
  | cons f fields ih =>
      unfold compileFields at h
      split at h
      · exact ih h
      · simp only [runs_bind, runs_inField, runs_ofExcept,
          mapError_ok_iff] at h
        obtain ⟨_, _, -, _, _, ⟨hset, -⟩, h⟩ := h
        obtain ⟨-, rfl⟩ := Block.set_ok_iff.1 hset
        obtain ⟨hmagic, hversion⟩ := ih h
        exact ⟨hmagic, hversion⟩

/-- A compiled block is of the kind and version that its entry asks for.
-/
theorem kind_of_compileBlock
    (h : (compileBlock schema settings baseDir spec).Runs s block s') :
    block.magic = spec.magic ∧ block.version = spec.version := by
  simp only [compileBlock, runs_bind] at h
  obtain ⟨_, _, -, _, _, -, hfields⟩ := h
  exact kind_of_compileFields hfields

namespace Frame

/-- What binding fails with is within the frame, in however many fields.
-/
theorem of_binding (F : Frame schema asked settings R E) {e : Error}
    (h : e.IsOfBinding) : E e := by
  induction h with
  | value cause => exact F.value cause
  | document cause => exact F.document cause
  | field owner name _ ih => exact F.field owner name _ ih

/-- A check of an entry reports what it finds, and fails as a validation.
-/
theorem keeps_checkBlock (F : Frame schema asked settings R E)
    (spec : BlockSpec) (fields : List Field) :
    Keeps R E (checkBlock spec fields) := by
  refine F.keeps_bind (Conversion.Frame.keeps_modify fun s =>
    F.report s _) fun _ => ?_
  dsimp only
  split
  · exact F.keeps_throw (F.validation _)
  · exact F.keeps_pure _

theorem keeps_compileValue (F : Frame schema asked settings R E)
    (baseDir : Path) (t : DataType) (binding : Yaml.Value) :
    Keeps R E (compileValue settings baseDir t binding) :=
  F.keeps_bind (F.keeps_ofExcept fun _ he =>
    F.of_binding ((binds_bind _ _).of_error he)) fun _ => F.keeps_convert t _

/-- The fields of a block keep what their conversions keep. -/
theorem keeps_compileFields (F : Frame schema asked settings R E)
    (baseDir : Path) (spec : BlockSpec) (fields : List Field)
    (block : Block) :
    Keeps R E (compileFields settings baseDir spec fields block) := by
  induction fields generalizing block with
  | nil => exact F.keeps_pure _
  | cons f fields ih =>
      unfold compileFields
      split
      · exact ih block
      · refine F.keeps_bind
          (F.keeps_inField (F.keeps_compileValue _ _ _)) fun _ => ?_
        refine F.keeps_bind (F.keeps_ofExcept fun e he => ?_) fun _ => ih _
        obtain ⟨cause, -, rfl⟩ := mapError_error_iff.1 he
        exact F.consistency cause

theorem keeps_compileBlock (F : Frame schema asked settings R E)
    (baseDir : Path) (spec : BlockSpec) :
    Keeps R E (compileBlock schema settings baseDir spec) := by
  refine F.keeps_bind (F.keeps_ofExcept fun e he => ?_) fun _ => ?_
  · obtain ⟨cause, hcause, rfl⟩ := mapError_error_iff.1 he
    exact F.resolve _ _ cause hcause
  · exact F.keeps_bind (F.keeps_checkBlock _ _) fun _ =>
      F.keeps_compileFields _ _ _ _

/-- Compiling the blocks of an output stays within a frame that allows
for the blocks it asks for. -/
theorem keeps_compileBlocks {specs : List BlockSpec}
    (F : Frame schema (Asks specs) settings R E) (baseDir : Path) :
    Keeps R E (compileBlocks schema settings baseDir specs) := by
  -- the frame speaks of the whole output while the induction takes its
  -- blocks off one by one
  have hrow : ∀ l, l ⊆ specs →
      Keeps R E (compileBlocks schema settings baseDir l) := by
    intro l
    induction l with
    | nil => exact fun _ => F.keeps_pure _
    | cons spec l ih =>
        intro hl
        obtain ⟨hspec, hl⟩ := List.cons_subset.1 hl
        rw [compileBlocks, List.forM_eq_forM, List.forM_cons]
        refine F.keeps_bind (F.keeps_bind (F.keeps_compileBlock _ _)
          fun hblock => ?_) fun _ => ih hl
        have hkind := kind_of_compileBlock hblock
        exact F.keeps_bind (Conversion.Frame.keeps_addBlock fun s =>
          F.asks s _ ⟨spec, hspec, hkind⟩) fun _ => F.keeps_pure _
  exact hrow specs (List.Subset.refl _)

end Frame

-- ============================================================= outputs

variable {c : Compiler} {load : Path → Except Error Bitmap}
  {output : OutputSpec}

/-- An output is compiled by a run over its blocks, from an empty file
and with what the compiler has. -/
theorem compileOutput_eq {r : Except Error Unit}
    (h : (compileBlocks c.schema (c.settingsOf load output) baseDir
      output.blocks).outcome
        { sheets := c.sheets, diagnostics := c.diagnostics } = (r, s)) :
    c.compileOutput load baseDir output =
      (r.map fun _ =>
        ⟨targetOf c.options output.target, s.container, s.sprites⟩,
        { c with sheets := s.sheets, diagnostics := s.diagnostics }) := by
  unfold Conversion.outcome at h
  unfold compileOutput
  simp only [h]
  cases r <;> rfl

/-- An output fails with what its blocks fail with. -/
theorem error_of_compileOutput {e : Error}
    (h : (c.compileOutput load baseDir output).1 = .error e) :
    ((compileBlocks c.schema (c.settingsOf load output) baseDir
      output.blocks).outcome
        { sheets := c.sheets, diagnostics := c.diagnostics }).1 =
      .error e := by
  rcases hrun : (compileBlocks c.schema (c.settingsOf load output) baseDir
    output.blocks).outcome
      { sheets := c.sheets, diagnostics := c.diagnostics } with ⟨r, s'⟩
  rw [compileOutput_eq hrun] at h
  cases r with
  | error cause =>
      cases h
      rfl
  | ok u => cases h

/-- Compiling an output leaves the schema of a compiler alone. -/
theorem schema_compileOutput (c : Compiler)
    (load : Path → Except Error Bitmap) (baseDir : Path)
    (output : OutputSpec) :
    (c.compileOutput load baseDir output).2.schema = c.schema := by
  rw [compileOutput_eq (Prod.eta _).symm]

/-- The failure of a row of outputs is that of one of them, compiled by a
compiler for the same schema. -/
theorem exists_of_compileOutputs {outputs : List OutputSpec} {e : Error}
    (h : (compileOutputs load baseDir outputs c).1 = .error e) :
    ∃ c' : Compiler, c'.schema = c.schema ∧
      ∃ output, (c'.compileOutput load baseDir output).1 = .error e := by
  induction outputs generalizing c with
  | nil => cases h
  | cons output outputs ih =>
      unfold compileOutputs at h
      have hschema := schema_compileOutput c load baseDir output
      split at h
      next e' c' hfirst =>
        cases h
        exact ⟨c, rfl, output, by rw [hfirst]⟩
      next file c' hfirst =>
        rw [hfirst] at hschema
        split at h
        next e' c'' hrest =>
          cases h
          obtain ⟨d, hd, other, hother⟩ := ih (by rw [hrest])
          exact ⟨d, hd.trans hschema, other, hother⟩
        next => cases h

end Compiler

end GamePack
