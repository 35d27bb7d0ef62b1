import GamePack.Proofs.Compilation.Frame
import GamePack.Proofs.Compilation.Outputs
import GamePack.Proofs.Conversion.Reports

/-!
The list of encoded sprites tells the truth about the file. An output
names regions of sheets in the values that are bound in its blocks, and
each of them is reported once, in order. In the file that is left at the
end every reference of a report names a sprite with the numbers of the
report, whether its block was added for it or was there before; and there
is no reference exactly for the regions without an opaque pixel in the
mode that omits them.
-/
namespace GamePack

open Conversion

-- ============================================================= regions

/-- The regions that the bindings of a block name for references. -/
def BlockSpec.spriteRegions (schema : Schema) (kept : SheetCache)
    (baseDir : Path) (spec : BlockSpec) : List SheetRegion :=
  match schema.resolve spec.magic spec.version with
  | .error _ => []
  | .ok fields => fields.flatMap fun f =>
    ((spec.bound? baseDir f).map (f.type.spriteRegions kept)).getD []

/-- The regions that an output names for references. -/
def OutputSpec.spriteRegions (schema : Schema) (kept : SheetCache)
    (baseDir : Path) (output : OutputSpec) : List SheetRegion :=
  output.blocks.flatMap fun spec =>
    spec.spriteRegions schema kept baseDir

namespace Compiler

variable {schema : Schema} {settings : ConversionSettings}
  {baseDir : Path} {spec : BlockSpec} {fields : List Field}
  {s s' later : ConversionState} {block block' : Block}

-- ============================================================== blocks

/-- Every step of a compilation extends the state. -/
theorem frame_of_extends (schema : Schema) (asked : Block → Prop)
    (settings : ConversionSettings) :
    Frame schema asked settings (fun s s' => s'.Extends s)
      (fun _ => True) where
  toFrame := Conversion.frame_of_extends settings
  asks := fun s block _ =>
    { ConversionState.Extends.refl s with
      blocks := Container.keeps_addBlock s.container (some block)
      nodup := fun h => Container.nodup_addBlock h (some block) }
  resolve := fun _ _ _ _ => trivial
  document := fun _ => trivial
  consistency := fun _ => trivial
  validation := fun _ => trivial

/-- A bound value is reported on as its conversion reports. -/
theorem reports_of_compileValue {f : Field} {binding : Yaml.Value}
    {v : Value} (hbinding : spec.binding? f.name = some binding)
    (h : (compileValue settings baseDir f.type binding).Runs s v s')
    (hlater : later.Covers s') :
    Reports settings later (((spec.bound? baseDir f).map
      (f.type.spriteRegions later.sheets)).getD []) s s' := by
  simp only [compileValue, runs_bind, runs_ofExcept] at h
  obtain ⟨bound, _, ⟨hbind, rfl⟩, hconvert⟩ := h
  have hbound : spec.bound? baseDir f = some bound := by
    simp [BlockSpec.bound?, hbinding, hbind, Except.toOption]
  rw [hbound]
  exact reports_of_convert hconvert hlater

/-- The fields of a block report their regions in the order of the
fields. -/
theorem reports_of_compileFields (schema : Schema)
    (h : (compileFields settings baseDir spec fields block).Runs s block'
      s') (hlater : later.Covers s') :
    Reports settings later (fields.flatMap fun f =>
      ((spec.bound? baseDir f).map
        (f.type.spriteRegions later.sheets)).getD []) s s' := by
  induction fields generalizing s block with
  | nil =>
      obtain ⟨-, rfl⟩ := runs_pure.1 h
      exact reports_nil rfl
  | cons f fields ih =>
      unfold compileFields at h
      rw [List.flatMap_cons]
      split at h
      next hnone =>
        -- a field that is not bound names nothing
        have hbound : spec.bound? baseDir f = none := by
          rw [BlockSpec.bound?, hnone]
          rfl
        rw [hbound]
        exact ih h
      next binding hbinding =>
        simp only [runs_bind, runs_inField, runs_ofExcept] at h
        obtain ⟨v, s₁, hv, block₁, _, ⟨-, rfl⟩, hrest⟩ := h
        have hmiddle := hlater.of_extends (extends_of_keeps
          ((frame_of_extends schema (fun _ => True)
            settings).keeps_compileFields _ _ _ _) hrest)
        exact (reports_of_compileValue hbinding hv hmiddle).append
          (ih hrest)

/-- A check of an entry reports no sprite. -/
theorem sprites_of_checkBlock
    (h : (checkBlock spec fields).Runs s ⟨⟩ s') :
    s'.sprites = s.sprites := by
  simp only [checkBlock, runs_bind, runs_modify] at h
  obtain ⟨_, _, rfl, h⟩ := h
  split at h
  · exact absurd h not_runs_throw
  · obtain ⟨-, rfl⟩ := runs_pure.1 h
    rfl

/-- A block reports the regions that its entry names, in the order of its
fields. -/
theorem reports_of_compileBlock
    (h : (compileBlock schema settings baseDir spec).Runs s block s')
    (hlater : later.Covers s') :
    Reports settings later
      (spec.spriteRegions schema later.sheets baseDir) s s' := by
  simp only [compileBlock, runs_bind, runs_ofExcept, mapError_ok_iff] at h
  obtain ⟨fields, _, ⟨hresolve, rfl⟩, _, s₁, hcheck, hfields⟩ := h
  have hreports := reports_of_compileFields schema hfields hlater
  rw [BlockSpec.spriteRegions, hresolve]
  exact (reports_nil (sprites_of_checkBlock hcheck)).append hreports

/-- The blocks of an output report the regions that they name, and what
they report is true of every later state. -/
theorem reports_of_compileBlocks {specs : List BlockSpec}
    (h : (compileBlocks schema settings baseDir specs).Runs s ⟨⟩ s')
    (hlater : later.Covers s') :
    Reports settings later (specs.flatMap fun spec =>
      spec.spriteRegions schema later.sheets baseDir) s s' := by
  induction specs generalizing s with
  | nil =>
      obtain ⟨-, rfl⟩ := runs_pure.1 h
      exact reports_nil rfl
  | cons spec specs ih =>
      rw [compileBlocks, List.forM_eq_forM, List.forM_cons] at h
      simp only [runs_bind, runs_addBlock, runs_pure] at h
      obtain ⟨_, _, ⟨block, s₁, hblock, _, _, ⟨-, rfl⟩, -, rfl⟩,
        hrest⟩ := h
      have F := frame_of_extends schema (Asks specs) settings
      have hadded := hlater.of_extends
        (extends_of_keeps (F.keeps_compileBlocks baseDir) hrest)
      have hmiddle : later.Covers s₁ :=
        ⟨(Container.keeps_addBlock s₁.container (some block)).trans
          hadded.blocks, hadded.sheets⟩
      have hmore := ih hrest
      rw [List.flatMap_cons]
      exact (reports_of_compileBlock hblock hmiddle).append hmore

-- =============================================================== truth

/-- A report tells the truth about a region and a file. If it has a
reference, this names a sprite with the numbers of the report; it has
none exactly when the sheet shows nothing in the region and such regions
are omitted. -/
structure Tells (settings : ConversionSettings) (kept : SheetCache)
    (c : Container) (region : SheetRegion) (report : SpriteReport) :
    Prop where
  sheet : report.sheet = region.sheet
  named : ∀ r, report.reference = some r →
    ∃ block, c.get? r = some block ∧ block.IsSprite ∧
      block.get? "width" = some (.int report.width) ∧
      block.get? "height" = some (.int report.height) ∧
      block.get? "x_offset" = some (.int report.xOffset) ∧
      block.get? "y_offset" = some (.int report.yOffset)
  omitted : ∃ b, kept.find? region.sheet = some b ∧
    (report.reference = none ↔ settings.emptySprites = .omitted ∧
      (region.onBitmap b).IsClear b settings.transparent)

/-- What is true of a state whose blocks all have numbers tells the truth
about its file. -/
theorem tells_of_isReportedBy {region : SheetRegion}
    {report : SpriteReport} (h : region.IsReportedBy settings s report)
    (hsize : s.container.size < 0x100000000) :
    Tells settings s.sheets s.container region report := by
  obtain ⟨b, image, hkept, hencode, hthere, rfl⟩ := h
  have hnone := SpriteImage.isNone_iff_of_encode hencode
  cases image with
  | none =>
      refine ⟨rfl, fun r hr => ?_, b, hkept, ?_⟩
      · cases hr
      · exact ⟨fun _ => hnone.1 rfl, fun _ => rfl⟩
  | some made =>
      obtain ⟨r, hr, hget⟩ :=
        Container.exists_numberOf? (hthere made rfl) hsize
      obtain ⟨hwidth, hheight, hx, hy, -⟩ := SpriteImage.get?_blockOf made
      have hreference : (reportOf region (some made)
          (s.container.numberOf? made.blockOf)).reference = some r := hr
      refine ⟨rfl, fun r' hr' => ?_, b, hkept, ?_⟩
      · obtain rfl : r = r' := Option.some.inj (hreference.symm.trans hr')
        exact ⟨made.blockOf, hget, ⟨rfl, rfl⟩, hwidth, hheight, hx, hy⟩
      · constructor
        · intro hmissing
          cases hreference.symm.trans hmissing
        · intro hclear
          cases hnone.2 hclear

/-- The reports of an output that is compiled are one for each region that
it names, in order, and tell the truth about the file, unless this has
more blocks than numbers go around. -/
theorem tells_of_compileOutput {c c' : Compiler}
    {load : Path → Except Error Bitmap} {output : OutputSpec}
    {file : CompiledFile}
    (h : c.compileOutput load baseDir output = (.ok file, c'))
    (hsize : file.container.size < 0x100000000) :
    List.Forall₂
      (Tells (c.settingsOf load output) c'.sheets file.container)
      (output.spriteRegions c.schema c'.sheets baseDir) file.sprites := by
  rcases hrun : (compileBlocks c.schema (c.settingsOf load output) baseDir
    output.blocks).outcome
      { sheets := c.sheets, diagnostics := c.diagnostics } with ⟨r, last⟩
  rw [compileOutput_eq hrun] at h
  cases r with
  | error e => cases h
  | ok u =>
      cases h
      obtain ⟨reports, hreports, hall⟩ :=
        reports_of_compileBlocks hrun (.refl last)
      rw [List.nil_append] at hreports
      show List.Forall₂ _ _ last.sprites
      rw [hreports]
      exact hall.imp fun _ _ hreport => tells_of_isReportedBy hreport hsize

/-- One sheet is a transparent pixel, the others are an opaque one. -/
def signSheet (path : Path) : Except Error Bitmap :=
  .ok (.filled 1 1 (if path.text = "./clear.png" then 0 else 5))

/-- Three blocks with icons, of which the second is the first again and
the third shows nothing. -/
def signOutput : OutputSpec where
  target := ⟨"signs.rcd"⟩
  emptySprites := some .omitted
  blocks := ["lamp.png", "post.png", "clear.png"].map fun sheet =>
    iconSpec (.mapping [(.string "sheet", .string sheet)])

/-- The first two icons are one sprite, and the third is left out. -/
theorem tells_of_compileOutput_signs :
    ∃ file c', iconCompiler.compileOutput signSheet ⟨"."⟩ signOutput =
        (.ok file, c') ∧
      file.container.size = 3 ∧
      file.sprites.map SpriteReport.reference =
        [some firstRef, some firstRef, none] ∧
      List.Forall₂
        (Tells (iconCompiler.settingsOf signSheet signOutput) c'.sheets
          file.container)
        (signOutput.spriteRegions iconCompiler.schema c'.sheets ⟨"."⟩)
        file.sprites := by
  have hparts : (iconCompiler.compileOutput signSheet ⟨"."⟩
      signOutput).1.toOption.map (fun file => (file.container.size,
        file.sprites.map SpriteReport.reference)) =
      some (3, [some firstRef, some firstRef, none]) := by decide +kernel
  rcases hrun : iconCompiler.compileOutput signSheet ⟨"."⟩ signOutput
    with ⟨r, c'⟩
  rw [hrun] at hparts
  cases r with
  | error e => cases hparts
  | ok file =>
      obtain ⟨hsize, hreferences⟩ :=
        Prod.ext_iff.1 (Option.some.inj hparts)
      have hfits : file.container.size < 0x100000000 := by
        rw [show file.container.size = 3 from hsize]
        decide
      exact ⟨file, c', rfl, hsize, hreferences,
        tells_of_compileOutput hrun hfits⟩

end Compiler

end GamePack
