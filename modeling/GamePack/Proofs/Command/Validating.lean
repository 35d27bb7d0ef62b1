import GamePack.Proofs.Command.Reading
import GamePack.Proofs.Compilation.Independence
import GamePack.Proofs.Compilation.Outputs

/-!
Validating as a prediction of building. Both go over the data files with
one compiler; they differ in that a build stops at the first failure and
writes in between. As long as both succeed their compilers are alike,
since they are asked for the same outputs and see the same sheets. So a
failure of one is a failure of the other, except where writing fails or
where what a build wrote makes a path lead to a file.
-/
namespace GamePack

open Disk

-- ========================================================== compiling

namespace Compiler

/-- What compiling data files one after the other gives, by one compiler
that goes on after failures. -/
def compileFiles (d : Disk) : Compiler → List Path →
    List (Except Error (List CompiledFile))
  | _, [] => []
  | c, path :: paths =>
    (c.compileFile d path).1 ::
      compileFiles d (c.compileFile d path).2.takeDiagnostics.2 paths

variable {c c' c₁ : Compiler} {d d' : Disk} {path : Path}
  {files : List CompiledFile}

/-- A data file is compiled when it can be loaded and what it holds can
be compiled. -/
theorem compileFile_ok_iff :
    c.compileFile d path = (.ok files, c') ↔
      ∃ data, DataFile.load d path = .ok data ∧
        c.compileData (Bitmap.load d) data = (.ok files, c') := by
  cases hload : DataFile.load d path with
  | error e => simp [compileFile_of_load_error hload]
  | ok data => simp [compileFile_of_load hload]

/-- A data file that one compiler compiles on one disk is compiled by
another on another disk, where the compilers are alike and what is read
on the first disk is the same on the second. -/
theorem Alike.compileFile (h : Alike (· = ·) c c')
    (hpath : d.SeesAs d' path)
    (hsheets : ∀ data, DataFile.load d path = .ok data →
      ∀ p ∈ data.sheets c.schema, d.SeesAs d' p)
    (hok : c.compileFile d path = (.ok files, c₁)) :
    ∃ files' c₁', c'.compileFile d' path = (.ok files', c₁') ∧
      Alike (· = ·) c₁ c₁' := by
  obtain ⟨data, hload, hcompile⟩ := compileFile_ok_iff.1 hok
  have hsheets := hsheets data hload
  have T : Conversion.Twins False (· ∈ data.sheets c.schema)
      (Bitmap.load d) (Bitmap.load d') (· = ·) := by
    refine .of_load fun p hp hcounts => ?_
    obtain ⟨b, hb⟩ := hcounts.resolve_left id
    exact hb.trans ((hsheets p hp).bitmap hb).symm
  obtain ⟨files', c₁', hcompile', halike⟩ := h.compileOutputs T
    (fun output houtput p hp => List.mem_flatMap.2 ⟨output, houtput, hp⟩)
    hcompile
  exact ⟨files', c₁', compileFile_ok_iff.2
    ⟨data, hpath.dataFile hload, hcompile'⟩, halike⟩

/-- Compilers that are alike stay so when their diagnostics are taken. -/
theorem Alike.takeDiagnostics {R : SheetCache → SheetCache → Prop}
    (h : Alike R c c') :
    Alike R c.takeDiagnostics.2 c'.takeDiagnostics.2 :=
  ⟨h.schema, h.emptySprites, h.transparent, h.sheets⟩

/-- The first of a row of data files is compiled. -/
theorem forall_mem_compileFiles_cons {paths : List Path}
    (h : ∀ r ∈ compileFiles d c (path :: paths), ∃ files, r = .ok files) :
    ∃ files c₁, c.compileFile d path = (.ok files, c₁) ∧
      ∀ r ∈ compileFiles d c₁.takeDiagnostics.2 paths,
        ∃ files, r = .ok files := by
  rw [compileFiles, List.forall_mem_cons] at h
  obtain ⟨⟨files, hfirst⟩, hrest⟩ := h
  exact ⟨files, _, Prod.ext hfirst rfl, hrest⟩

end Compiler

-- =========================================================== validating

namespace Action

/-- A panic while the first data file is compiled ends the validation. -/
theorem does_validateFiles_panic {c : Compiler} {path : Path}
    {paths : List Path} {s : Session} {step : String}
    (h : (c.compileFile s.disk path).1 = .error (.panic step)) :
    Does (validateFiles c (path :: paths)) s
      (.error (.panic step), s.disk) := by
  refine (does_shown path s).bind fun s₁ h₁ => ?_
  refine (does_say _ _ s₁).bind fun s₂ h₂ => ?_
  have hcompile := does_compileFile c path s₂
  rw [h₂, h₁, h] at hcompile
  exact hcompile.bind_error

/-- Without a panic the first data file is counted when it fails, and the
validation goes on. -/
theorem does_validateFiles_cons {c : Compiler} {path : Path}
    {paths : List Path} {s : Session} {d : Disk}
    {r : Except Error (Nat × Diagnostics)} (hs : s.disk = d)
    (h : ∀ step, (c.compileFile d path).1 ≠ .error (.panic step))
    (hrest : ∀ s', s'.disk = d → Does (validateFiles
      (c.compileFile d path).2.takeDiagnostics.2 paths) s' (r, d)) :
    Does (validateFiles c (path :: paths)) s
      (r.map fun counted =>
        ((if (c.compileFile d path).1.isOk then 0 else 1) + counted.1,
          (c.compileFile d path).2.diagnostics ++ counted.2), d) := by
  subst hs
  refine (does_shown path s).bind fun s₁ h₁ => ?_
  refine (does_say _ _ s₁).bind fun s₂ h₂ => ?_
  have hcompile := does_compileFile c path s₂
  rw [h₂, h₁, Error.caught_eq_ok_iff.2 ⟨rfl, h⟩] at hcompile
  refine hcompile.bind fun s₃ h₃ => ?_
  dsimp only
  have hcounted : ∀ (failed : Nat) s', s'.disk = s.disk → Does (do
        let failed ← pure failed
        let counted ← validateFiles
          (c.compileFile s.disk path).2.takeDiagnostics.2 paths
        return (failed + counted.1,
          (c.compileFile s.disk path).2.takeDiagnostics.1 ++ counted.2)) s'
        (r.map fun counted => (failed + counted.1,
          (c.compileFile s.disk path).2.diagnostics ++ counted.2),
          s.disk) := by
    intro failed s' h'
    refine (does_pure failed s').bind fun s₄ h₄ => ?_
    have hrest := hrest s₄ (h₄.trans h')
    cases r with
    | error e => exact hrest.bind_error
    | ok counted =>
        refine hrest.bind fun s₅ h₅ => ?_
        rw [← h₅]
        exact does_pure _ s₅
  cases hresult : (c.compileFile s.disk path).1 with
  | error e =>
      refine (does_shown path s₃).bind fun s₄ h₄ => ?_
      refine (does_say _ _ s₄).bind fun s₅ h₅ => ?_
      exact hcounted 1 s₅ (h₅.trans (h₄.trans h₃))
  | ok files =>
      refine (does_sayDetail _ _ s₃).bind fun s₄ h₄ => ?_
      exact hcounted 0 s₄ (h₄.trans h₃)

/-- Validating data files compiles them all and counts those that fail.
Only a panic keeps it from this: it ends with the first one. -/
theorem does_validateFiles (c : Compiler) (paths : List Path) (d : Disk) :
    ∃ r, (∀ s, s.disk = d → Does (validateFiles c paths) s (r, d)) ∧
      ((∃ ds, r = .ok
            ((Compiler.compileFiles d c paths).countP (!·.isOk), ds)) ∧
          (∀ step, .error (.panic step) ∉
            Compiler.compileFiles d c paths) ∨
        ∃ step, r = .error (.panic step) ∧
          .error (.panic step) ∈ Compiler.compileFiles d c paths) := by
  induction paths generalizing c with
  | nil =>
      refine ⟨_, ?_, .inl ⟨⟨[], rfl⟩, fun step => List.not_mem_nil⟩⟩
      rintro s rfl
      exact does_pure _ s
  | cons path paths ih =>
      obtain ⟨r, hrest, hend⟩ := ih (c.compileFile d path).2.takeDiagnostics.2
      cases hcaught : Error.caught (c.compileFile d path).1 with
      | error e =>
          obtain ⟨step, rfl, hpanic⟩ := Error.caught_eq_error_iff.1 hcaught
          refine ⟨.error (.panic step), ?_, .inr ⟨step, rfl, ?_⟩⟩
          · rintro s rfl
            exact does_validateFiles_panic hpanic
          · rw [Compiler.compileFiles, hpanic]
            exact List.mem_cons_self
      | ok result =>
          obtain ⟨-, hcalm⟩ := Error.caught_eq_ok_iff.1 hcaught
          refine ⟨_, fun s hs => does_validateFiles_cons hs hcalm hrest,
            ?_⟩
          rw [Compiler.compileFiles]
          rcases hend with ⟨⟨ds, rfl⟩, hnone⟩ | ⟨step, rfl, hmem⟩
          · refine .inl ⟨⟨(c.compileFile d path).2.diagnostics ++ ds, ?_⟩,
              fun step hmem => ?_⟩
            · rw [List.countP_cons, Nat.add_comm]
              cases (c.compileFile d path).1 <;> rfl
            · rcases List.mem_cons.1 hmem with hsame | hmem
              · exact hcalm step hsame.symm
              · exact hnone step hmem
          · exact .inr ⟨step, rfl, List.mem_cons_of_mem _ hmem⟩

/-- Validating leaves the disk as it is, and succeeds when the project
opens and all data files are compiled. -/
theorem does_validate (o : ProjectOptions) (s : Session) :
    ∃ r, Does (validate o) s (r, s.disk) ∧
      (r = .ok () ↔ ∃ setup schema, o.Opens s.disk setup schema ∧
        ∀ r ∈ (setup.compiler schema setup.outputDir).compileFiles s.disk
          setup.dataFiles, ∃ files, r = .ok files) := by
  rcases outcome_opening o (fun setup schema => do
      let options := setup.buildOptions setup.outputDir
      let files := setup.dataFiles.length
      let result ← validateFiles { schema, options } setup.dataFiles
      let summary := result.2.summary
      if 0 < result.1 then
        throw (.validation (.filesFailed result.1 files summary))
      let counted := plural files "data file" "data files"
      say "Validated" s!"{counted}, {summary}") s with
    ⟨setup, schema, s₁, hopens, hdisk, hrun⟩ | ⟨hclosed, e, hdoes⟩
  · obtain ⟨r, hfiles, hend⟩ := does_validateFiles
      (setup.compiler schema setup.outputDir) setup.dataFiles s.disk
    have hiff : (∃ setup schema, o.Opens s.disk setup schema ∧
        ∀ r ∈ (setup.compiler schema setup.outputDir).compileFiles s.disk
          setup.dataFiles, ∃ files, r = .ok files) ↔
        (Compiler.compileFiles s.disk
          (setup.compiler schema setup.outputDir)
          setup.dataFiles).countP (!·.isOk) = 0 := by
      simp only [List.countP_eq_zero, Bool.not_eq_true',
        Bool.not_eq_false, isOk_iff]
      constructor
      · rintro ⟨setup', schema', hopens', hall⟩
        obtain ⟨rfl, rfl⟩ := hopens.unique hopens'
        exact hall
      · exact fun hall => ⟨setup, schema, hopens, hall⟩
    rw [hiff]
    have hfiles := hfiles s₁ hdisk
    rcases hend with ⟨⟨ds, rfl⟩, -⟩ | ⟨step, rfl, hmem⟩
    · generalize (Compiler.compileFiles s.disk
        (setup.compiler schema setup.outputDir) setup.dataFiles).countP
          (!·.isOk) = failed at hfiles ⊢
      cases failed with
      | zero =>
          refine ⟨.ok (), .of_outcome_eq hrun ?_, by simp⟩
          refine hfiles.bind fun s₂ h₂ => ?_
          rw [← h₂]
          exact does_say _ _ s₂
      | succ failed =>
          refine ⟨.error (.validation (.filesFailed (failed + 1)
            setup.dataFiles.length ds.summary)), .of_outcome_eq hrun ?_,
            by simp⟩
          refine hfiles.bind fun s₂ h₂ => ?_
          rw [← h₂]
          exact (does_throw _ s₂).bind_error
    · refine ⟨.error (.panic step),
        .of_outcome_eq hrun hfiles.bind_error, ?_⟩
      have hfailed := List.countP_pos_iff
        (p := fun r : Except Error (List CompiledFile) => !r.isOk).2
          ⟨_, hmem, rfl⟩
      simp only [reduceCtorEq, false_iff]
      exact Nat.ne_of_gt hfailed
  · refine ⟨.error e, hdoes, ?_⟩
    constructor
    · intro h
      cases h
    · rintro ⟨setup, schema, hopens, -⟩
      exact absurd hopens (hclosed setup schema)

end Action

-- =========================================================== agreement

/-- A failure to write a compiled output: the system refuses, or a block
is too large. -/
inductive Error.IsOfWriting : Error → Prop where
  | makeDirectory (path : Path) (fault : IoFault) :
    IsOfWriting (.file path (.system .makeOutputDirectory fault))
  | writeFile (path : Path) (fault : IoFault) :
    IsOfWriting (.file path (.system .writeContainer fault))
  | tooLarge {e : Error} (h : e.IsTooLarge) : IsOfWriting e

/-- Compiled files have bytes unless a block is too large. -/
theorem CompiledFile.IsWriteFailure.isOfWriting {c : Compiler}
    {load : Path → Except Error Bitmap} {baseDir : Path}
    {output : OutputSpec} {f : CompiledFile} {e : Error}
    (h : f.IsWriteFailure e)
    (hcompile : (c.compileOutput load baseDir output).1 = .ok f) :
    e.IsOfWriting := by
  rcases h with hbytes | ⟨path, fault, rfl | rfl⟩
  · refine .tooLarge (Container.toBytes_error (fun b hb => ?_) hbytes)
    obtain ⟨i, hi⟩ := List.mem_iff_getElem?.1 hb
    exact ((Compiler.sound_of_compileOutput hcompile).1 i b hi).complete
  · exact .makeDirectory path fault
  · exact .writeFile path fault

namespace Builds

open Compiler

variable {c cv : Compiler} {first last d : Disk} {path : Path}
  {paths targets : List Path}
  {r : Except Error (List (DataFile × List CompiledFile))} {e : Error}

/-- What a row of targets leaves apart is seen on the way as at first. -/
theorem sees_reads {schema : Schema}
    (hbetween : Between targets first last d)
    (hapart : ∀ t ∈ targets, ∀ p ∈ readsOf schema first paths,
      ¬ last.SamePlace t p) :
    ∀ p ∈ readsOf schema first paths, first.SeesAs d p :=
  fun p hp => hbetween.sees fun t ht => hapart t ht p hp

/-- After a data file that was there at first the build is still on its
way, with a compiler for the same schema and options. -/
theorem between_step {c' : Compiler} {d₁ : Disk} {data : DataFile}
    {files : List CompiledFile} (hbetween : Between targets first last d)
    (htargets : ∀ t ∈ targetsOf c.options.outputDir first (path :: paths),
      t ∈ targets)
    (hfirst : DataFile.load first path = .ok data)
    (hcompile : c.compileData (Bitmap.load d) data = (.ok files, c'))
    (hwrite : CompiledFile.writeAll files d = (.ok (), d₁))
    (hrest : Builds c'.takeDiagnostics.2 d₁ paths r last) :
    Between targets first last d₁ ∧ c'.schema = c.schema ∧
      c'.options = c.options := by
  obtain ⟨hmap, hschema, hoptions⟩ := targets_of_compileOutputs hcompile
  refine ⟨hbetween.writeAll hwrite (fun f hf => ?_) hrest.grows, hschema,
    hoptions⟩
  refine htargets f.target (mem_targetsOf hfirst ?_)
  have hmem := List.mem_map_of_mem (f := CompiledFile.target) hf
  rw [hmap] at hmem
  exact hmem

/-- The first data file of a row that is compiled on one disk is compiled
on another that sees the same. -/
theorem compileFile_of_compileFiles (halike : Alike (· = ·) cv c)
    (hsees : ∀ p ∈ readsOf c.schema first (path :: paths),
      first.SeesAs d p)
    (hok : ∀ r ∈ compileFiles first cv (path :: paths),
      ∃ files, r = .ok files) :
    ∃ data files c₁ cv₁, DataFile.load first path = .ok data ∧
      DataFile.load d path = .ok data ∧
      c.compileData (Bitmap.load d) data = (.ok files, c₁) ∧
      Alike (· = ·) cv₁ c₁.takeDiagnostics.2 ∧
      ∀ r ∈ compileFiles first cv₁ paths, ∃ files, r = .ok files := by
  obtain ⟨files, cv₁, hfirst, hrest⟩ := forall_mem_compileFiles_cons hok
  have hpath := hsees path (mem_readsOf_path _ _ _ _)
  obtain ⟨files', c₁, hfile, halike₁⟩ := halike.compileFile hpath
    (fun data hload p hp =>
      hsees p (mem_readsOf_sheet hload (halike.schema ▸ hp))) hfirst
  obtain ⟨data, hload, -⟩ := compileFile_ok_iff.1 hfirst
  have hload' := hpath.dataFile hload
  rw [compileFile_of_load hload'] at hfile
  exact ⟨data, files', c₁, _, hload, hload', hfile,
    halike₁.takeDiagnostics, hrest⟩

/-- When every data file is compiled on the disk that a build starts
from, the build itself fails at most in writing. -/
theorem isOfWriting (h : Builds c d paths r last)
    (halike : Alike (· = ·) cv c) (hbetween : Between targets first last d)
    (hapart : ∀ t ∈ targets, ∀ p ∈ readsOf c.schema first paths,
      ¬ last.SamePlace t p)
    (htargets : ∀ t ∈ targetsOf c.options.outputDir first paths,
      t ∈ targets)
    (hok : ∀ r ∈ compileFiles first cv paths, ∃ files, r = .ok files)
    (he : r = .error e) : e.IsOfWriting := by
  induction h generalizing cv with
  | done c d => cases he
  | unread hload =>
      obtain ⟨data, _, _, _, -, hload', -⟩ :=
        compileFile_of_compileFiles halike (sees_reads hbetween hapart) hok
      cases hload.symm.trans hload'
  | uncompiled hload hcompile =>
      obtain ⟨data, _, _, _, -, hload', hcompiled, -⟩ :=
        compileFile_of_compileFiles halike (sees_reads hbetween hapart) hok
      cases hload.symm.trans hload'
      cases hcompile.symm.trans hcompiled
  | unwritten hload hcompile hwrite =>
      cases he
      obtain ⟨f, hf, hfailure⟩ :=
        CompiledFile.exists_of_writeAll_error hwrite
      obtain ⟨c₁, output, houtput⟩ :=
        exists_of_mem_compileOutputs hcompile f hf
      exact hfailure.isOfWriting houtput
  | step hload hcompile hwrite hrest ih =>
      obtain ⟨data, _, _, cv₁, hfirst, hload', hcompiled, halike₁, hok₁⟩ :=
        compileFile_of_compileFiles halike (sees_reads hbetween hapart) hok
      cases hload.symm.trans hload'
      cases hcompile.symm.trans hcompiled
      obtain ⟨hbetween₁, hschema, hoptions⟩ :=
        between_step hbetween htargets hfirst hcompile hwrite hrest
      refine ih halike₁ hbetween₁ (fun t ht p hp => ?_) (fun t ht => ?_)
        hok₁ (map_eq_error.1 he)
      · refine hapart t ht p (readsOf_subset_cons _ _ _ _ ?_)
        exact hschema ▸ hp
      · refine htargets t (targetsOf_subset_cons _ _ _ _ ?_)
        exact hoptions ▸ ht

/-- When a build succeeds, every data file is compiled on the disk that
it starts from, unless a path comes to lead to a file on the way. -/
theorem compileFiles_ok (h : Builds c d paths r last)
    (halike : Alike (· = ·) c cv) (hbetween : Between targets first last d)
    (hapart : ∀ t ∈ targets, ∀ p ∈ readsOf c.schema first paths,
      ¬ last.SamePlace t p)
    (htargets : ∀ t ∈ targetsOf c.options.outputDir first paths,
      t ∈ targets)
    (hstays : ∀ p ∈ readsOf c.schema first paths,
      last.isFile p = true → first.isFile p = true)
    {rows : List (DataFile × List CompiledFile)} (hr : r = .ok rows) :
    ∀ r ∈ compileFiles first cv paths, ∃ files, r = .ok files := by
  induction h generalizing cv rows with
  | done c d => exact fun r hr => absurd hr List.not_mem_nil
  | unread hload => cases hr
  | uncompiled hload hcompile => cases hr
  | unwritten hload hcompile hwrite => cases hr
  | step hload hcompile hwrite hrest ih =>
      have hsaw := fun p hp =>
        hbetween.saw (fun t ht => hapart t ht p hp) (hstays p hp)
      have hfirst := (hsaw _ (mem_readsOf_path _ _ _ _)).dataFile hload
      obtain ⟨files', cv₁, hfile, halike₁⟩ := halike.compileFile
        (hsaw _ (mem_readsOf_path _ _ _ _)) (fun data' hload' p hp => by
          cases hload.symm.trans hload'
          exact hsaw p (mem_readsOf_sheet hfirst hp))
        (compileFile_ok_iff.2 ⟨_, hload, hcompile⟩)
      obtain ⟨hbetween₁, hschema, hoptions⟩ :=
        between_step hbetween htargets hfirst hcompile hwrite hrest
      obtain ⟨more, hmore, -⟩ := map_eq_ok.1 hr
      have hall := ih halike₁.takeDiagnostics hbetween₁
        (fun t ht p hp => hapart t ht p
          (readsOf_subset_cons _ _ _ _ (hschema ▸ hp)))
        (fun t ht => htargets t
          (targetsOf_subset_cons _ _ _ _ (hoptions ▸ ht)))
        (fun p hp => hstays p (readsOf_subset_cons _ _ _ _ (hschema ▸ hp)))
        hmore
      rw [compileFiles, List.forall_mem_cons, hfile]
      exact ⟨⟨files', rfl⟩, hall⟩

end Builds

-- ============================================================= commands

/-- The compilers of a project are alike wherever its outputs go. -/
theorem ProjectSetup.alike_compiler (setup : ProjectSetup)
    (schema : Schema) (outputDir outputDir' : Path) :
    Compiler.Alike (· = ·) (setup.compiler schema outputDir)
      (setup.compiler schema outputDir') :=
  ⟨rfl, rfl, rfl, rfl⟩

namespace ProjectOptions.Opens

variable {o : ProjectOptions} {setup : ProjectSetup} {schema : Schema}
  {output : Option Path} {first last : Disk}
  {r : Except Error (List (DataFile × List CompiledFile))} {e : Error}

/-- A build starts on its way, for all that it reads and writes. -/
theorem between_start (h : o.Opens first setup schema)
    (hbuilds : Builds (setup.compiler schema (output.getD setup.outputDir))
      first setup.dataFiles r last)
    (hapart : o.WritesApart output first last) :
    Between (targetsOf (output.getD setup.outputDir) first setup.dataFiles)
      first last first ∧
    ∀ t ∈ targetsOf (output.getD setup.outputDir) first setup.dataFiles,
      ∀ p ∈ readsOf schema first setup.dataFiles, ¬ last.SamePlace t p := by
  rw [WritesApart, h.reads_eq, h.targets_eq] at hapart
  exact ⟨⟨.refl _ first, hbuilds.grows⟩, hapart⟩

/-- A build whose data files are all valid, and whose targets are apart
from what it reads, fails in writing only. -/
theorem isOfWriting (h : o.Opens first setup schema)
    (hbuilds : Builds (setup.compiler schema (output.getD setup.outputDir))
      first setup.dataFiles r last)
    (hapart : o.WritesApart output first last)
    (hok : ∀ r ∈ (setup.compiler schema setup.outputDir).compileFiles first
      setup.dataFiles, ∃ files, r = .ok files)
    (he : r = .error e) : e.IsOfWriting := by
  obtain ⟨hbetween, hapart⟩ := h.between_start hbuilds hapart
  exact hbuilds.isOfWriting (setup.alike_compiler ..) hbetween hapart
    (fun _ ht => ht) hok he

/-- Where a build succeeds, its targets are apart from what it reads, and
no file that it reads comes to be there, all data files were valid before
it. -/
theorem compileFiles_ok (h : o.Opens first setup schema)
    (hbuilds : Builds (setup.compiler schema (output.getD setup.outputDir))
      first setup.dataFiles r last)
    (hapart : o.WritesApart output first last)
    (hstays : o.FindsNoMore first last)
    {rows : List (DataFile × List CompiledFile)} (hr : r = .ok rows) :
    ∀ r ∈ (setup.compiler schema setup.outputDir).compileFiles first
      setup.dataFiles, ∃ files, r = .ok files := by
  obtain ⟨hbetween, hapart⟩ := h.between_start hbuilds hapart
  rw [FindsNoMore, h.reads_eq] at hstays
  exact hbuilds.compileFiles_ok (setup.alike_compiler ..) hbetween hapart
    (fun _ ht => ht) hstays hr

end ProjectOptions.Opens

namespace Invocation

/-- Validating succeeds exactly when the project opens and every data
file is loaded and compiled. Where no target of the build leads to the
place of a path that is read, a build of a project that is valid fails
at most in writing; and a build of one that is not fails too, as long as
none of these paths comes to lead to a file by what the build makes. -/
theorem validate_predicts_build (verbose verbose' : Bool)
    (o : ProjectOptions) (output : Option Path) (disk : Disk) :
    let validated := (⟨verbose, .validate o⟩ : Invocation).run disk
    let built := (⟨verbose', .build o output⟩ : Invocation).run disk
    (validated.1 = .ok () ↔ ∃ setup schema, o.Opens disk setup schema ∧
      ∀ r ∈ (setup.compiler schema setup.outputDir).compileFiles disk
        setup.dataFiles, ∃ files, r = .ok files) ∧
    (o.WritesApart output disk built.2.disk →
      (validated.1 = .ok () → ∀ e, built.1 = .error e →
        e.IsOfWriting) ∧
      (o.FindsNoMore disk built.2.disk →
        (∃ e, validated.1 = .error e) → ∃ e, built.1 = .error e)) := by
  intro validated built
  obtain ⟨r, hdoes, hvalid⟩ :=
    Action.does_validate o { disk, verbose }
  obtain rfl : r = validated.1 :=
    (Prod.ext_iff.1 (hdoes.eq (Prod.eta _).symm)).1
  refine ⟨hvalid, fun hapart => ?_⟩
  rcases Action.build_outcome (Prod.eta built).symm with
    ⟨setup, schema, rows, hopens, hbuilds, hr, -⟩ | ⟨hclosed, e, he, -⟩
  · refine ⟨fun hok e he => ?_, fun hstays hinvalid => ?_⟩
    · obtain ⟨setup', schema', hopens', hall⟩ := hvalid.1 hok
      obtain ⟨rfl, rfl⟩ := hopens.unique hopens'
      rw [hr] at he
      exact hopens.isOfWriting hbuilds hapart hall (map_eq_error.1 he)
    · cases rows with
      | error e => exact ⟨e, hr⟩
      | ok rows =>
          have hall := hopens.compileFiles_ok hbuilds hapart hstays rfl
          obtain ⟨e, he⟩ := hinvalid
          rw [hvalid.2 ⟨setup, schema, hopens, hall⟩] at he
          cases he
  · refine ⟨fun hok => ?_, fun _ _ => ⟨e, he⟩⟩
    obtain ⟨setup, schema, hopens, -⟩ := hvalid.1 hok
    exact absurd hopens (hclosed setup schema)

/-- A project with a file where its output directory should be. -/
def blockedDisk : Disk :=
  { noteDisk with entries := (["dist"], .file []) :: noteDisk.entries }

/-- A project whose data file asks for a block that is not defined. -/
def brokenDisk : Disk where
  workDir := []
  entries := [
    (["schema.yaml"], textFile
      "blocks:\n- magic: NOTE\n  minversion: 1\n  maxversion: 1"),
    (["a.rcd.yaml"], textFile
      "files:\n- target: a\n  blocks:\n  - magic: CARD\n    version: 1")]

/-- The first project is valid, and its build fails without writing to
what it reads. -/
theorem blocked_runs :
    ((⟨false, .validate {}⟩ : Invocation).run blockedDisk).1.isOk = true ∧
    ((⟨false, .build {} none⟩ : Invocation).run blockedDisk).1.isOk =
      false ∧
    ({} : ProjectOptions).WritesApart none blockedDisk
      ((⟨false, .build {} none⟩ : Invocation).run blockedDisk).2.disk := by
  decide +kernel

/-- The second project is not valid, and its build neither writes to what
it reads nor makes it. -/
theorem broken_runs :
    ((⟨false, .validate {}⟩ : Invocation).run brokenDisk).1.isOk = false ∧
    ({} : ProjectOptions).WritesApart none brokenDisk
      ((⟨false, .build {} none⟩ : Invocation).run brokenDisk).2.disk ∧
    ({} : ProjectOptions).FindsNoMore brokenDisk
      ((⟨false, .build {} none⟩ : Invocation).run brokenDisk).2.disk := by
  decide +kernel

/-- The first project is valid and its build fails in writing; the second
one is not valid and its build fails too. -/
theorem validate_predicts_build_notes :
    ((∃ setup schema, ({} : ProjectOptions).Opens blockedDisk setup
        schema) ∧
      ∃ e, ((⟨false, .build {} none⟩ : Invocation).run blockedDisk).1 =
        .error e ∧ e.IsOfWriting) ∧
    ∃ e, ((⟨false, .build {} none⟩ : Invocation).run brokenDisk).1 =
      .error e := by
  obtain ⟨hvalid, hbuild, hapart⟩ := blocked_runs
  obtain ⟨hinvalid, hapart', hstays⟩ := broken_runs
  obtain ⟨u, hu⟩ := isOk_iff.1 hvalid
  obtain ⟨e, he⟩ := isOk_eq_false_iff.1 hbuild
  have hblocked := validate_predicts_build false false {} none blockedDisk
  have hbroken := validate_predicts_build false false {} none brokenDisk
  obtain ⟨setup, schema, hopens, -⟩ := hblocked.1.1 hu
  exact ⟨⟨⟨setup, schema, hopens⟩, e, he, (hblocked.2 hapart).1 hu e he⟩,
    (hbroken.2 hapart').2 hstays (isOk_eq_false_iff.1 hinvalid)⟩

/-- A project of icons. Its second data file names its sheet by a detour
through the output directory, which is missing at first. -/
def detourDisk : Disk where
  workDir := []
  entries := [
    (["schema.yaml"], textFile
      ("blocks:\n- magic: ICON\n  minversion: 1\n  maxversion: 1\n" ++
        "  fields:\n  - name: icon\n    type: sprite")),
    (["s.png"], .file ((Bitmap.encodePng Compiler.pixel).toOption.getD [])),
    (["a.rcd.yaml"], textFile "files:\n- target: a"),
    (["b.rcd.yaml"], textFile
      ("files:\n- target: b\n  blocks:\n  - magic: ICON\n    version: 1\n" ++
        "    fields:\n      icon:\n        sheet: dist/../s.png"))]

/-- The options that name its data files. -/
def detourOptions : ProjectOptions :=
  { data := [⟨"a.rcd.yaml"⟩, ⟨"b.rcd.yaml"⟩] }

/-- No target leads to a file that is read and this project is not valid,
but its build succeeds: writing the first output makes the directory. -/
theorem validate_predicts_build_detour :
    ((⟨false, .validate detourOptions⟩ : Invocation).run
      detourDisk).1.isOk = false ∧
    ((⟨false, .build detourOptions none⟩ : Invocation).run
      detourDisk).1.isOk = true ∧
    detourOptions.WritesApart none detourDisk
      ((⟨false, .build detourOptions none⟩ : Invocation).run
        detourDisk).2.disk := by
  decide +kernel

end Invocation

end GamePack
