import GamePack.Command.Run
import GamePack.Proofs.Command.Steps
import GamePack.Proofs.Compilation.Twins
import GamePack.Proofs.Compilation.Writing

/-!
What a build does. `Builds` says how it goes over the data files: each is
read from the disk that the earlier ones left, compiled by the compiler
that they left, and its files are written, until a step fails. Files are
never taken away, and what a file holds is only changed by writing to its
place. So in the end every target has what was written last to the place
it leads to, which is its own file unless a later output goes there too.
-/
namespace GamePack

open Disk

-- ============================================================= reading

/-- A data file knows the path it was loaded from. -/
theorem DataFile.path_of_load {d : Disk} {path : Path} {data : DataFile}
    (h : DataFile.load d path = .ok data) : data.path = path := by
  simp only [DataFile.load, bind_eq_ok] at h
  obtain ⟨text, -, read, -, h⟩ := h
  obtain rfl := pure_ok_iff.1 h
  rfl

/-- Compiling a data file that can be loaded is compiling what it holds.
-/
theorem Compiler.compileFile_of_load {c : Compiler} {d : Disk}
    {path : Path} {data : DataFile} (h : DataFile.load d path = .ok data) :
    c.compileFile d path = c.compileData (Bitmap.load d) data := by
  unfold compileFile
  rw [h]

/-- A data file that cannot be loaded fails with that and leaves the
compiler as it is. -/
theorem Compiler.compileFile_of_load_error {c : Compiler} {d : Disk}
    {path : Path} {e : Error} (h : DataFile.load d path = .error e) :
    c.compileFile d path = (.error e, c) := by
  unfold compileFile
  rw [h]

-- ============================================================ building

/-- How building data files goes: with a compiler and a disk to start
from, what was built or why it failed, and the disk that is left. -/
inductive Builds : Compiler → Disk → List Path →
    Except Error (List (DataFile × List CompiledFile)) → Disk → Prop where
  | done (c : Compiler) (d : Disk) : Builds c d [] (.ok []) d
  /-- A data file cannot be loaded. -/
  | unread {c : Compiler} {d : Disk} {path : Path} {paths : List Path}
      {e : Error} (hload : DataFile.load d path = .error e) :
      Builds c d (path :: paths) (.error e) d
  /-- An output of a data file cannot be compiled. -/
  | uncompiled {c c' : Compiler} {d : Disk} {path : Path}
      {paths : List Path} {data : DataFile} {e : Error}
      (hload : DataFile.load d path = .ok data)
      (hcompile : c.compileData (Bitmap.load d) data = (.error e, c')) :
      Builds c d (path :: paths) (.error e) d
  /-- A compiled file cannot be written. -/
  | unwritten {c c' : Compiler} {d d' : Disk} {path : Path}
      {paths : List Path} {data : DataFile} {files : List CompiledFile}
      {e : Error} (hload : DataFile.load d path = .ok data)
      (hcompile : c.compileData (Bitmap.load d) data = (.ok files, c'))
      (hwrite : CompiledFile.writeAll files d = (.error e, d')) :
      Builds c d (path :: paths) (.error e) d'
  /-- All files of a data file are written, and the build goes on. -/
  | step {c c' : Compiler} {d d₁ d' : Disk} {path : Path}
      {paths : List Path} {data : DataFile} {files : List CompiledFile}
      {r : Except Error (List (DataFile × List CompiledFile))}
      (hload : DataFile.load d path = .ok data)
      (hcompile : c.compileData (Bitmap.load d) data = (.ok files, c'))
      (hwrite : CompiledFile.writeAll files d = (.ok (), d₁))
      (hrest : Builds c'.takeDiagnostics.2 d₁ paths r d') :
      Builds c d (path :: paths) (r.map ((data, files) :: ·)) d'

/-- The files of a build in the order they were written. -/
def builtFiles (rows : List (DataFile × List CompiledFile)) :
    List CompiledFile :=
  rows.flatMap Prod.snd

namespace Builds

variable {c : Compiler} {d d' : Disk} {paths : List Path}
  {r : Except Error (List (DataFile × List CompiledFile))}
  {rows : List (DataFile × List CompiledFile)}

/-- A build is finished when it wrote all its files. -/
theorem writeAll (h : Builds c d paths (.ok rows) d') :
    CompiledFile.writeAll (builtFiles rows) d = (.ok (), d') := by
  generalize hr : Except.ok rows = r at h
  induction h generalizing rows with
  | done c d =>
      cases hr
      rfl
  | unread hload => cases hr
  | uncompiled hload hcompile => cases hr
  | unwritten hload hcompile hwrite => cases hr
  | step hload hcompile hwrite hrest ih =>
      obtain ⟨more, rfl, rfl⟩ := map_eq_ok.1 hr.symm
      exact CompiledFile.writeAll_append_ok.2 ⟨_, hwrite, ih rfl⟩

/-- Every data file was built, in order. -/
theorem paths_eq (h : Builds c d paths (.ok rows) d') :
    rows.map (fun row => row.1.path) = paths := by
  generalize hr : Except.ok rows = r at h
  induction h generalizing rows with
  | done c d =>
      cases hr
      rfl
  | unread hload => cases hr
  | uncompiled hload hcompile => cases hr
  | unwritten hload hcompile hwrite => cases hr
  | step hload hcompile hwrite hrest ih =>
      obtain ⟨more, rfl, rfl⟩ := map_eq_ok.1 hr.symm
      rw [List.map_cons, ih rfl, DataFile.path_of_load hload]

/-- Every output of a data file was built, in order, for its target. -/
theorem targets_eq (h : Builds c d paths (.ok rows) d') :
    ∀ row ∈ rows, row.2.map CompiledFile.target =
      row.1.outputs.map fun output =>
        Compiler.targetOf c.options output.target := by
  generalize hr : Except.ok rows = r at h
  induction h generalizing rows with
  | done c d =>
      cases hr
      exact fun row hrow => absurd hrow List.not_mem_nil
  | unread hload => cases hr
  | uncompiled hload hcompile => cases hr
  | unwritten hload hcompile hwrite => cases hr
  | step hload hcompile hwrite hrest ih =>
      obtain ⟨more, rfl, rfl⟩ := map_eq_ok.1 hr.symm
      obtain ⟨htargets, -, hoptions⟩ :=
        Compiler.targets_of_compileOutputs hcompile
      refine List.forall_mem_cons.2 ⟨htargets, ?_⟩
      rw [← hoptions]
      exact ih rfl

end Builds

-- ============================================================= actions

namespace Action

/-- Writing a file does to the disk what writing it means, and says so.
-/
theorem does_writeFile (f : CompiledFile) (s : Session) :
    Does (writeFile f) s (f.write s.disk) := by
  refine (does_forM (fun _ => does_sayDetail _ _) s).bind fun s₁ h₁ => ?_
  rw [← h₁]
  have hwrites := does_onDisk f.write s₁
  rcases hwrite : f.write s₁.disk with ⟨r, d⟩
  rw [hwrite] at hwrites
  cases r with
  | error e => exact hwrites.bind_error
  | ok u =>
      refine hwrites.bind fun s₂ h₂ => ?_
      refine (does_shown _ s₂).bind fun s₃ h₃ => ?_
      rw [← h₂, ← h₃]
      exact does_say _ _ s₃

/-- Writing files does to the disk what writing them one after the other
means. -/
theorem does_writeFiles (files : List CompiledFile) (s : Session) :
    Does (files.forM writeFile) s
      (CompiledFile.writeAll files s.disk) := by
  induction files generalizing s with
  | nil => exact does_pure () s
  | cons f files ih =>
      rw [List.forM_eq_forM, List.forM_cons, CompiledFile.writeAll]
      have hwrites := does_writeFile f s
      rcases hwrite : f.write s.disk with ⟨r, d⟩
      rw [hwrite] at hwrites
      cases r with
      | error e => exact hwrites.bind_error
      | ok u =>
          refine hwrites.bind fun s₁ h₁ => ?_
          dsimp only
          rw [← h₁]
          exact ih s₁

/-- Building a row of data files starts with compiling the first. A
panic in this ends the build as a failure does. -/
theorem does_buildFiles_cons {c : Compiler} {path : Path}
    {paths : List Path} {written : Nat} {s : Session}
    {r : Except Error Nat × Disk}
    (h : ∀ s', s'.disk = s.disk → Does (do
        let files ← ofExcept (c.compileFile s.disk path).1
        files.forM writeFile
        buildFiles (c.compileFile s.disk path).2.takeDiagnostics.2
          (written + files.length) paths) s' r) :
    Does (buildFiles c written (path :: paths)) s r := by
  refine (does_shown path s).bind fun s₁ h₁ => ?_
  refine (does_say _ _ s₁).bind fun s₂ h₂ => ?_
  have hdisk : s₂.disk = s.disk := h₂.trans h₁
  have hcompile := does_compileFile c path s₂
  rw [hdisk] at hcompile
  cases hcaught : Error.caught (c.compileFile s.disk path).1 with
  | error e =>
      rw [hcaught] at hcompile
      obtain ⟨step, -, hpanic⟩ := Error.caught_eq_error_iff.1 hcaught
      have hfails := h s₂ hdisk
      rw [hpanic] at hfails
      rw [hfails.unique (does_throw e s₂).bind_error, hdisk]
      exact hcompile.bind_error
  | ok result =>
      rw [hcaught] at hcompile
      obtain ⟨rfl, -⟩ := Error.caught_eq_ok_iff.1 hcaught
      exact hcompile.bind h

/-- Building data files goes one of the ways that it can go, and counts
the files that it writes. -/
theorem builds_buildFiles (c : Compiler) (paths : List Path) (d : Disk) :
    ∃ r d', Builds c d paths r d' ∧ ∀ written s, s.disk = d →
      Does (buildFiles c written paths) s
        (r.map fun rows => written + (builtFiles rows).length, d') := by
  induction paths generalizing c d with
  | nil =>
      refine ⟨_, _, .done c d, ?_⟩
      rintro written s rfl
      exact does_pure _ s
  | cons path paths ih =>
      cases hload : DataFile.load d path with
      | error e =>
          refine ⟨_, _, .unread hload, ?_⟩
          rintro written s rfl
          refine does_buildFiles_cons fun s₁ h₁ => ?_
          rw [c.compileFile_of_load_error hload, ← h₁]
          exact (does_throw e s₁).bind_error
      | ok data =>
          rcases hcompile : c.compileData (Bitmap.load d) data with ⟨r, c'⟩
          have hfile := (c.compileFile_of_load hload).trans hcompile
          cases r with
          | error e =>
              refine ⟨_, _, .uncompiled hload hcompile, ?_⟩
              rintro written s rfl
              refine does_buildFiles_cons fun s₁ h₁ => ?_
              rw [hfile, ← h₁]
              exact (does_throw e s₁).bind_error
          | ok files =>
              rcases hwrite : CompiledFile.writeAll files d with ⟨r, d₁⟩
              have hwrites : ∀ s', s'.disk = d →
                  Does (files.forM writeFile) s' (r, d₁) := by
                rintro s' rfl
                rw [← hwrite]
                exact does_writeFiles files s'
              cases r with
              | error e =>
                  refine ⟨_, _, .unwritten hload hcompile hwrite, ?_⟩
                  rintro written s rfl
                  refine does_buildFiles_cons fun s₁ h₁ => ?_
                  rw [hfile]
                  refine (does_pure files s₁).bind fun s₂ h₂ => ?_
                  exact (hwrites s₂ (h₂.trans h₁)).bind_error
              | ok u =>
                  obtain ⟨r, d', hrest, hdoes⟩ :=
                    ih c'.takeDiagnostics.2 d₁
                  refine ⟨_, d', .step hload hcompile hwrite hrest, ?_⟩
                  rintro written s rfl
                  refine does_buildFiles_cons fun s₁ h₁ => ?_
                  rw [hfile]
                  refine (does_pure files s₁).bind fun s₂ h₂ => ?_
                  refine (hwrites s₂ (h₂.trans h₁)).bind fun s₃ h₃ => ?_
                  have hmore := hdoes (written + files.length) s₃ h₃
                  cases r with
                  | error e => exact hmore
                  | ok rows =>
                      have hcount : written +
                          (builtFiles ((data, files) :: rows)).length =
                          written + files.length +
                            (builtFiles rows).length := by
                        simp [builtFiles, Nat.add_assoc]
                      rw [Except.map, Except.map, hcount]
                      exact hmore

end Action

-- ============================================================ projects

/-- The project that options ask for can be set up, and its schema can be
loaded and has no conflicts. -/
structure ProjectOptions.Opens (o : ProjectOptions) (d : Disk)
    (setup : ProjectSetup) (schema : Schema) : Prop where
  setUp : o.setUp d = .ok setup
  load : Schema.load d setup.schema = .ok schema
  clean : (checkSchema schema).hasErrors = false

/-- A disk holds one project. -/
theorem ProjectOptions.Opens.unique {o : ProjectOptions} {d : Disk}
    {setup setup' : ProjectSetup} {schema schema' : Schema}
    (h : o.Opens d setup schema) (h' : o.Opens d setup' schema') :
    setup = setup' ∧ schema = schema' := by
  cases h.setUp.symm.trans h'.setUp
  cases h.load.symm.trans h'.load
  exact ⟨rfl, rfl⟩

/-- The compiler of a project, for outputs that go to a directory. -/
def ProjectSetup.compiler (setup : ProjectSetup) (schema : Schema)
    (outputDir : Path) : Compiler :=
  { schema, options := setup.buildOptions outputDir }

namespace Action

variable {α : Type} {o : ProjectOptions} {s s' : Session}

/-- The commands that work on a project open it first and end if they
cannot. -/
theorem outcome_opening (o : ProjectOptions)
    (f : ProjectSetup → Schema → Action α) (s : Session) :
    (∃ setup schema s₁, o.Opens s.disk setup schema ∧ s₁.disk = s.disk ∧
      (do
        let setup ← ofExcept (o.setUp (← get).disk)
        let schema ← loadSchema setup.schema
        f setup schema).outcome s = (f setup schema).outcome s₁) ∨
    (∀ setup schema, ¬ o.Opens s.disk setup schema) ∧
      ∃ e, Does (do
        let setup ← ofExcept (o.setUp (← get).disk)
        let schema ← loadSchema setup.schema
        f setup schema) s (.error e, s.disk) := by
  cases hsetup : o.setUp s.disk with
  | error e =>
      refine .inr ⟨fun setup schema hopens => ?_, e, does_get ?_⟩
      · cases hsetup.symm.trans hopens.setUp
      · rw [hsetup]
        exact (does_throw e s).bind_error
  | ok setup =>
      obtain ⟨r, hloads, hschema⟩ := does_loadSchema setup.schema s
      have hsame : ∀ setup' schema, o.Opens s.disk setup' schema →
          r = .ok schema := by
        intro setup' schema hopens
        cases hsetup.symm.trans hopens.setUp
        exact (hschema schema).2 ⟨hopens.load, hopens.clean⟩
      cases r with
      | error e =>
          refine .inr ⟨fun setup' schema hopens => ?_, e, does_get ?_⟩
          · cases hsame setup' schema hopens
          · rw [hsetup, ofExcept, pure_bind]
            exact hloads.bind_error
      | ok schema =>
          obtain ⟨hload, hclean⟩ := (hschema schema).1 rfl
          obtain ⟨s₁, hrun, hdisk⟩ := hloads
          refine .inl ⟨setup, schema, s₁, ⟨hsetup, hload, hclean⟩, hdisk,
            ?_⟩
          have hget : (get : Action Session).outcome s = (.ok s, s) := rfl
          rw [outcome_bind_of_ok hget, hsetup, ofExcept, pure_bind,
            outcome_bind_of_ok hrun]

/-- What is said when a build is finished. -/
def finishedLine (written : Nat) (outputDir : Path) (d : Disk) : String :=
  let counted := plural written "RCD file" "RCD files"
  alignRight verbWidth "Finished" ++ " " ++
    s!"{counted} in {Path.shown d.workPath outputDir}"

/-- The last line of a build tells how many files there are, and changes
nothing else. -/
theorem outcome_sayFinished (written : Nat) (outputDir : Path)
    (s : Session) :
    ∃ s', (do
        let counted := plural written "RCD file" "RCD files"
        say "Finished" s!"{counted} in {← shown outputDir}").outcome s =
        (.ok (), s') ∧ s'.disk = s.disk ∧
      s'.progress.getLast? =
        some (finishedLine written outputDir s'.disk) :=
  ⟨_, rfl, rfl, List.getLast?_concat⟩

/-- A build opens its project, builds the data files, and in the end says
how many files it wrote; a project that cannot be opened is left as it
is. -/
theorem build_outcome {output : Option Path} {r : Except Error Unit}
    (h : (build o output).outcome s = (r, s')) :
    (∃ setup schema rows, o.Opens s.disk setup schema ∧
      Builds (setup.compiler schema (output.getD setup.outputDir)) s.disk
        setup.dataFiles rows s'.disk ∧ r = rows.map (fun _ => ()) ∧
      (∀ built, rows = .ok built → setup.dataFiles ≠ [] →
        s'.progress.getLast? = some (finishedLine (builtFiles built).length
          (output.getD setup.outputDir) s'.disk))) ∨
    (∀ setup schema, ¬ o.Opens s.disk setup schema) ∧
      ∃ e, r = .error e ∧ s'.disk = s.disk := by
  rcases outcome_opening o (fun setup schema => do
      if setup.dataFiles.isEmpty then
        say "Skipping" "no data files found"
      else
        let outputDir := output.getD setup.outputDir
        let options := setup.buildOptions outputDir
        let written ← buildFiles { schema, options } 0 setup.dataFiles
        let counted := plural written "RCD file" "RCD files"
        say "Finished" s!"{counted} in {← shown outputDir}") s with
    ⟨setup, schema, s₁, hopens, hdisk, hrun⟩ | ⟨hclosed, e, hdoes⟩
  · refine .inl ⟨setup, schema, ?_⟩
    replace h := hrun.symm.trans h
    split at h
    next hnone =>
      have hpaths : setup.dataFiles = [] := List.isEmpty_iff.1 hnone
      obtain ⟨rfl, hsame⟩ := Prod.ext_iff.1 ((does_say _ _ s₁).eq h)
      have hleft : s'.disk = s.disk := hsame.symm.trans hdisk
      refine ⟨.ok [], hopens, ?_, rfl, fun _ _ hne => absurd hpaths hne⟩
      rw [hpaths, hleft]
      exact .done _ _
    next hsome =>
      obtain ⟨rows, d, hbuilds, hdoes⟩ := builds_buildFiles
        (setup.compiler schema (output.getD setup.outputDir))
        setup.dataFiles s.disk
      obtain ⟨s₂, hbuild, hdisk₂⟩ := hdoes 0 s₁ hdisk
      cases rows with
      | error e =>
          have hstop := (outcome_bind_of_error hbuild).symm.trans h
          obtain ⟨rfl, rfl⟩ := Prod.ext_iff.1 hstop
          rw [← show s₂.disk = d from hdisk₂] at hbuilds
          exact ⟨_, hopens, hbuilds, rfl, fun _ hrows => by cases hrows⟩
      | ok built =>
          obtain ⟨s₃, hsaid, hdisk₃, hline⟩ := outcome_sayFinished
            (0 + (builtFiles built).length) (output.getD setup.outputDir) s₂
          have hfinish := (outcome_bind_of_ok hbuild).symm.trans h
          obtain ⟨rfl, rfl⟩ := Prod.ext_iff.1 (hsaid.symm.trans hfinish)
          rw [← show s₃.disk = d from hdisk₃.trans hdisk₂] at hbuilds
          refine ⟨_, hopens, hbuilds, rfl, ?_⟩
          rintro _ hrows -
          cases hrows
          rw [Nat.zero_add] at hline
          exact hline
  · obtain ⟨rfl, hdisk⟩ := Prod.ext_iff.1 (hdoes.eq h)
    exact .inr ⟨hclosed, e, rfl, hdisk.symm⟩

end Action

-- ============================================================= outputs

namespace Invocation

/-- A build that succeeds loads and compiles every data file and writes
each of its outputs to its target. In the end the file at a target holds
what was written last to the place that the target leads to: the bytes of
its own output, unless the target of a later output leads to the same
place. As many files are reported as outputs were written. -/
theorem outputs_of_build {verbose : Bool} {o : ProjectOptions}
    {output : Option Path} {disk : Disk} {s' : Session}
    (h : (⟨verbose, .build o output⟩ : Invocation).run disk =
      (.ok (), s')) :
    ∃ setup schema rows, o.Opens disk setup schema ∧
      Builds (setup.compiler schema (output.getD setup.outputDir)) disk
        setup.dataFiles (.ok rows) s'.disk ∧
      rows.map (fun row => row.1.path) = setup.dataFiles ∧
      (∀ row ∈ rows, row.2.map CompiledFile.target =
        row.1.outputs.map fun spec =>
          (output.getD setup.outputDir).join spec.target) ∧
      (∀ file ∈ builtFiles rows, ∃ before last after bytes,
        builtFiles rows = before ++ last :: after ∧
        s'.disk.SamePlace last.target file.target ∧
        (∀ later ∈ after,
          ¬ s'.disk.SamePlace later.target file.target) ∧
        last.container.toBytes = .ok bytes ∧
        s'.disk.read file.target = .ok bytes) ∧
      (setup.dataFiles ≠ [] → s'.progress.getLast? =
        some (Action.finishedLine (builtFiles rows).length
          (output.getD setup.outputDir) s'.disk)) := by
  rcases Action.build_outcome h with
    ⟨setup, schema, r, hopens, hbuilds, hr, hline⟩ | ⟨-, e, he, -⟩
  · obtain ⟨rows, rfl, -⟩ := map_eq_ok.1 hr.symm
    refine ⟨setup, schema, rows, hopens, hbuilds, hbuilds.paths_eq,
      hbuilds.targets_eq, fun file hfile => ?_, hline rows rfl⟩
    have hwritten := hbuilds.writeAll
    obtain ⟨names, hlocate⟩ :=
      CompiledFile.locate_of_writeAll hwritten hfile
    have hleads : s'.disk.LeadsTo file.target names := ⟨_, hlocate⟩
    obtain ⟨before, last, after, bytes, hrow, hlast, hnone, hbytes, hnode⟩ :=
      CompiledFile.last_of_writeAll hwritten ⟨file, hfile, hleads⟩
    refine ⟨before, last, after, bytes, hrow, ⟨names, hlast, hleads⟩, ?_,
      hbytes, read_ok_iff.2 ⟨names, hlocate, hnode⟩⟩
    rintro later hlater ⟨other, hother, hsame⟩
    exact hnone later hlater (hleads.unique hsame ▸ hother)
  · cases he

/-- A file of a text. -/
def textFile (text : String) : DiskNode :=
  .file text.toUTF8.data.toList

/-- A project whose only data file has two outputs for one target, the
first of one block and the second of none. -/
def noteDisk : Disk where
  workDir := []
  entries := [
    (["schema.yaml"], textFile
      "blocks:\n- magic: NOTE\n  minversion: 1\n  maxversion: 1"),
    (["a.rcd.yaml"], textFile
      ("files:\n- target: a\n  blocks:\n  - magic: NOTE\n    version: 1\n" ++
        "- target: a"))]

/-- Building this project. -/
def noteBuild : Except Error Unit × Session :=
  (⟨false, .build {} none⟩ : Invocation).run noteDisk

/-- The targets and the bytes of its outputs. -/
def noteOutputs : Except Error (List (Path × Except Error Bytes)) := do
  let setup ← ({} : ProjectOptions).setUp noteDisk
  let schema ← Schema.load noteDisk setup.schema
  let files ← ((setup.compiler schema setup.outputDir).compileFile noteDisk
    ⟨"././a.rcd.yaml"⟩).1
  return files.map fun f => (f.target, f.container.toBytes)

/-- The bytes of a file without blocks. -/
def noNotes : Bytes := [82, 67, 68, 70, 1, 0, 0, 0]

/-- The bytes of a file with an empty block. -/
def oneNote : Bytes :=
  noNotes ++ [78, 79, 84, 69, 1, 0, 0, 0, 0, 0, 0, 0]

/-- The build succeeds; of two outputs with one target the file of the
second one is there. -/
theorem noteBuild_noteOutputs :
    (noteBuild.1.isOk = true ∧
      noteBuild.2.disk.read ⟨"./dist/a"⟩ = .ok noNotes) ∧
    noteOutputs = .ok
      [(⟨"./dist/a"⟩, .ok oneNote), (⟨"./dist/a"⟩, .ok noNotes)] := by
  decide +kernel

/-- The build ends in some session without a failure. -/
theorem exists_noteBuild : ∃ s', noteBuild = (.ok (), s') := by
  obtain ⟨⟨hok, -⟩, -⟩ := noteBuild_noteOutputs
  obtain ⟨u, hu⟩ := isOk_iff.1 hok
  exact ⟨_, Prod.ext hu rfl⟩

/-- The build succeeds and leaves what was written last at the target of
both outputs. -/
theorem outputs_of_build_notes :
    ∃ s', (⟨false, .build {} none⟩ : Invocation).run noteDisk =
        (.ok (), s') ∧
      ∃ setup schema rows, ({} : ProjectOptions).Opens noteDisk setup
          schema ∧
        rows.map (fun row => row.1.path) = setup.dataFiles ∧
        ∀ file ∈ builtFiles rows, ∃ last ∈ builtFiles rows, ∃ bytes,
          s'.disk.SamePlace last.target file.target ∧
          last.container.toBytes = .ok bytes ∧
          s'.disk.read file.target = .ok bytes := by
  obtain ⟨s', hrun⟩ := exists_noteBuild
  obtain ⟨setup, schema, rows, hopens, -, hpaths, -, hfiles, -⟩ :=
    outputs_of_build hrun
  refine ⟨s', hrun, setup, schema, rows, hopens, hpaths, ?_⟩
  intro file hfile
  obtain ⟨before, last, after, bytes, hrow, hsame, -, hbytes, hread⟩ :=
    hfiles file hfile
  refine ⟨last, ?_, bytes, hsame, hbytes, hread⟩
  rw [hrow]
  exact List.mem_append_right before List.mem_cons_self

/-- The build succeeds, but what its first output holds is not at the
target of this output. -/
theorem outputs_of_build_replaced :
    noteBuild.1.isOk = true ∧ ∃ target bytes later,
      noteOutputs = .ok [(target, .ok bytes), (target, .ok later)] ∧
      noteBuild.2.disk.read target = .ok later ∧ later ≠ bytes := by
  obtain ⟨⟨hok, hread⟩, houtputs⟩ := noteBuild_noteOutputs
  exact ⟨hok, _, _, _, houtputs, hread, by decide⟩

end Invocation

end GamePack
