import GamePack.Proofs.Command.Validating

/-!
What a build leaves that fails. A build goes over its data files one by
one, and of each it compiles all outputs before it writes the first. So
when a data file cannot be loaded or compiled, whatever the reason and
however far it got, the disk is the one that the data files in front of
it left. `Reaches` is that way up to a data file; every failing build
takes it to the data file that it stops at.
-/
namespace GamePack

open Disk

-- ============================================================ the way

/-- A build comes past data files: each of them was compiled and all its
files were written. It goes on with a compiler and a disk. -/
inductive Reaches : Compiler → Disk → List Path →
    List (DataFile × List CompiledFile) → Compiler → Disk → Prop where
  | start (c : Compiler) (d : Disk) : Reaches c d [] [] c d
  | step {c c₁ c' : Compiler} {d d₁ d' : Disk} {path : Path}
      {paths : List Path} {data : DataFile} {files : List CompiledFile}
      {rows : List (DataFile × List CompiledFile)}
      (hload : DataFile.load d path = .ok data)
      (hcompile : c.compileData (Bitmap.load d) data = (.ok files, c₁))
      (hwrite : CompiledFile.writeAll files d = (.ok (), d₁))
      (hrest : Reaches c₁.takeDiagnostics.2 d₁ paths rows c' d') :
      Reaches c d (path :: paths) ((data, files) :: rows) c' d'

variable {c c' : Compiler} {d d' : Disk} {paths : List Path}
  {rows : List (DataFile × List CompiledFile)} {e : Error}

/-- The data files that a build came past are built by themselves. -/
theorem Reaches.builds (h : Reaches c d paths rows c' d') :
    Builds c d paths (.ok rows) d' := by
  induction h with
  | start c d => exact .done c d
  | step hload hcompile hwrite _ ih =>
      exact .step hload hcompile hwrite ih

/-- A build that fails comes to a data file that cannot be loaded or
compiled, and leaves the disk as it is by then, or to one of which a file
cannot be written. -/
theorem Builds.stops (h : Builds c d paths (.error e) d') :
    ∃ before path after rows c₁ d₁, paths = before ++ path :: after ∧
      Reaches c d before rows c₁ d₁ ∧
      ((c₁.compileFile d₁ path).1 = .error e ∧ d' = d₁ ∨
        ∃ files, (c₁.compileFile d₁ path).1 = .ok files ∧
          CompiledFile.writeAll files d₁ = (.error e, d')) := by
  generalize hr : Except.error e = r at h
  induction h with
  | done c d => cases hr
  | @unread c d path paths cause hload =>
      cases hr
      refine ⟨[], path, paths, [], c, d, rfl, .start c d, .inl ⟨?_, rfl⟩⟩
      rw [c.compileFile_of_load_error hload]
  | @uncompiled c _ d path paths data cause hload hcompile =>
      cases hr
      refine ⟨[], path, paths, [], c, d, rfl, .start c d, .inl ⟨?_, rfl⟩⟩
      rw [c.compileFile_of_load hload, hcompile]
  | @unwritten c _ d _ path paths data files cause hload hcompile hwrite =>
      cases hr
      refine ⟨[], path, paths, [], c, d, rfl, .start c d,
        .inr ⟨files, ?_, hwrite⟩⟩
      rw [c.compileFile_of_load hload, hcompile]
  | @step _ _ _ _ _ path _ _ _ _ hload hcompile hwrite _ ih =>
      obtain ⟨before, stop, after, rows, c₁, d₁, rfl, hreaches, hstop⟩ :=
        ih (map_eq_error.1 hr.symm).symm
      exact ⟨path :: before, stop, after, _, c₁, d₁, rfl,
        .step hload hcompile hwrite hreaches, hstop⟩

/-- The files of a data file fail to be written only as files do that
were compiled. -/
theorem Compiler.isOfWriting_of_write {path : Path} {f : CompiledFile}
    {files : List CompiledFile} {d₁ : Disk}
    (hfiles : (c.compileFile d path).1 = .ok files) (hf : f ∈ files)
    (hfails : f.write d₁ = (.error e, d')) : e.IsOfWriting := by
  obtain ⟨data, -, hcompile⟩ :=
    Compiler.compileFile_ok_iff.1 (Prod.ext hfiles rfl)
  obtain ⟨c₁, output, houtput⟩ :=
    Compiler.exists_of_mem_compileOutputs hcompile f hf
  exact (CompiledFile.write_error hfails).1.isOfWriting houtput

-- ============================================================ outcomes

namespace Invocation

/-- A build that fails has not opened its project, and leaves the disk as
it is, or it stops at a data file. The data files in front of it are
built: their targets have all bytes of their outputs. If the data file
cannot be loaded or compiled, nothing else is on the disk that was not
there before, but for the directories above those targets. Otherwise one
of its outputs cannot be written, and if that is because the output has
no bytes, the disk is as it was when the outputs before it were
written. -/
theorem stop_of_build {verbose : Bool} {o : ProjectOptions}
    {output : Option Path} {disk : Disk} {s' : Session} {e : Error}
    (h : (⟨verbose, .build o output⟩ : Invocation).run disk =
      (.error e, s')) :
    (∀ setup schema, ¬ o.Opens disk setup schema) ∧ s'.disk = disk ∨
    ∃ setup schema before path after rows c d,
      o.Opens disk setup schema ∧
      setup.dataFiles = before ++ path :: after ∧
      Reaches (setup.compiler schema (output.getD setup.outputDir)) disk
        before rows c d ∧
      rows.map (fun row => row.1.path) = before ∧
      (∀ row ∈ rows, row.2.map CompiledFile.target =
        row.1.outputs.map fun spec =>
          (output.getD setup.outputDir).join spec.target) ∧
      ((c.compileFile d path).1 = .error e ∧ s'.disk = d ∧
          CompiledFile.Leaves (builtFiles rows) disk s'.disk ∨
        ∃ done file rest d₁,
          (c.compileFile d path).1 = .ok (done ++ file :: rest) ∧
          CompiledFile.Leaves (builtFiles rows ++ done) disk d₁ ∧
          file.write d₁ = (.error e, s'.disk) ∧
          ∀ cause, file.container.toBytes = .error cause →
            s'.disk = d₁) := by
  rcases Action.build_outcome h with
    ⟨setup, schema, r, hopens, hbuilds, hr, -⟩ | ⟨hclosed, _, -, hsame⟩
  · rw [map_eq_error.1 hr.symm] at hbuilds
    obtain ⟨before, path, after, rows, c, d, hpaths, hreaches, hstop⟩ :=
      hbuilds.stops
    have hbuilt := hreaches.builds
    refine .inr ⟨setup, schema, before, path, after, rows, c, d, hopens,
      hpaths, hreaches, hbuilt.paths_eq, hbuilt.targets_eq, ?_⟩
    rcases hstop with ⟨hfails, hleft⟩ | ⟨files, hfiles, hwrite⟩
    · rw [hleft]
      exact .inl ⟨hfails, rfl,
        CompiledFile.leaves_of_writeAll hbuilt.writeAll⟩
    · obtain ⟨done, file, rest, d₁, rfl, hdone, hfails⟩ :=
        CompiledFile.writeAll_error hwrite
      have hwritten := CompiledFile.writeAll_append_ok.2
        ⟨d, hbuilt.writeAll, hdone⟩
      refine .inr ⟨done, file, rest, d₁, hfiles,
        CompiledFile.leaves_of_writeAll hwritten, hfails, ?_⟩
      intro cause hcause
      rw [CompiledFile.write_of_toBytes_error hcause] at hfails
      exact (Prod.ext_iff.1 hfails).2.symm
  · exact .inl ⟨hclosed, hsame⟩

/-- A project of two data files. The second one has two outputs, of which
the last one asks for a block that is not defined. -/
def cardDisk : Disk where
  workDir := []
  entries := [
    (["schema.yaml"], textFile
      "blocks:\n- magic: NOTE\n  minversion: 1\n  maxversion: 1"),
    (["a.rcd.yaml"], textFile
      "files:\n- target: a\n  blocks:\n  - magic: NOTE\n    version: 1"),
    (["b.rcd.yaml"], textFile
      ("files:\n- target: b\n" ++
        "- target: c\n  blocks:\n  - magic: CARD\n    version: 1"))]

/-- Building this project. -/
def cardBuild : Except Error Unit × Session :=
  (⟨false, .build { data := [⟨"a.rcd.yaml"⟩, ⟨"b.rcd.yaml"⟩] } none⟩ :
    Invocation).run cardDisk

/-- The build fails for the unknown block, and the output of the first
data file is all it leaves. -/
theorem cardBuild_files :
    cardBuild.1 = .error (.schema (.unknownMagic "CARD")) ∧
    cardDisk.filesSince cardDisk = [] ∧
    cardDisk.filesSince cardBuild.2.disk = [(["dist", "a"], oneNote)] := by
  decide +kernel

/-- The output of the first data file is all that the build leaves; the
second data file, of which one output could be written, is the one that
cannot be compiled. -/
theorem stop_of_build_cards :
    cardBuild.1 = .error (.schema (.unknownMagic "CARD")) ∧
    cardDisk.filesSince cardBuild.2.disk = [(["dist", "a"], oneNote)] ∧
    ∃ (c : Compiler) (path : Path)
      (rows : List (DataFile × List CompiledFile)),
      (c.compileFile cardBuild.2.disk path).1 =
        .error (.schema (.unknownMagic "CARD")) ∧
      CompiledFile.Leaves (builtFiles rows) cardDisk
        cardBuild.2.disk := by
  obtain ⟨hfails, hnone, hfiles⟩ := cardBuild_files
  refine ⟨hfails, hfiles, ?_⟩
  obtain ⟨s', hrun⟩ : ∃ s', cardBuild =
      (.error (.schema (.unknownMagic "CARD")), s') :=
    ⟨_, Prod.ext hfails rfl⟩
  rw [hrun] at hfiles ⊢
  rcases stop_of_build hrun with
    ⟨-, hsame⟩ | ⟨_, _, _, path, _, rows, c, d, -, -, -, -, -, hstop⟩
  · rw [hsame, hnone] at hfiles
    cases hfiles
  · rcases hstop with ⟨hcompile, hleft, hleaves⟩ |
      ⟨done, file, rest, d₁, hcompile, -, hwrite, -⟩
    · rw [← hleft] at hcompile
      exact ⟨c, path, rows, hcompile, hleaves⟩
    · -- no failure to write names an unknown block
      have hwriting := Compiler.isOfWriting_of_write hcompile
        (List.mem_append_right done List.mem_cons_self) hwrite
      cases hwriting with
      | tooLarge h =>
          obtain ⟨_, _, h, -⟩ := h
          cases h

end Invocation

end GamePack
