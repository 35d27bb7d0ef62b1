import GamePack.Compiler
import GamePack.Proofs.Disk

/-!
Writing compiled files. A file is written to the place that its target
leads to, below directories that are made where they are missing; nothing
else on the disk changes. Of files that are written one after the other
the last one that goes to a place stays there. A file without bytes is
refused before anything is touched.
-/
namespace GamePack.CompiledFile

open Disk

variable {f : CompiledFile} {files : List CompiledFile} {d d' : Disk}
  {e : Error} {names : List String} {bytes : Bytes}

-- ============================================================ one file

/-- The failures to write a file: it has no bytes, or the system refuses
to make its directory or to write it. -/
def IsWriteFailure (f : CompiledFile) (e : Error) : Prop :=
  f.container.toBytes = .error e ∨
    ∃ path fault, e = .file path (.system .makeOutputDirectory fault) ∨
      e = .file path (.system .writeContainer fault)

/-- Making the directory of an output changes no file, and fails as such.
-/
theorem makeParent_outcome {r : Except Error Unit}
    (h : write.makeParent f d = (r, d')) :
    Grows (fun _ => False) d d' ∧ ∀ e, r = .error e →
      ∃ path fault, e = .file path (.system .makeOutputDirectory fault) := by
  unfold write.makeParent at h
  split at h
  · cases h
    exact ⟨.refl _ d, fun _ he => by cases he⟩
  next parent _ =>
    split at h
    · cases h
      exact ⟨.refl _ d, fun _ he => by cases he⟩
    · have hgrows := grows_makeDirectories d parent
      split at h
      next d₁ hmake =>
        cases h
        rw [hmake] at hgrows
        exact ⟨hgrows, fun _ he => by cases he⟩
      next fault d₁ hmake =>
        cases h
        rw [hmake] at hgrows
        refine ⟨hgrows, fun _ he => ?_⟩
        cases he
        exact ⟨parent, fault, rfl⟩

/-- A file that is written can be read at its target, and every other
file is as before. -/
theorem write_ok (h : f.write d = (.ok (), d')) :
    ∃ bytes names, f.container.toBytes = .ok bytes ∧
      d'.LeadsTo f.target names ∧ Grows (· = names) d d' ∧
      d'.read f.target = .ok bytes := by
  unfold write at h
  split at h
  · cases h
  next bytes hbytes =>
    split at h
    · cases h
    next d₁ hparent =>
      obtain ⟨hgrows, -⟩ := makeParent_outcome hparent
      split at h
      · cases h
      next d₂ hwrite =>
        cases h
        obtain ⟨names, hleads, hgrows', hread⟩ := Disk.write_ok hwrite
        exact ⟨bytes, names, hbytes, hleads,
          hgrows.of_false.trans hgrows', hread⟩

/-- A file that fails to be written leaves all files as they are. -/
theorem write_error (h : f.write d = (.error e, d')) :
    f.IsWriteFailure e ∧ Grows (fun _ => False) d d' := by
  unfold write at h
  split at h
  next cause hbytes =>
    cases h
    exact ⟨.inl hbytes, .refl _ d⟩
  · split at h
    next cause d₁ hparent =>
      cases h
      obtain ⟨hgrows, hcause⟩ := makeParent_outcome hparent
      obtain ⟨path, fault, rfl⟩ := hcause _ rfl
      exact ⟨.inr ⟨path, fault, .inl rfl⟩, hgrows⟩
    next d₁ hparent =>
      obtain ⟨hgrows, -⟩ := makeParent_outcome hparent
      split at h
      next fault _ =>
        cases h
        exact ⟨.inr ⟨f.target, fault, .inr rfl⟩, hgrows⟩
      · cases h

/-- A file that has no bytes leaves the whole disk as it is. -/
theorem write_of_toBytes_error (h : f.container.toBytes = .error e)
    (d : Disk) : f.write d = (.error e, d) := by
  unfold write
  rw [h]

/-- Directories are only made above the target. -/
theorem makes_makeParent (f : CompiledFile) (d : Disk) :
    Makes ((write.makeParent f d).2.LeadsAbove f.target) d
      (write.makeParent f d).2 := by
  unfold write.makeParent
  split
  · exact .refl _ d
  next parent hparent =>
    split
    · exact .refl _ d
    · have hmakes := (makes_makeDirectories d parent).mono
        fun _ => leadsAbove_of_parent? hparent
      split
      next hmake =>
        rw [hmake] at hmakes
        exact hmakes
      next hmake =>
        rw [hmake] at hmakes
        exact hmakes

theorem makes_write (f : CompiledFile) (d : Disk) :
    Makes ((f.write d).2.LeadsAbove f.target) d (f.write d).2 := by
  unfold write
  split
  · exact .refl _ d
  next bytes _ =>
    have hmakes := makes_makeParent f d
    split
    next hparent =>
      rw [hparent] at hmakes
      exact hmakes
    next d₁ hparent =>
      rw [hparent] at hmakes
      split
      · exact hmakes
      next hwrite =>
        obtain ⟨_, -, hgrows, -⟩ := Disk.write_ok hwrite
        refine (hmakes.mono fun _ => hgrows.leadsAbove).trans ?_
        exact (Disk.makes_write hwrite).mono fun _ => False.elim

-- ================================================================ rows

/-- Write files until one fails. -/
def writeAll : List CompiledFile → Disk → Except Error Unit × Disk
  | [], d => (.ok (), d)
  | f :: files, d =>
    match f.write d with
    | (.error e, d) => (.error e, d)
    | (.ok (), d) => writeAll files d

/-- Files are written when the first is, and the others onto the disk
that it leaves. -/
theorem writeAll_cons_ok :
    writeAll (f :: files) d = (.ok (), d') ↔
      ∃ d₁, f.write d = (.ok (), d₁) ∧
        writeAll files d₁ = (.ok (), d') := by
  rw [writeAll]
  rcases f.write d with ⟨r, d₁⟩
  cases r with
  | error e => simp
  | ok u => simp

/-- Files are written in two parts as they are in one. -/
theorem writeAll_append_ok {more : List CompiledFile} :
    writeAll (files ++ more) d = (.ok (), d') ↔
      ∃ d₁, writeAll files d = (.ok (), d₁) ∧
        writeAll more d₁ = (.ok (), d') := by
  induction files generalizing d with
  | nil => simp [writeAll]
  | cons f files ih =>
      simp only [List.cons_append, writeAll_cons_ok, ih]
      constructor
      · rintro ⟨d₁, hfirst, d₂, hfiles, hmore⟩
        exact ⟨d₂, ⟨d₁, hfirst, hfiles⟩, hmore⟩
      · rintro ⟨d₂, ⟨d₁, hfirst, hfiles⟩, hmore⟩
        exact ⟨d₁, hfirst, d₂, hfiles, hmore⟩

/-- A row of files changes the files at its targets only, also where it
ends early. -/
theorem grows_writeAll (files : List CompiledFile) (d : Disk) :
    Grows (fun names => ∃ f ∈ files,
      (writeAll files d).2.LeadsTo f.target names)
      d (writeAll files d).2 := by
  induction files generalizing d with
  | nil => exact .refl _ d
  | cons f files ih =>
      rw [writeAll]
      rcases hwrite : f.write d with ⟨r, d₁⟩
      cases r with
      | error e =>
          obtain ⟨-, hgrows⟩ := write_error hwrite
          exact hgrows.of_false
      | ok u =>
          obtain ⟨_, names, -, hleads, hgrows, -⟩ := write_ok hwrite
          have hrest := ih d₁
          refine (hgrows.mono ?_).trans (hrest.mono ?_)
          · rintro _ rfl
            exact ⟨f, List.mem_cons_self, hrest.leadsTo hleads⟩
          · rintro other ⟨g, hg, hother⟩
            exact ⟨g, List.mem_cons_of_mem f hg, hother⟩

/-- A row makes directories above its targets only. -/
theorem makes_writeAll (files : List CompiledFile) (d : Disk) :
    Makes (fun names => ∃ f ∈ files,
      (writeAll files d).2.LeadsAbove f.target names)
      d (writeAll files d).2 := by
  induction files generalizing d with
  | nil => exact .refl _ d
  | cons f files ih =>
      have hmakes := makes_write f d
      rw [writeAll]
      rcases hwrite : f.write d with ⟨r, d₁⟩
      rw [hwrite] at hmakes
      cases r with
      | error e =>
          exact hmakes.mono fun _ habove => ⟨f, List.mem_cons_self, habove⟩
      | ok u =>
          have hgrows := grows_writeAll files d₁
          refine (hmakes.mono fun _ habove => ?_).trans
            ((ih d₁).mono ?_)
          · exact ⟨f, List.mem_cons_self, hgrows.leadsAbove habove⟩
          · rintro names ⟨g, hg, habove⟩
            exact ⟨g, List.mem_cons_of_mem f hg, habove⟩

/-- A row that fails stops at one of its files. -/
theorem writeAll_error (h : writeAll files d = (.error e, d')) :
    ∃ done f rest d₁, files = done ++ f :: rest ∧
      writeAll done d = (.ok (), d₁) ∧ f.write d₁ = (.error e, d') := by
  induction files generalizing d with
  | nil => cases h
  | cons f files ih =>
      rw [writeAll] at h
      split at h
      next cause d₁ hwrite =>
        cases h
        exact ⟨[], f, files, d, rfl, rfl, hwrite⟩
      next d₁ hwrite =>
        obtain ⟨done, g, rest, d₂, rfl, hdone, hfails⟩ := ih h
        exact ⟨f :: done, g, rest, d₂, rfl,
          writeAll_cons_ok.2 ⟨d₁, hwrite, hdone⟩, hfails⟩

/-- The failure of a row is that of one of its files. -/
theorem exists_of_writeAll_error
    (h : writeAll files d = (.error e, d')) :
    ∃ f ∈ files, f.IsWriteFailure e := by
  obtain ⟨done, f, rest, d₁, rfl, -, hfails⟩ := writeAll_error h
  exact ⟨f, List.mem_append_right done List.mem_cons_self,
    (write_error hfails).1⟩

/-- The targets of files that were written lead to places of files. -/
theorem locate_of_writeAll (h : writeAll files d = (.ok (), d'))
    {f : CompiledFile} (hf : f ∈ files) :
    ∃ names, d'.locate f.target = .ok ⟨names, false⟩ := by
  induction files generalizing d with
  | nil => cases hf
  | cons g files ih =>
      obtain ⟨d₁, hfirst, hrest⟩ := writeAll_cons_ok.1 h
      rcases List.mem_cons.1 hf with rfl | hf
      · obtain ⟨_, _, -, -, -, hread⟩ := write_ok hfirst
        obtain ⟨names, hlocate, -⟩ := read_ok_iff.1 hread
        have hgrows := grows_writeAll files d₁
        rw [hrest] at hgrows
        exact ⟨names, hgrows.locate hlocate⟩
      · exact ih hrest hf

/-- At a place that targets of a row lead to there is what the last of
these files holds. -/
theorem last_of_writeAll (h : writeAll files d = (.ok (), d'))
    (hnames : ∃ f ∈ files, d'.LeadsTo f.target names) :
    ∃ before last after bytes, files = before ++ last :: after ∧
      d'.LeadsTo last.target names ∧
      (∀ f ∈ after, ¬ d'.LeadsTo f.target names) ∧
      last.container.toBytes = .ok bytes ∧
      d'.node? names = some (.file bytes) := by
  induction files generalizing d with
  | nil =>
      obtain ⟨f, hf, -⟩ := hnames
      cases hf
  | cons f files ih =>
      obtain ⟨d₁, hfirst, hrest⟩ := writeAll_cons_ok.1 h
      by_cases hlater : ∃ g ∈ files, d'.LeadsTo g.target names
      · obtain ⟨before, last, after, bytes, rfl, hlast⟩ := ih hrest hlater
        exact ⟨f :: before, last, after, bytes, rfl, hlast⟩
      · -- nothing that follows goes to the place, so the first file of
        -- the row does, and what it holds stays
        have hnone : ∀ g ∈ files, ¬ d'.LeadsTo g.target names :=
          fun g hg hleads => hlater ⟨g, hg, hleads⟩
        obtain ⟨g, hg, hleads⟩ := hnames
        rcases List.mem_cons.1 hg with rfl | hg
        · obtain ⟨bytes, place, hbytes, hplace, -, hread⟩ :=
            write_ok hfirst
          have hgrows := grows_writeAll files d₁
          rw [hrest] at hgrows
          obtain rfl := (hgrows.leadsTo hplace).unique hleads
          obtain ⟨_, hlocate, hnode⟩ := read_ok_iff.1 hread
          obtain rfl := LeadsTo.unique ⟨_, hlocate⟩ hplace
          refine ⟨[], g, files, bytes, rfl, hleads, hnone, hbytes, ?_⟩
          refine (hgrows.untouched ?_).2 hnode
          rintro ⟨other, hother, hleads⟩
          exact hnone other hother hleads
        · exact absurd hleads (hnone g hg)

/-- A disk that differs from an earlier one by files that were written.
Each target has all bytes of one of them, and whatever no target leads to
is as it was, or is a new directory above a target. -/
structure Leaves (files : List CompiledFile) (d d' : Disk) : Prop where
  complete : ∀ f ∈ files, ∃ last ∈ files, ∃ bytes,
    d'.SamePlace last.target f.target ∧
      last.container.toBytes = .ok bytes ∧ d'.read f.target = .ok bytes
  others : ∀ names, (∀ f ∈ files, ¬ d'.LeadsTo f.target names) →
    d'.node? names = d.node? names ∨
      d.node? names = none ∧ d'.node? names = some .directory ∧
        ∃ f ∈ files, d'.LeadsAbove f.target names

/-- Files that are all written leave the disk as it was, their targets
apart. -/
theorem leaves_of_writeAll (h : writeAll files d = (.ok (), d')) :
    Leaves files d d' := by
  have hgrows := grows_writeAll files d
  have hmakes := makes_writeAll files d
  rw [h] at hgrows hmakes
  refine ⟨fun f hf => ?_, fun names hfree => ?_⟩
  · obtain ⟨names, hlocate⟩ := locate_of_writeAll h hf
    have hleads : d'.LeadsTo f.target names := ⟨_, hlocate⟩
    obtain ⟨before, last, after, bytes, rfl, hlast, -, hbytes, hnode⟩ :=
      last_of_writeAll h ⟨f, hf, hleads⟩
    exact ⟨last, List.mem_append_right before List.mem_cons_self, bytes,
      ⟨names, hlast, hleads⟩, hbytes,
      read_ok_iff.2 ⟨names, hlocate, hnode⟩⟩
  · have hsame : ∀ content, d'.node? names = some (.file content) ↔
        d.node? names = some (.file content) := by
      intro content
      refine hgrows.untouched ?_
      rintro ⟨f, hf, hleads⟩
      exact hfree f hf hleads
    cases hnode : d.node? names with
    | none =>
        cases hnode' : d'.node? names with
        | none => exact .inl rfl
        | some node =>
            cases node with
            | file content =>
                cases hnode.symm.trans ((hsame content).1 hnode')
            | directory =>
                refine .inr ⟨rfl, rfl, ?_⟩
                rcases hmakes names hnode' with hold | habove
                · cases hnode.symm.trans hold
                · exact habove
    | some node =>
        cases node with
        | directory => exact .inl (hgrows.directory hnode)
        | file content => exact .inl ((hsame content).2 hnode)

end GamePack.CompiledFile
