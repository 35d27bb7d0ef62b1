import GamePack.Proofs.Command.Building

/-!
What a build reads while it writes. Sheets and data files depend on the
disk only through the bytes at their paths. On its way from the disk it
starts from to the one it leaves, a build changes files only at places
that its targets lead to, so where no target leads to the place of a path
what was read there before is read there throughout. The converse needs
one thing more: a path may lead nowhere at first because a directory on
its way is missing, and to a file once the build has made this directory.
-/
namespace GamePack

open Disk

variable {d d' : Disk} {p : Path}

-- ============================================================ contents

/-- A sheet that loads was read. -/
theorem Bitmap.read_of_load {b : Bitmap} (h : Bitmap.load d p = .ok b) :
    ∃ bytes, d.read p = .ok bytes := by
  unfold Bitmap.load at h
  split at h
  · split at h <;> cases h
  next bytes hread => exact ⟨bytes, hread⟩

/-- Where the same bytes are read, the same sheet is loaded. -/
theorem Bitmap.load_congr (h : d.read p = d'.read p) :
    Bitmap.load d p = Bitmap.load d' p := by
  unfold Bitmap.load
  rw [h]

/-- A data file that can be loaded can be read. -/
theorem DataFile.read_of_load {data : DataFile}
    (h : DataFile.load d p = .ok data) : ∃ bytes, d.read p = .ok bytes := by
  simp only [DataFile.load, bind_eq_ok, mapError_ok_iff] at h
  obtain ⟨text, htext, -⟩ := h
  unfold Disk.readText at htext
  split at htext
  · cases htext
  next bytes hread => exact ⟨bytes, hread⟩

/-- Where the same bytes are read, the same data file is loaded. -/
theorem DataFile.load_congr (h : d.read p = d'.read p) :
    DataFile.load d p = DataFile.load d' p := by
  unfold DataFile.load Disk.readText
  rw [h]

/-- What can be read on one disk is the same on another. -/
def Disk.SeesAs (d d' : Disk) (p : Path) : Prop :=
  ∀ bytes, d.read p = .ok bytes → d'.read p = .ok bytes

/-- A sheet that can be loaded is the same on a disk that sees as much.
-/
theorem Disk.SeesAs.bitmap (h : d.SeesAs d' p) {b : Bitmap}
    (hload : Bitmap.load d p = .ok b) : Bitmap.load d' p = .ok b := by
  obtain ⟨bytes, hread⟩ := Bitmap.read_of_load hload
  rw [← Bitmap.load_congr (hread.trans (h bytes hread).symm)]
  exact hload

/-- A data file that can be loaded is the same on a disk that sees as
much. -/
theorem Disk.SeesAs.dataFile (h : d.SeesAs d' p) {data : DataFile}
    (hload : DataFile.load d p = .ok data) :
    DataFile.load d' p = .ok data := by
  obtain ⟨bytes, hread⟩ := DataFile.read_of_load hload
  rw [← DataFile.load_congr (hread.trans (h bytes hread).symm)]
  exact hload

-- ==================================================== during a build

/-- A disk on the way from one that a build starts from to one that it
leaves, where files change at places that some targets lead to. -/
structure Disk.Between (targets : List Path) (first last d : Disk) :
    Prop where
  behind : Grows (fun names => ∃ t ∈ targets, last.LeadsTo t names) first d
  ahead : Grows (fun _ => True) d last

namespace Disk.Between

variable {targets : List Path} {first last : Disk}

/-- What was read at first is read on the way. -/
theorem sees (h : Between targets first last d)
    (hapart : ∀ t ∈ targets, ¬ last.SamePlace t p) : first.SeesAs d p := by
  intro bytes hread
  refine h.behind.read ?_ hread
  rintro names hleads ⟨t, ht, hother⟩
  exact hapart t ht ⟨names, hother, h.ahead.leadsTo hleads⟩

/-- What is read on the way was read at first, unless its path comes to
lead to a file. -/
theorem saw (h : Between targets first last d)
    (hapart : ∀ t ∈ targets, ¬ last.SamePlace t p)
    (hstays : last.isFile p = true → first.isFile p = true) :
    d.SeesAs first p := by
  intro bytes hread
  have hfile : d.isFile p = true := isFile_iff.2 ⟨bytes, hread⟩
  obtain ⟨bytes', hfirst⟩ :=
    isFile_iff.1 (hstays (h.ahead.isFile hfile))
  have hsame := h.sees hapart bytes' hfirst
  rw [hread] at hsame
  rw [hfirst, Except.ok.inj hsame]

/-- The files of a row are written for targets, so the way goes on. -/
theorem writeAll (h : Between targets first last d)
    {files : List CompiledFile} {r : Except Error Unit}
    (hwrite : CompiledFile.writeAll files d = (r, d'))
    (htargets : ∀ f ∈ files, f.target ∈ targets)
    (hrest : Grows (fun _ => True) d' last) :
    Between targets first last d' := by
  have hgrows := CompiledFile.grows_writeAll files d
  rw [hwrite] at hgrows
  refine ⟨h.behind.trans (hgrows.mono ?_), hrest⟩
  rintro names ⟨f, hf, hleads⟩
  exact ⟨f.target, htargets f hf, hrest.leadsTo hleads⟩

end Disk.Between

/-- A build takes nothing away. -/
theorem Builds.grows {c : Compiler} {paths : List Path}
    {r : Except Error (List (DataFile × List CompiledFile))}
    (h : Builds c d paths r d') : Grows (fun _ => True) d d' := by
  have hrow : ∀ {files d d₁ r}, CompiledFile.writeAll files d = (r, d₁) →
      Grows (fun _ => True) d d₁ := by
    intro files d d₁ r hwrite
    have hgrows := CompiledFile.grows_writeAll files d
    rw [hwrite] at hgrows
    exact hgrows.mono fun _ _ => trivial
  induction h with
  | done c d => exact .refl _ d
  | unread hload => exact .refl _ _
  | uncompiled hload hcompile => exact .refl _ _
  | unwritten hload hcompile hwrite => exact hrow hwrite
  | step hload hcompile hwrite hrest ih => exact (hrow hwrite).trans ih

-- ==================================================== reads and targets

/-- The sheets that a data file names. -/
def DataFile.sheets (schema : Schema) (data : DataFile) : List Path :=
  data.outputs.flatMap fun output => output.sheets schema data.baseDir

/-- The targets of a data file, for outputs that go to a directory. -/
def DataFile.targets (outputDir : Path) (data : DataFile) : List Path :=
  data.outputs.map fun output => outputDir.join output.target

/-- The data files of a disk, and the sheets that they name. -/
def readsOf (schema : Schema) (d : Disk) (paths : List Path) : List Path :=
  paths.flatMap fun path => path :: match DataFile.load d path with
    | .ok data => data.sheets schema
    | .error _ => []

/-- The targets of the data files of a disk. -/
def targetsOf (outputDir : Path) (d : Disk) (paths : List Path) :
    List Path :=
  paths.flatMap fun path => match DataFile.load d path with
    | .ok data => data.targets outputDir
    | .error _ => []

section Members

variable {schema : Schema} {outputDir : Path} {path t : Path}
  {paths : List Path} {data : DataFile}

theorem mem_readsOf_path (schema : Schema) (d : Disk) (path : Path)
    (paths : List Path) : path ∈ readsOf schema d (path :: paths) :=
  List.mem_append_left _ List.mem_cons_self

/-- The sheets that a data file names are read. -/
theorem mem_readsOf_sheet (hload : DataFile.load d path = .ok data)
    (hp : p ∈ data.sheets schema) :
    p ∈ readsOf schema d (path :: paths) := by
  rw [readsOf, List.flatMap_cons, hload]
  exact List.mem_append_left _ (List.mem_cons_of_mem _ hp)

theorem readsOf_subset_cons (schema : Schema) (d : Disk) (path : Path)
    (paths : List Path) :
    readsOf schema d paths ⊆ readsOf schema d (path :: paths) :=
  fun _ hp => List.mem_append_right _ hp

theorem mem_targetsOf (hload : DataFile.load d path = .ok data)
    (ht : t ∈ data.targets outputDir) :
    t ∈ targetsOf outputDir d (path :: paths) := by
  rw [targetsOf, List.flatMap_cons, hload]
  exact List.mem_append_left _ ht

theorem targetsOf_subset_cons (outputDir : Path) (d : Disk) (path : Path)
    (paths : List Path) :
    targetsOf outputDir d paths ⊆ targetsOf outputDir d (path :: paths) :=
  fun _ ht => List.mem_append_right _ ht

end Members

/-- What the commands that work on a project read once it is open. -/
def ProjectOptions.reads (o : ProjectOptions) (d : Disk) : List Path :=
  match o.setUp d with
  | .error _ => []
  | .ok setup => match Schema.load d setup.schema with
    | .error _ => []
    | .ok schema => readsOf schema d setup.dataFiles

/-- Where a build of a project writes to. -/
def ProjectOptions.targets (o : ProjectOptions) (output : Option Path)
    (d : Disk) : List Path :=
  match o.setUp d with
  | .error _ => []
  | .ok setup =>
    targetsOf (output.getD setup.outputDir) d setup.dataFiles

/-- On the disk that a build leaves, no target leads to the place of a
path that is read. -/
def ProjectOptions.WritesApart (o : ProjectOptions) (output : Option Path)
    (first last : Disk) : Prop :=
  ∀ t ∈ o.targets output first, ∀ p ∈ o.reads first, ¬ last.SamePlace t p

/-- No path that is read comes to lead to a file. -/
def ProjectOptions.FindsNoMore (o : ProjectOptions) (first last : Disk) :
    Prop :=
  ∀ p ∈ o.reads first, last.isFile p = true → first.isFile p = true

instance (o : ProjectOptions) (output : Option Path) (first last : Disk) :
    Decidable (o.WritesApart output first last) :=
  inferInstanceAs (Decidable (∀ t ∈ _, ∀ p ∈ _, ¬ last.SamePlace t p))

instance (o : ProjectOptions) (first last : Disk) :
    Decidable (o.FindsNoMore first last) :=
  inferInstanceAs (Decidable (∀ p ∈ _, _ → _))

/-- A project reads its data files and the sheets that they name. -/
theorem ProjectOptions.Opens.reads_eq {o : ProjectOptions}
    {setup : ProjectSetup} {schema : Schema} (h : o.Opens d setup schema) :
    o.reads d = readsOf schema d setup.dataFiles := by
  simp only [ProjectOptions.reads, h.setUp, h.load]

/-- A project writes to the targets of its data files, in the directory
that is asked for or else its own. -/
theorem ProjectOptions.Opens.targets_eq {o : ProjectOptions}
    {setup : ProjectSetup} {schema : Schema} (h : o.Opens d setup schema)
    (output : Option Path) : o.targets output d =
      targetsOf (output.getD setup.outputDir) d setup.dataFiles := by
  simp only [ProjectOptions.targets, h.setUp]

end GamePack
