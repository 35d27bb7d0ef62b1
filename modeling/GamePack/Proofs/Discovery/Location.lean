import GamePack.Proofs.Discovery.Copies
import GamePack.Proofs.Discovery.Repeats

/-!
Data files and the place of a project. A source that does not lead out of
the directory that it starts from finds the same files wherever the same
tree lies, and their order is that of the steps below the directory. The
exclusions look at the whole text of a path, so a pattern may also occur
in the place of the project; only a pattern of an ending never does.

A source is followed in both places by `filesOf_copy`, a row of sources
by `foundIn_copy`, and leaving out repeats by `ListsAlike.dropRepeats`.
-/
namespace GamePack

/-- Where there are steps, the last of them is the file name. -/
theorem Path.isDataFile_join {A B p : Path} (hA : A.text ≠ "")
    (hB : B.text ≠ "") (hp : p.isAbsolute = false)
    (hsteps : p.steps ≠ []) :
    (A.join p).isDataFile = (B.join p).isDataFile := by
  unfold Path.isDataFile Path.fileName?
  rw [Path.components_join hA hp, Path.components_join hB hp,
    List.getLast?_append_of_ne_nil _ hsteps,
    List.getLast?_append_of_ne_nil _ hsteps]

-- ============================================================== search

namespace Manifest

variable {m : Manifest} {d d' : Disk} {A B p : Path}
  {sources : List String}

/-- The same files stand below two directories, in the same order. -/
def ListsAlike (A B : Path) (found found' : List Path) : Prop :=
  ∃ files : List Path, (∀ q ∈ files, q.isAbsolute = false) ∧
    found = files.map A.join ∧ found' = files.map B.join

/-- The exclusions decide alike on each data file below a path, wherever
the path lies. -/
def ExcludesAlike (m : Manifest) (d : Disk) (A B p : Path) : Prop :=
  ∀ q : Path, A.join q ∈ d.filesIn (A.join p) →
    (A.join q).isDataFile = true →
      m.excludesPath (A.join q) = m.excludesPath (B.join q)

/-- A search finds the data files below a directory that are not
excluded. -/
theorem mem_search {q : Path} : q ∈ m.search d p ↔
    q ∈ d.filesIn p ∧ q.isDataFile = true ∧ m.excludesPath q = false := by
  unfold search
  rw [List.mem_mergeSort, List.mem_filter, Bool.and_eq_true,
    Bool.not_eq_true']

/-- What a search keeps of the files below a directory, in order. -/
theorem search_eq {found : List Path} (hA : A.text ≠ "")
    (hfound : ∀ q ∈ found, q.isAbsolute = false)
    (hfiles : d.filesIn (A.join p) = found.map A.join) :
    m.search d (A.join p) =
      ((found.filter fun q =>
          (A.join q).isDataFile && !m.excludesPath (A.join q)).mergeSort
        Path.stepsLe).map A.join := by
  unfold search
  dsimp only
  rw [hfiles, List.filter_map]
  refine (List.map_mergeSort ?_).symm
  intro q hq r hr
  exact (Path.le_join hA (hfound q (List.mem_of_mem_filter hq))
    (hfound r (List.mem_of_mem_filter hr))).symm

/-- A source is searched alike in two directories when its directories
are opened alike and its files are excluded alike. -/
theorem search_copy (hcopy : Disk.IsCopy d A d' B) (hinside : p.IsInside)
    (halike : d.OpensAlike A B p)
    (hexcludes : ExcludesAlike m d A B p) :
    ListsAlike A B (m.search d (A.join p)) (m.search d' (B.join p)) := by
  obtain ⟨a, b, hA, hB, -⟩ := hcopy.same
  replace hA := hA.text_ne_empty
  replace hB := hB.text_ne_empty
  obtain ⟨paths, paths', hperm, hknown, hfiles, hfiles'⟩ :=
    Disk.filesIn_copy hcopy hinside halike
  have hrelative : ∀ q ∈ paths, q.isAbsolute = false :=
    fun q hq => (hknown q hq).1
  have hrelative' : ∀ q ∈ paths', q.isAbsolute = false :=
    fun q hq => hrelative q (hperm.mem_iff.2 hq)
  have hkeep : ∀ q ∈ paths',
      ((B.join q).isDataFile && !m.excludesPath (B.join q)) =
        ((A.join q).isDataFile && !m.excludesPath (A.join q)) := by
    intro q hq
    have hmem : q ∈ paths := hperm.mem_iff.2 hq
    rw [Path.isDataFile_join hB hA (hrelative q hmem) (hknown q hmem).2.1]
    cases hdata : (A.join q).isDataFile with
    | false => rfl
    | true =>
        rw [hexcludes q (hfiles ▸ List.mem_map_of_mem hmem) hdata]
  rw [search_eq hA hrelative hfiles, search_eq hB hrelative' hfiles',
    List.filter_congr hkeep]
  refine ⟨_, ?_, rfl, congrArg _ ?_⟩
  · intro q hq
    rw [List.mem_mergeSort] at hq
    exact hrelative q (List.mem_of_mem_filter hq)
  · refine (Path.mergeSort_steps_of_perm ?_ (hperm.filter _)).symm
    intro q hq r hr
    exact (hknown q (List.mem_of_mem_filter hq)).2.2 r
      (List.mem_of_mem_filter hr)

/-- A source finds the same wherever the tree lies. -/
theorem filesOf_copy (hcopy : Disk.IsCopy d A d' B) (hinside : p.IsInside)
    (halike : d.OpensAlike A B p)
    (hexcludes : ExcludesAlike m d A B p) :
    ListsAlike A B (m.filesOf d (A.join p)) (m.filesOf d' (B.join p)) := by
  have hfind := Disk.find_copy hcopy hinside halike.1
  have hfile : d.isFile (A.join p) = d'.isFile (B.join p) := by
    rw [Disk.isFile, Disk.isFile, hfind]
  have hdirectory :
      d.isDirectory (A.join p) = d'.isDirectory (B.join p) := by
    rw [Disk.isDirectory, Disk.isDirectory, hfind]
  unfold filesOf
  rw [← hfile, ← hdirectory]
  split
  · refine ⟨[p], ?_, rfl, rfl⟩
    intro q hq
    rw [List.mem_singleton.1 hq]
    exact hinside.1
  · split
    · exact search_copy hcopy hinside halike hexcludes
    · exact ⟨[], by simp, rfl, rfl⟩

/-- Sources are searched alike in two directories, one after the other.
-/
theorem foundIn_copy (hcopy : Disk.IsCopy d A d' B)
    (hinside : ∀ source ∈ sources, (Path.mk source).IsInside)
    (halike : ∀ source ∈ sources, d.OpensAlike A B ⟨source⟩)
    (hexcludes : ∀ source ∈ sources, ExcludesAlike m d A B ⟨source⟩) :
    ListsAlike A B (m.foundIn d A sources) (m.foundIn d' B sources) := by
  induction sources with
  | nil => exact ⟨[], by simp, rfl, rfl⟩
  | cons source sources ih =>
      rw [List.forall_mem_cons] at hinside halike hexcludes
      obtain ⟨files, hfiles, hfound, hfound'⟩ :=
        filesOf_copy hcopy hinside.1 halike.1 hexcludes.1
      obtain ⟨rest, hrest, hothers, hothers'⟩ :=
        ih hinside.2 halike.2 hexcludes.2
      refine ⟨files ++ rest, ?_, ?_, ?_⟩
      · exact List.forall_mem_append.2 ⟨hfiles, hrest⟩
      · rw [foundIn, List.flatMap_cons, hfound, List.map_append, ← hothers]
        rfl
      · rw [foundIn, List.flatMap_cons, hfound', List.map_append,
          ← hothers']
        rfl

/-- Leaving out repeats does not see where the paths lie. -/
theorem ListsAlike.dropRepeats {found found' : List Path}
    (hA : A.text ≠ "") (hB : B.text ≠ "")
    (h : ListsAlike A B found found') :
    ListsAlike A B (Path.dropRepeats found) (Path.dropRepeats found') := by
  obtain ⟨files, hfiles, rfl, rfl⟩ := h
  have hdrop : ∀ {A : Path}, A.text ≠ "" →
      Path.dropRepeats (files.map A.join) =
        (files.destutter fun p q => p.steps ≠ q.steps).map A.join := by
    intro A hA
    rw [Path.dropRepeats_eq_destutter]
    refine (List.map_destutter ?_).symm
    intro p hp q hq
    exact (Path.same_join_eq_false_iff hA (hfiles p hp)
      (hfiles q hq)).symm
  refine ⟨_, ?_, hdrop hA, hdrop hB⟩
  intro p hp
  exact hfiles p ((List.destutter_sublist _ files).subset hp)

end Manifest

-- ========================================================== exclusions

namespace Exclusion

/-- An ending is a rule of a pattern without a slash. -/
theorem not_mem_of_ending {pattern : String} {text : List Char}
    (h : ofPattern pattern = .ending text) : '/' ∉ text := by
  have hdirectory : ∀ cs,
      ofBarePattern.ofDirectoryPattern cs ≠ .ending text := by
    intro cs hcs
    unfold ofBarePattern.ofDirectoryPattern at hcs
    split at hcs
    · cases hcs
    · cases hcs
  unfold ofPattern at h
  split at h
  · exact absurd h (hdirectory _)
  · unfold ofBarePattern at h
    split at h
    next rest hstar =>
      split at h
      · exact absurd h (hdirectory _)
      next hslash =>
        obtain rfl := ending.inj h
        intro hmem
        apply hslash
        rw [hstar, List.contains_iff_mem]
        exact List.mem_cons_of_mem '*' hmem
    · exact absurd h (hdirectory _)

/-- An ending without a slash reaches back to the last slash at most. -/
theorem isSuffixOf_append {text front cs : List Char} (h : '/' ∉ text) :
    text.isSuffixOf (front ++ '/' :: cs) = text.isSuffixOf cs := by
  rw [Bool.eq_iff_iff, List.isSuffixOf_iff_suffix,
    List.isSuffixOf_iff_suffix]
  constructor
  · intro hsuffix
    rcases List.suffix_or_suffix_of_suffix hsuffix
      (List.suffix_append front ('/' :: cs)) with hshort | hlong
    · rcases List.suffix_cons_iff.1 hshort with hall | hshort
      · exact absurd (hall ▸ List.mem_cons_self) h
      · exact hshort
    · exact absurd (hlong.subset List.mem_cons_self) h
  · intro hsuffix
    exact hsuffix.trans
      ((List.suffix_cons '/' cs).trans (List.suffix_append front _))

end Exclusion

namespace Manifest

variable {m : Manifest} {d d' : Disk} {A B p : Path}
  {sources : List String}

/-- Patterns of endings only look at the path below a directory. -/
theorem excludesPath_join (hA : A.text ≠ "") (hp : p.isAbsolute = false)
    (h : ∀ pattern ∈ m.excludes,
      ∃ text, Exclusion.ofPattern pattern = .ending text) :
    m.excludesPath (A.join p) = m.excludesPath p := by
  have hlist : A.text.toList ≠ [] := by simpa using hA
  obtain ⟨front, -, hfront⟩ := Path.exists_front hlist
  unfold excludesPath
  rw [Bool.eq_iff_iff, List.any_eq_true, List.any_eq_true]
  refine exists_congr fun pattern => and_congr_right fun hpattern => ?_
  obtain ⟨text, htext⟩ := h pattern hpattern
  rw [Path.toList_join hp, hfront, List.append_assoc,
    List.singleton_append, htext, Exclusion.applies,
    Exclusion.isSuffixOf_append (Exclusion.not_mem_of_ending htext),
    Exclusion.applies]

/-- Patterns that ask for an ending decide alike wherever a project lies.
-/
theorem ExcludesAlike.of_endings (hA : A.text ≠ "") (hB : B.text ≠ "")
    (h : ∀ pattern ∈ m.excludes,
      ∃ text, Exclusion.ofPattern pattern = .ending text) :
    ExcludesAlike m d A B p := by
  intro q _ _
  by_cases hq : q.isAbsolute = true
  · rw [Path.join_of_isAbsolute hq, Path.join_of_isAbsolute hq]
  · rw [Bool.not_eq_true] at hq
    rw [excludesPath_join hA hq h, excludesPath_join hB hq h]

/-- Two directories that hold the same tree give the same data files in
the same order, for sources that do not lead out of them, provided that
no source and no directory below one has a path that is too long for the
system in one only, and that the exclusions decide on each data file
alike. -/
theorem filesOfSources_copy (hcopy : Disk.IsCopy d A d' B)
    (hinside : ∀ source ∈ sources, (Path.mk source).IsInside)
    (halike : ∀ source ∈ sources, d.OpensAlike A B ⟨source⟩)
    (hexcludes : ∀ source ∈ sources, ExcludesAlike m d A B ⟨source⟩) :
    ∃ files : List Path, (∀ q ∈ files, q.isAbsolute = false) ∧
      m.filesOfSources d A sources = files.map A.join ∧
      m.filesOfSources d' B sources = files.map B.join := by
  obtain ⟨a, b, hA, hB, -⟩ := hcopy.same
  exact (foundIn_copy hcopy hinside halike hexcludes).dropRepeats
    hA.text_ne_empty hB.text_ne_empty

/-- A project with data files on two levels, one of them set aside. -/
def parkTree : List (List String × DiskNode) :=
  [([], .directory), (["data"], .directory),
    (["data", "a.old.rcd.yaml"], .file []),
    (["data", "rides"], .directory),
    (["data", "rides", "a.rcd.yaml"], .file [])]

/-- The project as a directory of the working directory, and on another
disk below the root. -/
theorem isCopy_parkTree :
    Disk.IsCopy (Disk.holding ["game"] parkTree) ⟨"./game"⟩
      (Disk.holding ["park"] parkTree) ⟨"/park"⟩ where
  proper := ⟨by decide, by decide⟩
  proper' := ⟨by decide, by decide⟩
  same := ⟨["game"], ["park"], ⟨false, rfl⟩, ⟨false, rfl⟩,
    Disk.sameBelow_holding (by decide) (by decide) parkTree⟩

/-- All directories of the project are opened alike in both places. -/
theorem opensAlike_parkTree :
    ∀ source ∈ ["data", "data/../data/rides/a.rcd.yaml"],
      (Disk.holding ["game"] parkTree).OpensAlike ⟨"./game"⟩ ⟨"/park"⟩
        ⟨source⟩ := by
  intro source hsource
  simp only [List.mem_cons, List.not_mem_nil, or_false] at hsource
  rcases hsource with rfl | rfl
  · exact Disk.opensAlike_of_entries (a := ["game", "data"])
      (by decide +kernel) ⟨false, rfl⟩ (by decide +kernel)
  · exact Disk.opensAlike_of_entries
      (a := ["game", "data", "rides", "a.rcd.yaml"])
      (by decide +kernel) ⟨false, rfl⟩ (by decide +kernel)

/-- Both find the file that is not set aside, by either source. -/
theorem filesOfSources_copy_park :
    ∃ files : List Path, files.length = 2 ∧
      (∀ q ∈ files, q.isAbsolute = false) ∧
      ({ excludes := ["*.old.rcd.yaml"] } : Manifest).filesOfSources
          (Disk.holding ["game"] parkTree) ⟨"./game"⟩
          ["data", "data/../data/rides/a.rcd.yaml"] =
        files.map (Path.join ⟨"./game"⟩) ∧
      ({ excludes := ["*.old.rcd.yaml"] } : Manifest).filesOfSources
          (Disk.holding ["park"] parkTree) ⟨"/park"⟩
          ["data", "data/../data/rides/a.rcd.yaml"] =
        files.map (Path.join ⟨"/park"⟩) := by
  have hendings : ∀ pattern ∈ ["*.old.rcd.yaml"],
      ∃ text, Exclusion.ofPattern pattern = .ending text := by
    intro pattern hpattern
    rw [List.mem_singleton.1 hpattern]
    exact ⟨".old.rcd.yaml".toList, by decide +kernel⟩
  have hboth : ListsAlike ⟨"./game"⟩ ⟨"/park"⟩
      (({ excludes := ["*.old.rcd.yaml"] } : Manifest).filesOfSources
        (Disk.holding ["game"] parkTree) ⟨"./game"⟩
        ["data", "data/../data/rides/a.rcd.yaml"])
      (({ excludes := ["*.old.rcd.yaml"] } : Manifest).filesOfSources
        (Disk.holding ["park"] parkTree) ⟨"/park"⟩
        ["data", "data/../data/rides/a.rcd.yaml"]) :=
    filesOfSources_copy isCopy_parkTree (by decide +kernel)
      opensAlike_parkTree
      fun source _ => .of_endings (by decide) (by decide) hendings
  obtain ⟨files, hrelative, hgame, hpark⟩ := hboth
  refine ⟨files, ?_, hrelative, hgame, hpark⟩
  rw [← List.length_map (f := Path.join ⟨"./game"⟩), ← hgame]
  decide +kernel

/-- Some files are not listed like none. -/
theorem not_listsAlike_nil {found : List Path} (h : found ≠ []) :
    ¬ ListsAlike A B found [] := by
  rintro ⟨files, -, hfound, hnone⟩
  rw [List.map_eq_nil_iff.1 hnone.symm] at hfound
  exact h hfound

/-- A source that is a file is the one file it gives. -/
theorem filesOfSources_of_isFile {source : String}
    (h : d.isFile (A.join ⟨source⟩) = true) :
    m.filesOfSources d A [source] = [A.join ⟨source⟩] := by
  rw [filesOfSources, List.flatMap_singleton, filesOf, if_pos h]
  rfl

/-- A source where nothing is gives no file. -/
theorem filesOfSources_of_missing {source : String}
    (h : d.hasEntry (A.join ⟨source⟩) = false) :
    m.filesOfSources d A [source] = [] := by
  unfold filesOfSources filesOf Disk.isFile Disk.isDirectory
  unfold Disk.hasEntry at h
  rw [List.flatMap_singleton]
  cases hfind : d.find (A.join ⟨source⟩) with
  | error fault => rfl
  | ok node =>
      rw [hfind] at h
      cases h

/-- A tree in directories of two names. -/
theorem isCopy_holding {name other : String}
    {tree : List (List String × DiskNode)}
    (hproper : (Disk.holding [name] tree).IsProper ∧
      (Disk.holding [other] tree).IsProper)
    (h : (Disk.holding [name] tree).LeadsTo ⟨name⟩ [name])
    (h' : (Disk.holding [other] tree).LeadsTo ⟨other⟩ [other]) :
    Disk.IsCopy (Disk.holding [name] tree) ⟨name⟩
      (Disk.holding [other] tree) ⟨other⟩ where
  proper := hproper.1
  proper' := hproper.2
  same := ⟨[name], [other], h, h',
    Disk.sameBelow_holding (by simp) (by simp) tree⟩

/-- A project with one data file. -/
def loneTree : List (List String × DiskNode) :=
  [([], .directory), (["a.rcd.yaml"], .file [])]

/-- The project in a directory of a name. -/
def loneDisk (name : String) : Disk := Disk.holding [name] loneTree

/-- A project with one data file, in a directory. -/
def nestedTree : List (List String × DiskNode) :=
  [([], .directory), (["data"], .directory),
    (["data", "a.rcd.yaml"], .file [])]

/-- The project in a directory of a name. -/
def nestedDisk (name : String) : Disk := Disk.holding [name] nestedTree

/-- A row of slashes. -/
def slashes : Nat → String
  | 0 => ""
  | n + 1 => "/" ++ slashes n

theorem toList_slashes (n : Nat) :
    (slashes n).toList = List.replicate n '/' := by
  induction n with
  | zero => rfl
  | succ n ih => rw [slashes, String.toList_append, ih]; rfl

theorem utf8ByteSize_slashes (n : Nat) : (slashes n).utf8ByteSize = n := by
  induction n with
  | zero => rfl
  | succ n ih =>
      rw [slashes, String.utf8ByteSize_append, ih, Nat.add_comm]
      rfl

/-- The project itself by a path of any length. -/
def inPlace (n : Nat) : String := "." ++ slashes n

/-- A data file in the project by a path of any length. -/
def detour (n : Nat) : String := inPlace n ++ "/a.rcd.yaml"

theorem toList_inPlace (n : Nat) :
    (inPlace n).toList = '.' :: List.replicate n '/' := by
  simp [inPlace, toList_slashes]

theorem toList_detour (n : Nat) : (detour n).toList =
    ('.' :: List.replicate n '/') ++ '/' :: "a.rcd.yaml".toList := by
  simp [detour, toList_inPlace]

theorem isAbsolute_inPlace (n : Nat) :
    (Path.mk (inPlace n)).isAbsolute = false := by
  rw [Path.isAbsolute, toList_inPlace]
  rfl

theorem isAbsolute_detour (n : Nat) :
    (Path.mk (detour n)).isAbsolute = false := by
  rw [Path.isAbsolute, toList_detour]
  rfl

/-- The slashes behind a dot are no pieces. -/
theorem parts_inPlace (n : Nat) : (Path.mk (inPlace n)).parts = [['.']] := by
  rw [Path.parts, toList_inPlace]
  induction n with
  | zero => rfl
  | succ n ih =>
      rw [List.replicate_succ', ← List.cons_append, Path.pieces_append,
        List.filter_append, ih]
      rfl

/-- However many slashes the path to the data file has, it has two parts.
-/
theorem parts_detour (n : Nat) :
    (Path.mk (detour n)).parts = [['.'], "a.rcd.yaml".toList] := by
  have hdot := parts_inPlace n
  rw [Path.parts, toList_inPlace] at hdot
  rw [Path.parts, toList_detour, Path.pieces_append, List.filter_append,
    hdot]
  decide +kernel

/-- A relative path is written behind a name and a slash. -/
theorem join_name {base source : String} (hbase : Path.IsEntryName base)
    (hrelative : (Path.mk source).isAbsolute = false) :
    (Path.mk base).join ⟨source⟩ = ⟨base ++ "/" ++ source⟩ := by
  obtain ⟨hempty, -, -, hslash⟩ := hbase
  have hlast : base.toList.getLast? ≠ some '/' :=
    fun h => hslash (List.mem_of_getLast? h)
  have hsome : base.isEmpty = false := by simpa using hempty
  unfold Path.join
  rw [hrelative]
  simp only [hsome, hlast, Bool.false_eq_true, if_false, Bool.false_or,
    beq_iff_eq]

/-- A detour adds to the length of a path. -/
theorem size_join_detour (base : String) (hbase : Path.IsEntryName base)
    (n : Nat) :
    (Path.join ⟨base⟩ ⟨detour n⟩).text.utf8ByteSize =
      base.utf8ByteSize + 13 + n := by
  rw [join_name hbase (isAbsolute_detour n)]
  simp only [detour, inPlace, String.utf8ByteSize_append,
    utf8ByteSize_slashes]
  show base.utf8ByteSize + 1 + (1 + n + 11) = _
  omega

/-- A path to the project itself is as long as it is written. -/
theorem size_join_inPlace (base : String)
    (hbase : Path.IsEntryName base) (n : Nat) :
    (Path.join ⟨base⟩ ⟨inPlace n⟩).text.utf8ByteSize =
      base.utf8ByteSize + 2 + n := by
  rw [join_name hbase (isAbsolute_inPlace n)]
  simp only [inPlace, String.utf8ByteSize_append, utf8ByteSize_slashes]
  show base.utf8ByteSize + 1 + (1 + n) = _
  omega

/-- Behind a path to the project itself that ends in slashes, a directory
of it adds its name to the length. -/
theorem size_entry_inPlace (base : String)
    (hbase : Path.IsEntryName base) (n : Nat) :
    ((Path.join ⟨base⟩ ⟨inPlace (n + 1)⟩).entry
      "data").text.utf8ByteSize = base.utf8ByteSize + 7 + n := by
  have hlast : (base ++ "/" ++ inPlace (n + 1)).toList.getLast? =
      some '/' := by
    rw [String.toList_append, toList_inPlace, List.replicate_succ',
      ← List.cons_append, ← List.append_assoc, List.getLast?_concat]
  have hopen : (Path.mk (base ++ "/" ++ inPlace (n + 1))).entry "data" =
      ⟨base ++ "/" ++ inPlace (n + 1) ++ "data"⟩ := by
    unfold Path.entry Path.join
    rw [hlast, show (Path.mk "data").isAbsolute = false from rfl]
    simp
  rw [join_name hbase (isAbsolute_inPlace _), hopen]
  simp only [inPlace, String.utf8ByteSize_append, utf8ByteSize_slashes]
  show base.utf8ByteSize + 1 + (1 + (n + 1)) + 4 = _
  omega

/-- A detour that just fits below the shorter name finds the file there,
and below the longer one nothing. -/
theorem not_listsAlike_detour {n : Nat}
    (hn : "game".utf8ByteSize + 13 + n = Disk.maxPath) :
    ¬ ListsAlike ⟨"game"⟩ ⟨"games"⟩
      (m.filesOfSources (loneDisk "game") ⟨"game"⟩ [detour n])
      (m.filesOfSources (loneDisk "games") ⟨"games"⟩ [detour n]) := by
  have hgame := size_join_detour "game" (by decide) n
  have hgames := size_join_detour "games" (by decide) n
  have hlonger : "games".utf8ByteSize = "game".utf8ByteSize + 1 := rfl
  have hclean : (detour n).toList.contains '\x00' = false := by
    rw [toList_detour]
    simp
  have hopen : Disk.endsOpen ⟨detour n⟩ = false := by
    rw [Disk.endsOpen, toList_detour,
      List.getLast?_append_of_ne_nil _ (List.cons_ne_nil _ _)]
    simp [detour, inPlace]
  have hfits : (loneDisk "game").isFile
      (Path.join ⟨"game"⟩ ⟨detour n⟩) = true := by
    have hlead : (loneDisk "game").LeadsTo ⟨"game"⟩ ["game"] :=
      ⟨false, rfl⟩
    have hplace := Disk.locate_join hlead (isAbsolute_detour n)
    rw [hclean, hgame, hn, parts_detour, hopen] at hplace
    rw [Disk.isFile, Disk.find, hplace]
    rfl
  have hlong : (loneDisk "games").hasEntry
      (Path.join ⟨"games"⟩ ⟨detour n⟩) = false := by
    have hlead : (loneDisk "games").LeadsTo ⟨"games"⟩ ["games"] :=
      ⟨false, rfl⟩
    have hplace := Disk.locate_join hlead (isAbsolute_detour n)
    rw [hclean, hgames, if_neg (by decide), if_pos (by omega)] at hplace
    rw [Disk.hasEntry, Disk.find, hplace]
  rw [filesOfSources_of_isFile hfits, filesOfSources_of_missing hlong]
  exact not_listsAlike_nil (List.cons_ne_nil _ _)

/-- The project itself is found by its path as long as this fits. -/
theorem leadsTo_inPlace {name : String} {n : Nat}
    (hlead : (nestedDisk name).LeadsTo ⟨name⟩ [name])
    (hfits : (Path.join ⟨name⟩ ⟨inPlace n⟩).text.utf8ByteSize ≤
      Disk.maxPath) :
    (nestedDisk name).LeadsTo (Path.join ⟨name⟩ ⟨inPlace n⟩) [name] := by
  have hclean : (inPlace n).toList.contains '\x00' = false := by
    rw [toList_inPlace]
    simp
  have hnode : (nestedDisk name).node? [name] = some .directory :=
    Disk.node?_holding (List.cons_ne_nil name []) nestedTree []
  have hplace := Disk.locate_join hlead (isAbsolute_inPlace n)
  rw [hclean, if_neg (by decide), if_neg (Nat.not_lt.2 hfits),
    parts_inPlace, Disk.walk, hnode] at hplace
  exact ⟨_, hplace⟩

/-- A path to a directory finds the data files that the search finds
below it. -/
theorem filesOfSources_of_leadsTo {source : String} {place : List String}
    (hplace : d.LeadsTo (A.join ⟨source⟩) place)
    (hnode : d.node? place = some .directory) :
    m.filesOfSources d A [source] =
      Path.dropRepeats (m.search d (A.join ⟨source⟩)) := by
  obtain ⟨slash, hplace⟩ := hplace
  have hfind : d.find (A.join ⟨source⟩) = .ok .directory := by
    unfold Disk.find
    rw [hplace]
    dsimp only
    rw [hnode]
  unfold filesOfSources filesOf Disk.isFile Disk.isDirectory
  rw [List.flatMap_singleton, hfind]
  rfl

/-- To find a file in the project, its one directory is opened. -/
theorem opens_of_findsBelow {name : String} {names : List String}
    (h : (nestedDisk name).FindsBelow [name] p names) :
    (p.entry "data").text.utf8ByteSize ≤ Disk.maxPath := by
  cases h with
  | file _ hnode =>
      have hmem := Disk.mem_entries_of_node? hnode
      simp [nestedDisk, Disk.holding, nestedTree] at hmem
  | step _ hnode hrest =>
      have hmem := Disk.mem_entries_of_node? hnode
      simp only [nestedDisk, Disk.holding, nestedTree, List.map_cons,
        List.map_nil, List.mem_cons, Prod.mk.injEq,
        List.cons_append, List.nil_append, List.cons.injEq, reduceCtorEq,
        and_false, and_true, true_and, false_or, or_false,
        List.not_mem_nil] at hmem
      subst hmem
      exact hrest.opens

/-- Where its one directory cannot be opened, no file of the project is
found. -/
theorem search_nestedDisk_eq_nil {name : String}
    (hplace : (nestedDisk name).LeadsTo p [name])
    (hlong : Disk.maxPath < (p.entry "data").text.utf8ByteSize) :
    m.search (nestedDisk name) p = [] := by
  refine List.eq_nil_iff_forall_not_mem.2 fun q hq => ?_
  have hfile := (mem_search.1 hq).1
  rw [Disk.filesIn_of_leadsTo hplace] at hfile
  obtain ⟨names, hnames, -⟩ := List.mem_map.1 hfile
  have hopens := opens_of_findsBelow (Disk.mem_filesBelow.1 hnames)
  omega

/-- Where it and its one directory are opened, the file of the project is
found. -/
theorem search_nestedDisk_ne_nil {name : String}
    (hplace : (nestedDisk name).LeadsTo p [name])
    (hopens : p.text.utf8ByteSize ≤ Disk.maxPath)
    (hopens' : (p.entry "data").text.utf8ByteSize ≤ Disk.maxPath) :
    ({} : Manifest).search (nestedDisk name) p ≠ [] := by
  have hplaced := Disk.node?_holding (List.cons_ne_nil name []) nestedTree
  have hdirectory : (nestedDisk name).node? [name, "data"] =
      some .directory := hplaced ["data"]
  have hnode : (nestedDisk name).node? [name, "data", "a.rcd.yaml"] =
      some (.file []) := hplaced ["data", "a.rcd.yaml"]
  have hway : (nestedDisk name).FindsBelow [name] p
      ["data", "a.rcd.yaml"] :=
    .step hopens hdirectory (.file hopens' hnode)
  have hdata : (["data", "a.rcd.yaml"].foldl Path.entry p).isDataFile =
      true := by
    rw [Path.isDataFile, Path.fileName?,
      Path.components_entries hplace.text_ne_empty (by decide),
      List.getLast?_append_of_ne_nil _ (by decide)]
    decide +kernel
  refine List.ne_nil_of_mem (mem_search.2 ⟨?_, hdata, rfl⟩)
  rw [Disk.filesIn_of_leadsTo hplace]
  exact List.mem_map_of_mem (Disk.mem_filesBelow.2 hway)

/-- Leaving out repeats leaves some path where there is one. -/
theorem dropRepeats_ne_nil {found : List Path} (h : found ≠ []) :
    Path.dropRepeats found ≠ [] := by
  cases found with
  | nil => exact absurd rfl h
  | cons q rest => exact List.cons_ne_nil _ _

/-- A path to the project itself that just lets the directory in it be
opened below the shorter name finds the file in this directory there, and
below the longer name nothing. -/
theorem not_listsAlike_inPlace {n : Nat}
    (hn : "game".utf8ByteSize + 7 + n = Disk.maxPath) :
    ¬ ListsAlike ⟨"game"⟩ ⟨"games"⟩
      (({} : Manifest).filesOfSources (nestedDisk "game") ⟨"game"⟩
        [inPlace (n + 1)])
      (({} : Manifest).filesOfSources (nestedDisk "games") ⟨"games"⟩
        [inPlace (n + 1)]) := by
  have hgame := size_join_inPlace "game" (by decide) (n + 1)
  have hgames := size_join_inPlace "games" (by decide) (n + 1)
  have hfits := size_entry_inPlace "game" (by decide) n
  have hlong := size_entry_inPlace "games" (by decide) n
  have hlonger : "games".utf8ByteSize = "game".utf8ByteSize + 1 := rfl
  have hplace : (nestedDisk "game").LeadsTo
      (Path.join ⟨"game"⟩ ⟨inPlace (n + 1)⟩) ["game"] :=
    leadsTo_inPlace ⟨false, rfl⟩ (by omega)
  have hplace' : (nestedDisk "games").LeadsTo
      (Path.join ⟨"games"⟩ ⟨inPlace (n + 1)⟩) ["games"] :=
    leadsTo_inPlace ⟨false, rfl⟩ (by omega)
  rw [filesOfSources_of_leadsTo hplace (by decide),
    filesOfSources_of_leadsTo hplace' (by decide),
    search_nestedDisk_eq_nil hplace' (by omega)]
  exact not_listsAlike_nil (dropRepeats_ne_nil
    (search_nestedDisk_ne_nil hplace (by omega) (by omega)))

/-- None of the conditions can be left out: a pattern may occur in the
place of the project, a source may lead out of it and back by its name,
and a longer name may make the path of a source too long, or that of a
directory below a source. -/
theorem filesOfSources_located :
    (Disk.IsCopy (loneDisk "game") ⟨"game"⟩ (loneDisk "temp") ⟨"temp"⟩ ∧
      ¬ ListsAlike ⟨"game"⟩ ⟨"temp"⟩
        (({ excludes := ["temp"] } : Manifest).filesOfSources
          (loneDisk "game") ⟨"game"⟩ ["."])
        (({ excludes := ["temp"] } : Manifest).filesOfSources
          (loneDisk "temp") ⟨"temp"⟩ ["."]) ∧
      ¬ ListsAlike ⟨"game"⟩ ⟨"temp"⟩
        (({} : Manifest).filesOfSources
          (loneDisk "game") ⟨"game"⟩ ["../game/a.rcd.yaml"])
        (({} : Manifest).filesOfSources
          (loneDisk "temp") ⟨"temp"⟩ ["../game/a.rcd.yaml"])) ∧
    (Disk.IsCopy (loneDisk "game") ⟨"game"⟩
        (loneDisk "games") ⟨"games"⟩ ∧
      ∃ source, (Path.mk source).IsInside ∧
        ¬ ListsAlike ⟨"game"⟩ ⟨"games"⟩
          (({} : Manifest).filesOfSources
            (loneDisk "game") ⟨"game"⟩ [source])
          (({} : Manifest).filesOfSources
            (loneDisk "games") ⟨"games"⟩ [source])) ∧
    Disk.IsCopy (nestedDisk "game") ⟨"game"⟩
        (nestedDisk "games") ⟨"games"⟩ ∧
      ∃ source, (Path.mk source).IsInside ∧
        Disk.TakesAlike ⟨"game"⟩ ⟨"games"⟩ ⟨source⟩ ∧
        ¬ ListsAlike ⟨"game"⟩ ⟨"games"⟩
          (({} : Manifest).filesOfSources
            (nestedDisk "game") ⟨"game"⟩ [source])
          (({} : Manifest).filesOfSources
            (nestedDisk "games") ⟨"games"⟩ [source]) := by
  have hgame : (loneDisk "game").IsProper := ⟨by decide, by decide⟩
  have hlead : (loneDisk "game").LeadsTo ⟨"game"⟩ ["game"] := ⟨false, rfl⟩
  refine ⟨⟨?_, ?_, ?_⟩, ⟨?_, ?_⟩, ?_, ?_⟩
  · exact isCopy_holding ⟨hgame, ⟨by decide, by decide⟩⟩ hlead
      ⟨false, rfl⟩
  · have hfound : ({ excludes := ["temp"] } : Manifest).filesOfSources
        (loneDisk "game") ⟨"game"⟩ ["."] = [⟨"game/./a.rcd.yaml"⟩] := by
      decide +kernel
    have hnone : ({ excludes := ["temp"] } : Manifest).filesOfSources
        (loneDisk "temp") ⟨"temp"⟩ ["."] = [] := by
      decide +kernel
    rw [hfound, hnone]
    exact not_listsAlike_nil (List.cons_ne_nil _ _)
  · rw [filesOfSources_of_isFile (by decide +kernel),
      filesOfSources_of_missing (by decide +kernel)]
    exact not_listsAlike_nil (List.cons_ne_nil _ _)
  · exact isCopy_holding ⟨hgame, ⟨by decide, by decide⟩⟩ hlead
      ⟨false, rfl⟩
  · obtain ⟨n, hn⟩ : ∃ n, "game".utf8ByteSize + 13 + n = Disk.maxPath :=
      ⟨4078, rfl⟩
    refine ⟨detour n, ⟨isAbsolute_detour n, ?_⟩, not_listsAlike_detour hn⟩
    rw [parts_detour]
    decide +kernel
  · exact isCopy_holding ⟨⟨by decide, by decide⟩, ⟨by decide, by decide⟩⟩
      ⟨false, rfl⟩ ⟨false, rfl⟩
  · obtain ⟨n, hn⟩ : ∃ n, "game".utf8ByteSize + 7 + n = Disk.maxPath :=
      ⟨4084, rfl⟩
    have hgame := size_join_inPlace "game" (by decide) (n + 1)
    have hgames := size_join_inPlace "games" (by decide) (n + 1)
    have hlonger : "games".utf8ByteSize = "game".utf8ByteSize + 1 := rfl
    refine ⟨inPlace (n + 1), ⟨isAbsolute_inPlace _, ?_⟩, ?_,
      not_listsAlike_inPlace hn⟩
    · rw [parts_inPlace]
      decide +kernel
    · unfold Disk.TakesAlike
      omega

end Manifest

end GamePack
