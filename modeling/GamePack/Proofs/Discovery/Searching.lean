import GamePack.Discovery
import GamePack.Proofs.Path
import GamePack.Proofs.Disk
import GamePack.Proofs.Yaml.Records

/-!
What a search finds. On a disk each entry has a place of its own, and the
names on the way to it are names: none is empty, leads nowhere or has a
slash in it. A walk down from a directory finds what `FindsBelow` leads
to, since no way down is longer than the disk has levels. So the files
below a directory have different paths, and since a search only leaves
out some of them and puts the rest into order, it finds no path twice.
-/
namespace GamePack

-- =============================================================== names

namespace Path

variable {p q : Path} {name : String} {names : List String}

/-- A text that can be the name of an entry. -/
def IsEntryName (name : String) : Prop :=
  name ≠ "" ∧ name ≠ "." ∧ name ≠ ".." ∧ '/' ∉ name.toList

instance (name : String) : Decidable (IsEntryName name) :=
  inferInstanceAs (Decidable (_ ∧ _))

/-- A name of an entry is a relative path. -/
theorem IsEntryName.isAbsolute (h : IsEntryName name) :
    (Path.mk name).isAbsolute = false := by
  obtain ⟨-, -, -, hslash⟩ := h
  rw [Path.isAbsolute, beq_eq_false_iff_ne]
  intro hhead
  exact hslash (List.mem_of_head? hhead)

/-- The name of an entry is one step. -/
theorem IsEntryName.steps (h : IsEntryName name) :
    (Path.mk name).steps = [.name name] := by
  obtain ⟨hempty, hdot, hup, hslash⟩ := h
  have hidle : isIdle name.toList = false := by
    simp only [isIdle, Bool.or_eq_false_iff, beq_eq_false_iff_ne]
    refine ⟨by simpa using hempty, fun h => hdot ?_⟩
    exact String.toList_inj.1 h
  have hparent : name.toList ≠ ['.', '.'] :=
    fun h => hup (String.toList_inj.1 h)
  have hpiece : name.toList.isEmpty = false := by
    simpa using hempty
  simp [Path.steps, parts, pieces_of_not_mem hslash, componentOf, hidle,
    hparent, hpiece]

/-- Rows of components that are names differ when the names do. -/
theorem map_name_injective :
    Function.Injective (List.map Component.name) :=
  List.map_injective_iff.2 fun _ _ h => Component.name.inj h

/-- Names of entries add themselves to the components of a path. -/
theorem components_entries (hp : p.text ≠ "")
    (hnames : ∀ name ∈ names, IsEntryName name) :
    (names.foldl entry p).components =
      p.components ++ names.map .name := by
  induction names generalizing p with
  | nil => simp
  | cons name names ih =>
      have hname := hnames name List.mem_cons_self
      have hbelow : (p.entry name).components =
          p.components ++ [.name name] := by
        rw [entry, components_join hp hname.isAbsolute, hname.steps]
      have hrest := ih (p := p.entry name) (join_ne_empty hp)
        fun other hother => hnames other (List.mem_cons_of_mem _ hother)
      rw [List.foldl_cons, hrest, hbelow, List.append_assoc]
      rfl

/-- Names of entries behind a path that is joined to another. -/
theorem entries_join (A p : Path) (names : List String) :
    names.foldl entry (A.join p) = A.join (names.foldl entry p) := by
  induction names generalizing p with
  | nil => rfl
  | cons name names ih =>
      rw [List.foldl_cons, List.foldl_cons, entry, join_assoc]
      exact ih (p.join ⟨name⟩)

/-- Names of entries behind a path that is not absolute add themselves to
its steps. -/
theorem steps_entries (hp : p.isAbsolute = false)
    (hnames : ∀ name ∈ names, IsEntryName name) :
    (names.foldl entry p).isAbsolute = false ∧
      (names.foldl entry p).steps = p.steps ++ names.map .name := by
  induction names generalizing p with
  | nil => simp [hp]
  | cons name names ih =>
      have hname := hnames name List.mem_cons_self
      have hbelow : (p.entry name).isAbsolute = false := by
        by_cases hempty : p.text = ""
        · rw [isAbsolute, entry, toList_join hname.isAbsolute, hempty]
          exact hname.isAbsolute
        · rw [entry, isAbsolute_join hempty hname.isAbsolute, hp]
      obtain ⟨hrest, hsteps⟩ := ih hbelow
        fun other hother => hnames other (List.mem_cons_of_mem _ hother)
      refine ⟨hrest, ?_⟩
      rw [List.foldl_cons, hsteps, entry, steps_join hname.isAbsolute,
        hname.steps, List.append_assoc]
      rfl

/-- Where entries have names, the paths to them are known by their
steps. -/
theorem known_of_entries {found : List (List String)}
    (hp : p.isAbsolute = false)
    (hfound : ∀ names ∈ found, names ≠ [] ∧
      ∀ name ∈ names, IsEntryName name) :
    ∀ q ∈ found.map (·.foldl entry p), q.isAbsolute = false ∧
      q.steps ≠ [] ∧
        ∀ r ∈ found.map (·.foldl entry p), q.steps = r.steps → q = r := by
  intro q hq
  obtain ⟨names, hnames, rfl⟩ := List.mem_map.1 hq
  obtain ⟨hsome, hproper⟩ := hfound names hnames
  obtain ⟨hrelative, hsteps⟩ := steps_entries hp hproper
  rw [hsteps]
  refine ⟨hrelative, by simp [hsome], ?_⟩
  intro r hr hsame
  obtain ⟨others, hothers, rfl⟩ := List.mem_map.1 hr
  rw [(steps_entries hp (hfound others hothers).2).2] at hsame
  rw [map_name_injective (List.append_cancel_left hsame)]

/-- A list of paths in which none stands twice. -/
def AreDistinct (files : List Path) : Prop :=
  files.Pairwise fun p q => p.same q = false

instance (files : List Path) : Decidable (AreDistinct files) :=
  inferInstanceAs (Decidable (files.Pairwise _))

/-- Paths that are distinct are so in any order. -/
theorem AreDistinct.perm {files files' : List Path}
    (h : AreDistinct files) (hperm : files.Perm files') :
    AreDistinct files' := by
  refine (hperm.pairwise_iff ?_).1 h
  intro p q hpq
  rw [same, beq_eq_false_iff_ne] at *
  exact Ne.symm hpq

end Path

-- ============================================================= listing

namespace Disk

variable {d : Disk} {p : Path} {dir names : List String}

/-- A disk whose entries have places of their own, and proper names. -/
structure IsProper (d : Disk) : Prop where
  distinct : (d.entries.map Prod.fst).Nodup
  named : ∀ entry ∈ d.entries, ∀ name ∈ entry.1, Path.IsEntryName name

/-- A way down from a directory to a file, by names. Each directory on the
way, the first one included, is opened by its path, which the system must
take. -/
inductive FindsBelow (d : Disk) :
    List String → Path → List String → Prop where
  | file {dir : List String} {p : Path} {name : String} {content : Bytes}
      (hopens : p.text.utf8ByteSize ≤ maxPath)
      (hnode : d.node? (dir ++ [name]) = some (.file content)) :
      FindsBelow d dir p [name]
  | step {dir names : List String} {p : Path} {name : String}
      (hopens : p.text.utf8ByteSize ≤ maxPath)
      (hnode : d.node? (dir ++ [name]) = some .directory)
      (hrest : FindsBelow d (dir ++ [name]) (p.entry name) names) :
      FindsBelow d dir p (name :: names)

/-- What stands at a name is an entry of the disk. -/
theorem mem_entries_of_node? {name : String} {node : DiskNode}
    (h : d.node? (dir ++ [name]) = some node) :
    (dir ++ [name], node) ∈ d.entries := by
  rw [node?, if_neg (by simp)] at h
  obtain ⟨front, back, hentries, -⟩ := List.lookup_eq_some_iff.1 h
  rw [hentries]
  exact List.mem_append_right front List.mem_cons_self

/-- The names in a directory are those that its entries end in. -/
theorem mem_namesIn {name : String} :
    name ∈ d.namesIn dir ↔ ∃ node, (dir ++ [name], node) ∈ d.entries := by
  rw [namesIn, List.mem_filterMap]
  constructor
  · rintro ⟨⟨place, node⟩, hentry, hname⟩
    split at hname
    next hdir =>
      dsimp only at hdir hname
      rw [← hdir, List.dropLast_append_getLast? name hname]
      exact ⟨node, hentry⟩
    next => cases hname
  · rintro ⟨node, hentry⟩
    refine ⟨_, hentry, ?_⟩
    rw [List.dropLast_concat, if_pos rfl, List.getLast?_concat]

/-- Walking down so many levels finds the files that so many names lead
to. -/
theorem mem_filesBelow_iff {levels : Nat} :
    names ∈ d.filesBelow levels dir p ↔
      names.length ≤ levels ∧ d.FindsBelow dir p names := by
  induction levels generalizing dir p names with
  | zero =>
      refine ⟨fun h => absurd h List.not_mem_nil, fun h => ?_⟩
      obtain ⟨hlength, hway⟩ := h
      cases hway with
      | file => cases hlength
      | step => cases hlength
  | succ levels ih =>
      rw [filesBelow]
      split
      next hlong =>
        refine ⟨fun h => absurd h List.not_mem_nil, fun h => ?_⟩
        cases h.2 with
        | file hopens => omega
        | step hopens => omega
      next hshort =>
        have hopens := Nat.not_lt.1 hshort
        rw [List.mem_flatMap]
        constructor
        · rintro ⟨name, -, hfound⟩
          obtain ⟨rest, hrest, rfl⟩ := List.mem_map.1 hfound
          split at hrest
          next => cases hrest
          next content hnode =>
            obtain rfl := List.mem_singleton.1 hrest
            exact ⟨Nat.succ_pos levels, .file hopens hnode⟩
          next hnode =>
            obtain ⟨hlength, hway⟩ := ih.1 hrest
            exact ⟨Nat.succ_le_succ hlength, .step hopens hnode hway⟩
        · rintro ⟨hlength, hway⟩
          cases hway with
          | file _ hnode =>
              refine ⟨_, mem_namesIn.2 ⟨_, mem_entries_of_node? hnode⟩,
                List.mem_map_of_mem ?_⟩
              rw [hnode]
              exact List.mem_singleton_self []
          | step _ hnode hrest =>
              refine ⟨_, mem_namesIn.2 ⟨_, mem_entries_of_node? hnode⟩,
                List.mem_map_of_mem ?_⟩
              rw [hnode]
              exact ih.2 ⟨Nat.le_of_succ_le_succ hlength, hrest⟩

/-- A disk has as many levels as the names of an entry. -/
theorem length_le_levels {entry : List String × DiskNode}
    (h : entry ∈ d.entries) : entry.1.length ≤ d.levels := by
  unfold levels
  generalize d.entries = entries at h
  induction entries with
  | nil => exact absurd h List.not_mem_nil
  | cons other entries ih =>
      rw [List.foldr_cons]
      rcases List.mem_cons.1 h with rfl | h
      · exact Nat.le_max_left _ _
      · exact Nat.le_trans (ih h) (Nat.le_max_right _ _)

namespace FindsBelow

/-- A way down ends at a file, which is an entry of the disk. -/
theorem exists_entry (h : d.FindsBelow dir p names) :
    names ≠ [] ∧ ∃ content, (dir ++ names, .file content) ∈ d.entries := by
  induction h with
  | file _ hnode =>
      exact ⟨List.cons_ne_nil _ _, _, mem_entries_of_node? hnode⟩
  | step _ _ _ ih =>
      obtain ⟨-, content, hentry⟩ := ih
      rw [List.append_assoc] at hentry
      exact ⟨List.cons_ne_nil _ _, content, hentry⟩

/-- A way down begins with a directory that is opened. -/
theorem opens (h : d.FindsBelow dir p names) :
    p.text.utf8ByteSize ≤ maxPath := by
  cases h with
  | file hopens => exact hopens
  | step hopens => exact hopens

/-- No way down is longer than the disk has levels. -/
theorem length_le (h : d.FindsBelow dir p names) :
    names.length ≤ d.levels := by
  obtain ⟨-, content, hentry⟩ := h.exists_entry
  have hlevels := length_le_levels hentry
  rw [List.length_append] at hlevels
  omega

/-- On a proper disk a way down is one of names. -/
theorem named (h : d.FindsBelow dir p names) (hproper : d.IsProper) :
    ∀ name ∈ names, Path.IsEntryName name := by
  obtain ⟨-, content, hentry⟩ := h.exists_entry
  intro name hname
  exact hproper.named _ hentry name (List.mem_append_right dir hname)

end FindsBelow

/-- All levels of a disk are enough to find every file below a
directory. -/
theorem mem_filesBelow : names ∈ d.filesBelow d.levels dir p ↔
    d.FindsBelow dir p names :=
  mem_filesBelow_iff.trans
    ⟨And.right, fun h => ⟨h.length_le, h⟩⟩

/-- The entries right in a directory have different names. -/
theorem IsProper.nodup_namesIn (h : d.IsProper) (dir : List String) :
    (d.namesIn dir).Nodup := by
  unfold namesIn
  refine (List.pairwise_map.1 h.distinct).filterMap _ ?_
  intro entry other hdiffer name hname other' hother hsame
  subst hsame
  split at hname
  next hdir =>
    split at hother
    next hdir' =>
      refine hdiffer ?_
      rw [← List.dropLast_append_getLast? name hname,
        ← List.dropLast_append_getLast? name hother, hdir, hdir']
    next => cases hother
  next => cases hname

/-- Every file below a directory is found once: two ways down that start
with one name go on below the same directory. -/
theorem IsProper.nodup_filesBelow (h : d.IsProper) (levels : Nat)
    (dir : List String) (p : Path) :
    (d.filesBelow levels dir p).Nodup := by
  induction levels generalizing dir p with
  | zero => exact List.nodup_nil
  | succ levels ih =>
      rw [filesBelow]
      split
      · exact List.nodup_nil
      refine List.nodup_flatMap.2 ⟨fun name _ => ?_,
        (h.nodup_namesIn dir).imp fun hdiffer => ?_⟩
      · refine List.Nodup.map List.cons_injective ?_
        split
        · exact List.nodup_nil
        · exact List.nodup_singleton _
        · exact ih _ _
      · intro names hnames hothers
        obtain ⟨rest, -, rfl⟩ := List.mem_map.1 hnames
        obtain ⟨other, -, hsame⟩ := List.mem_map.1 hothers
        exact hdiffer (List.cons.inj hsame).1.symm

/-- The empty path leads nowhere. -/
theorem LeadsTo.text_ne_empty (h : d.LeadsTo p names) : p.text ≠ "" := by
  obtain ⟨slash, h⟩ := h
  intro hempty
  rw [locate, hempty] at h
  cases h

/-- The files below a directory have paths below the one that leads to
it. -/
theorem filesIn_of_leadsTo (h : d.LeadsTo p dir) :
    d.filesIn p =
      (d.filesBelow d.levels dir p).map (·.foldl Path.entry p) := by
  obtain ⟨slash, h⟩ := h
  unfold filesIn
  rw [h]

/-- Different files below a directory have different paths. -/
theorem IsProper.areDistinct_filesIn (h : d.IsProper) (p : Path) :
    Path.AreDistinct (d.filesIn p) := by
  unfold filesIn
  split
  · exact List.Pairwise.nil
  next place hplace =>
    have hne : p.text ≠ "" :=
      LeadsTo.text_ne_empty ⟨place.slash, hplace⟩
    have hfound := h.nodup_filesBelow d.levels place.names p
    refine List.pairwise_map.2 (hfound.imp_of_mem ?_)
    intro names other hnames hother hdiffer
    rw [Path.same, beq_eq_false_iff_ne,
      Path.components_entries hne ((mem_filesBelow.1 hnames).named h),
      Path.components_entries hne ((mem_filesBelow.1 hother).named h)]
    intro hsame
    exact hdiffer
      (Path.map_name_injective (List.append_cancel_left hsame))

end Disk

-- ============================================================== search

namespace Manifest

variable {d : Disk}

/-- A search finds no path twice, and a file is one path. -/
theorem areDistinct_filesOf (m : Manifest) (h : d.IsProper)
    (source : Path) : Path.AreDistinct (m.filesOf d source) := by
  unfold filesOf
  split
  · exact List.pairwise_singleton _ source
  · split
    · refine Path.AreDistinct.perm ?_ (List.mergeSort_perm _ Path.le).symm
      exact (h.areDistinct_filesIn source).filter _
    · exact List.Pairwise.nil

end Manifest

end GamePack
