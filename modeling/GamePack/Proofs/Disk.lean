import GamePack.Disk

/-!
How a disk grows. Making directories and writing files takes nothing
away: directories stay, and so does every place where there is a file,
though another file may come to stand there. `Grows` says this of two
disks, together with the places whose files may differ. Since the pieces
of a path only pass through directories, a path leads to the same place
on a disk that has grown; so what it reads can only differ where a file
was written.

`Makes` says where directories are new. Making one only puts directories
at the places of its path and of the paths above it.
-/
namespace GamePack

/-- One path lies above another: it is what the other leaves when some of
its last components are taken off. -/
inductive Path.IsAbove (q : Path) : Path → Prop where
  | parent {p : Path} (h : p.parent? = some q) : IsAbove q p
  | further {p above : Path} (h : p.parent? = some above)
      (h' : IsAbove q above) : IsAbove q p

namespace Disk

variable {d d' d'' : Disk} {p q : Path} {names other : List String}
  {node : DiskNode} {content bytes : Bytes}
  {touched touched' : List String → Prop}

-- ============================================================= entries

/-- A row whose entry is replaced under one path answers alike under all
others. -/
theorem lookup_replace (entries : List (List String × DiskNode)) :
    (entries.map fun entry =>
        if entry.1 = names then (names, node) else entry).lookup other =
      if other = names then (entries.lookup names).map fun _ => node
      else entries.lookup other := by
  induction entries with
  | nil => simp
  | cons entry entries ih =>
      obtain ⟨key, value⟩ := entry
      rw [List.map_cons, List.lookup_cons, List.lookup_cons]
      by_cases hkey : key = names
      · subst hkey
        by_cases hother : other = key
        · simp [hother]
        · have hne : (other == key) = false := by simp [hother]
          simp [hother, hne, List.lookup_cons, ih]
      · have hkeys : (names == key) = false := by simp [Ne.symm hkey]
        by_cases hother : other = key
        · subst hother
          simp [hkey]
        · have hne : (other == key) = false := by simp [hother]
          simp [hkey, hkeys, hne, List.lookup_cons, ih]

/-- An entry that is put in place is there, and no other changes. -/
theorem node?_put (hne : names ≠ []) :
    (d.put names node).node? other =
      if other = names then some node else d.node? other := by
  unfold node?
  by_cases hroot : other = []
  · simp [hroot, hne.symm]
  · simp only [hroot, if_false, put]
    split
    next hthere =>
      obtain ⟨old, hold⟩ := Option.isSome_iff_exists.1 hthere
      simp [lookup_replace, hold]
    next hmissing =>
      rw [Option.not_isSome_iff_eq_none] at hmissing
      rw [List.lookup_append]
      by_cases hother : other = names
      · subst hother
        simp [hmissing]
      · have hne' : (other == names) = false := by simp [hother]
        simp [hother, List.lookup_cons, hne']

@[simp] theorem workDir_put (d : Disk) (names : List String)
    (node : DiskNode) : (d.put names node).workDir = d.workDir := by
  unfold put
  split <;> rfl

-- ============================================================== growth

/-- A disk that has grown: directories stay, places of files stay, and
files differ only at some places. -/
structure Grows (touched : List String → Prop) (d d' : Disk) : Prop where
  workDir : d'.workDir = d.workDir
  directory : ∀ {names}, d.node? names = some .directory →
    d'.node? names = some .directory
  file : ∀ {names content}, d.node? names = some (.file content) →
    ∃ content', d'.node? names = some (.file content')
  untouched : ∀ {names content}, ¬ touched names →
    (d'.node? names = some (.file content) ↔
      d.node? names = some (.file content))

namespace Grows

theorem refl (touched : List String → Prop) (d : Disk) :
    Grows touched d d :=
  ⟨rfl, id, fun h => ⟨_, h⟩, fun _ => Iff.rfl⟩

theorem trans (h : Grows touched d d') (h' : Grows touched d' d'') :
    Grows touched d d'' where
  workDir := h'.workDir.trans h.workDir
  directory := fun hnode => h'.directory (h.directory hnode)
  file := by
    intro names content hnode
    obtain ⟨content', hnode'⟩ := h.file hnode
    exact h'.file hnode'
  untouched := fun hfree => (h'.untouched hfree).trans (h.untouched hfree)

theorem mono (h : Grows touched d d')
    (hmore : ∀ names, touched names → touched' names) :
    Grows touched' d d' where
  workDir := h.workDir
  directory := h.directory
  file := h.file
  untouched := fun hfree => h.untouched fun htouched =>
    hfree (hmore _ htouched)

/-- Growth that touches nothing is growth of any kind. -/
theorem of_false (h : Grows (fun _ => False) d d') : Grows touched d d' :=
  h.mono fun _ hfalse => False.elim hfalse

end Grows

/-- A directory that is put where nothing is. -/
theorem grows_put_directory (h : d.node? names = none) :
    Grows (fun _ => False) d (d.put names .directory) := by
  have hne : names ≠ [] := by
    rintro rfl
    cases h
  refine ⟨workDir_put _ _ _, ?_, ?_, ?_⟩
  · intro other hnode
    rw [node?_put hne]
    split
    · rfl
    · exact hnode
  · intro other content hnode
    rw [node?_put hne, if_neg]
    · exact ⟨content, hnode⟩
    · rintro rfl
      rw [h] at hnode
      cases hnode
  · intro other content _
    rw [node?_put hne]
    split
    next hother =>
      subst hother
      simp [h]
    next => rfl

/-- A file that is put where no directory is. -/
theorem grows_put_file (hne : names ≠ [])
    (h : d.node? names ≠ some .directory) :
    Grows (· = names) d (d.put names (.file content)) := by
  refine ⟨workDir_put _ _ _, ?_, ?_, ?_⟩
  · intro other hnode
    rw [node?_put hne, if_neg]
    · exact hnode
    · rintro rfl
      exact h hnode
  · intro other content' hnode
    rw [node?_put hne]
    split
    · exact ⟨content, rfl⟩
    · exact ⟨content', hnode⟩
  · intro other content' hother
    rw [node?_put hne, if_neg hother]

-- =============================================================== paths

/-- A path leads to a place, which need not exist. -/
def LeadsTo (d : Disk) (p : Path) (names : List String) : Prop :=
  ∃ slash, d.locate p = .ok ⟨names, slash⟩

/-- Two paths lead to one place. -/
def SamePlace (d : Disk) (p q : Path) : Prop :=
  ∃ names, d.LeadsTo p names ∧ d.LeadsTo q names

instance (d : Disk) (p q : Path) : Decidable (d.SamePlace p q) :=
  match hp : d.locate p, hq : d.locate q with
  | .ok a, .ok b =>
    decidable_of_iff (a.names = b.names) (by
      constructor
      · intro hsame
        exact ⟨a.names, ⟨a.slash, hp⟩, b.slash, hsame ▸ hq⟩
      · rintro ⟨names, ⟨_, hp'⟩, _, hq'⟩
        cases hp.symm.trans hp'
        cases hq.symm.trans hq'
        rfl)
  | .error _, _ => .isFalse (by
      rintro ⟨names, ⟨_, hp'⟩, -⟩
      cases hp.symm.trans hp')
  | _, .error _ => .isFalse (by
      rintro ⟨names, -, _, hq'⟩
      cases hq.symm.trans hq')

/-- A path leads to one place. -/
theorem LeadsTo.unique (h : d.LeadsTo p names) (h' : d.LeadsTo p other) :
    names = other := by
  obtain ⟨_, h⟩ := h
  obtain ⟨_, h'⟩ := h'
  rw [h] at h'
  cases h'
  rfl

/-- The places on the way are directories, which stay. -/
theorem Grows.walk (h : Grows touched d d') {place : List String}
    {pieces : List (List Char)} (hwalk : d.walk place pieces = .ok names) :
    d'.walk place pieces = .ok names := by
  induction pieces generalizing place with
  | nil => exact hwalk
  | cons piece pieces ih =>
      unfold Disk.walk at hwalk ⊢
      split at hwalk
      · cases hwalk
      · cases hwalk
      next hnode =>
        rw [h.directory hnode]
        dsimp only at hwalk ⊢
        split at hwalk
        next hidle =>
          rw [if_pos hidle]
          exact ih hwalk
        next hidle =>
          rw [if_neg hidle]
          split at hwalk
          next hup =>
            rw [if_pos hup]
            exact ih hwalk
          next hup =>
            rw [if_neg hup]
            split at hwalk
            · cases hwalk
            next hshort =>
              rw [if_neg hshort]
              exact ih hwalk

/-- A path that was located leads to the same place after growth. -/
theorem Grows.locate (h : Grows touched d d') {place : Place}
    (hlocate : d.locate p = .ok place) : d'.locate p = .ok place := by
  unfold Disk.locate at hlocate ⊢
  rw [h.workDir]
  dsimp only at hlocate ⊢
  split at hlocate
  · cases hlocate
  next hsome =>
    rw [if_neg hsome]
    split at hlocate
    · cases hlocate
    next hclean =>
      rw [if_neg hclean]
      split at hlocate
      · cases hlocate
      next hshort =>
        rw [if_neg hshort]
        split at hlocate
        · cases hlocate
        next names hwalk =>
          rw [h.walk hwalk]
          exact hlocate

/-- Where a path led, it still leads after growth. -/
theorem Grows.leadsTo (h : Grows touched d d') (hp : d.LeadsTo p names) :
    d'.LeadsTo p names := by
  obtain ⟨slash, hp⟩ := hp
  exact ⟨slash, h.locate hp⟩

-- ============================================================= reading

/-- A path can be read when it leads to a file and asks for no directory,
and then it gives the content. -/
theorem read_ok_iff : d.read p = .ok bytes ↔
    ∃ names, d.locate p = .ok ⟨names, false⟩ ∧
      d.node? names = some (.file bytes) := by
  unfold read find
  cases hlocate : d.locate p with
  | error fault => simp
  | ok place =>
      obtain ⟨names, slash⟩ := place
      cases hnode : d.node? names with
      | none => simp [hnode]
      | some node =>
          cases node with
          | directory => simp [hnode]
          | file content => cases slash <;> simp [hnode]

theorem isFile_iff : d.isFile p = true ↔ ∃ bytes, d.read p = .ok bytes := by
  unfold isFile read
  cases hfind : d.find p with
  | error fault => simp
  | ok node => cases node <;> simp

/-- A file is read as before where no other was written. -/
theorem Grows.read (h : Grows touched d d')
    (hfree : ∀ names, d'.LeadsTo p names → ¬ touched names)
    (hread : d.read p = .ok bytes) : d'.read p = .ok bytes := by
  obtain ⟨names, hlocate, hnode⟩ := read_ok_iff.1 hread
  have hlocate' := h.locate hlocate
  exact read_ok_iff.2
    ⟨names, hlocate', (h.untouched (hfree names ⟨_, hlocate'⟩)).2 hnode⟩

/-- What was a file is one after growth. -/
theorem Grows.isFile (h : Grows touched d d') (hfile : d.isFile p = true) :
    d'.isFile p = true := by
  obtain ⟨bytes, hread⟩ := isFile_iff.1 hfile
  obtain ⟨names, hlocate, hnode⟩ := read_ok_iff.1 hread
  obtain ⟨content, hnode'⟩ := h.file hnode
  exact isFile_iff.2
    ⟨content, read_ok_iff.2 ⟨names, h.locate hlocate, hnode'⟩⟩

-- ============================================================= writing

/-- Making a directory touches no file. -/
theorem grows_makeDirectory (h : d.makeDirectory p = .ok d') :
    Grows (fun _ => False) d d' := by
  unfold makeDirectory at h
  split at h
  · cases h
  · split at h
    · cases h
    next hnone =>
      cases h
      exact grows_put_directory hnone

/-- Making directories only adds directories, also where it fails. -/
theorem grows_makeDirectoriesWithin (fuel : Nat) (d : Disk) (p : Path) :
    Grows (fun _ => False) d (d.makeDirectoriesWithin fuel p).2 := by
  induction fuel generalizing d p with
  | zero =>
      unfold makeDirectoriesWithin
      split
      · exact .refl _ d
      · split
        next hmake => exact grows_makeDirectory hmake
        next => exact .refl _ d
        next => exact .refl _ d
  | succ fuel ih =>
      unfold makeDirectoriesWithin
      split
      · exact .refl _ d
      · split
        next hmake => exact grows_makeDirectory hmake
        next =>
          -- the directories above are made first, then this one is tried
          -- again
          cases p.parent? with
          | none => exact .refl _ d
          | some above =>
              have habove := ih d above
              rcases hup : d.makeDirectoriesWithin fuel above with ⟨r, d₁⟩
              rw [hup] at habove
              simp only [hup]
              cases r with
              | error fault => exact habove
              | ok u =>
                  dsimp only
                  split
                  next hmake =>
                    exact habove.trans (grows_makeDirectory hmake)
                  next => exact habove
        next => exact .refl _ d

/-- Making a directory with all above it touches no file, also where it
stops with a failure. -/
theorem grows_makeDirectories (d : Disk) (p : Path) :
    Grows (fun _ => False) d (d.makeDirectories p).2 :=
  grows_makeDirectoriesWithin _ d p

/-- A file that is written can be read, and no other file changes. -/
theorem write_ok (h : d.write p bytes = .ok d') :
    ∃ names, d'.LeadsTo p names ∧ Grows (· = names) d d' ∧
      d'.read p = .ok bytes := by
  unfold write at h
  split at h
  · cases h
  next place hlocate =>
    obtain ⟨names, slash⟩ := place
    dsimp only at h
    split at h
    · cases h
    · cases h
    · cases h
    next hnode =>
      obtain rfl := Except.ok.inj h
      have hne : names ≠ [] := by
        rintro rfl
        exact hnode rfl
      have hgrows : Grows (· = names) d (d.put names (.file bytes)) :=
        grows_put_file hne hnode
      have hlocate' := hgrows.locate hlocate
      refine ⟨names, ⟨_, hlocate'⟩, hgrows, ?_⟩
      refine read_ok_iff.2 ⟨names, hlocate', ?_⟩
      rw [node?_put hne, if_pos rfl]

-- ==================================================== new directories

/-- A place that a path above another leads to. -/
def LeadsAbove (d : Disk) (p : Path) (names : List String) : Prop :=
  ∃ q : Path, q.IsAbove p ∧ d.LeadsTo q names

/-- Where a path above led, it still leads after growth. -/
theorem Grows.leadsAbove (h : Grows touched d d')
    (hp : d.LeadsAbove p names) : d'.LeadsAbove p names := by
  obtain ⟨q, hq, hleads⟩ := hp
  exact ⟨q, hq, h.leadsTo hleads⟩

/-- What a path above leads to, and all above it, is above the path. -/
theorem leadsAbove_of_parent? (hparent : p.parent? = some q)
    (h : d.LeadsTo q names ∨ d.LeadsAbove q names) :
    d.LeadsAbove p names := by
  rcases h with hleads | ⟨r, hr, hleads⟩
  · exact ⟨q, .parent hparent, hleads⟩
  · exact ⟨r, .further hparent hr, hleads⟩

/-- The directories of a disk were there on an earlier one, or are at
some places. -/
def Makes (made : List String → Prop) (d d' : Disk) : Prop :=
  ∀ names, d'.node? names = some .directory →
    d.node? names = some .directory ∨ made names

namespace Makes

variable {made made' : List String → Prop}

theorem refl (made : List String → Prop) (d : Disk) : Makes made d d :=
  fun _ hnode => .inl hnode

theorem trans (h : Makes made d d') (h' : Makes made d' d'') :
    Makes made d d'' := by
  intro names hnode
  rcases h' names hnode with hnode | hmade
  · exact h names hnode
  · exact .inr hmade

theorem mono (h : Makes made d d')
    (hmore : ∀ names, made names → made' names) : Makes made' d d' :=
  fun names hnode => (h names hnode).imp_right (hmore names)

end Makes

/-- Putting an entry makes a directory only when it is one, and only
there. -/
theorem makes_put (hne : names ≠ []) :
    Makes (fun other => other = names ∧ node = .directory) d
      (d.put names node) := by
  intro other hnode
  rw [node?_put hne] at hnode
  split at hnode
  next hother => exact .inr ⟨hother, Option.some.inj hnode⟩
  next => exact .inl hnode

/-- Making a directory makes the one that the path then leads to. -/
theorem makes_makeDirectory (h : d.makeDirectory p = .ok d') :
    Makes (d'.LeadsTo p) d d' := by
  have hgrows := grows_makeDirectory h
  unfold makeDirectory at h
  split at h
  · cases h
  next place hlocate =>
    split at h
    · cases h
    next hnone =>
      cases h
      have hne : place.names ≠ [] := by
        intro hroot
        rw [hroot] at hnone
        cases hnone
      refine (makes_put hne).mono ?_
      rintro names ⟨rfl, -⟩
      exact hgrows.leadsTo ⟨_, hlocate⟩

/-- Directories are made for a path and for paths above it, also where
this fails. -/
theorem makes_makeDirectoriesWithin (fuel : Nat) (d : Disk) (p : Path) :
    Makes (fun names => (d.makeDirectoriesWithin fuel p).2.LeadsTo p names ∨
        (d.makeDirectoriesWithin fuel p).2.LeadsAbove p names)
      d (d.makeDirectoriesWithin fuel p).2 := by
  induction fuel generalizing d p with
  | zero =>
      unfold makeDirectoriesWithin
      split
      · exact .refl _ d
      · split
        next hmake =>
          exact (makes_makeDirectory hmake).mono fun _ => .inl
        next => exact .refl _ d
        next => exact .refl _ d
  | succ fuel ih =>
      unfold makeDirectoriesWithin
      split
      · exact .refl _ d
      · split
        next hmake =>
          exact (makes_makeDirectory hmake).mono fun _ => .inl
        next =>
          -- the directories above are made first, then this one is tried
          -- again
          cases hparent : p.parent? with
          | none => exact .refl _ d
          | some above =>
              have habove := ih d above
              rcases hup : d.makeDirectoriesWithin fuel above with ⟨r, d₁⟩
              rw [hup] at habove
              replace habove : Makes (d₁.LeadsAbove p) d d₁ :=
                habove.mono fun _ => leadsAbove_of_parent? hparent
              simp only [hup]
              cases r with
              | error fault => exact habove.mono fun _ => .inr
              | ok u =>
                  dsimp only
                  split
                  next hmake =>
                    have hgrows := grows_makeDirectory hmake
                    refine (habove.mono fun _ hleads => ?_).trans
                      ((makes_makeDirectory hmake).mono fun _ => .inl)
                    exact .inr (hgrows.leadsAbove hleads)
                  next => exact habove.mono fun _ => .inr
        next => exact .refl _ d

/-- Making a directory with all above it makes no other than those, also
where it stops with a failure. -/
theorem makes_makeDirectories (d : Disk) (p : Path) :
    Makes (fun names => (d.makeDirectories p).2.LeadsTo p names ∨
        (d.makeDirectories p).2.LeadsAbove p names)
      d (d.makeDirectories p).2 :=
  makes_makeDirectoriesWithin _ d p

/-- Writing a file makes no directories. -/
theorem makes_write (h : d.write p bytes = .ok d') :
    Makes (fun _ => False) d d' := by
  unfold write at h
  split at h
  · cases h
  · split at h
    · cases h
    · cases h
    · cases h
    next hnode =>
      obtain rfl := Except.ok.inj h
      refine (makes_put ?_).mono ?_
      · intro hroot
        rw [hroot] at hnode
        exact hnode rfl
      · rintro names ⟨-, hdirectory⟩
        cases hdirectory

end Disk

end GamePack
