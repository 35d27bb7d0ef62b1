import GamePack.Proofs.Discovery.Searching

/-!
Directories that hold the same tree. A path that does not lead out of the
directory it is put in is walked in the same way in both, step by step,
so it leads to the same, and below it there are the same files. All that
can tell the two apart is how long a whole path is, since the system
limits that: the path that is looked up, and that of each directory that
is opened on the way down from it (`OpensAlike`).
-/
namespace GamePack

-- =============================================================== walks

namespace Path

/-- Whether a walk from some levels down stays below where the levels
begin. -/
def staysInside : Nat → List (List Char) → Bool
  | _, [] => true
  | depth, piece :: rest =>
    if isIdle piece then staysInside depth rest
    else if piece = ['.', '.'] then
      depth != 0 && staysInside (depth - 1) rest
    else staysInside (depth + 1) rest

/-- A path that starts where it is put and does not lead out of there. -/
def IsInside (p : Path) : Prop :=
  p.isAbsolute = false ∧ staysInside 0 p.parts = true

instance (p : Path) : Decidable p.IsInside :=
  inferInstanceAs (Decidable (_ ∧ _))

end Path

namespace Disk

variable {d d' : Disk} {a b place names : List String} {A B p q : Path}

/-- A walk along two rows of parts goes on from where the first one ends.
-/
theorem walk_append (place : List String) (xs ys : List (List Char)) :
    d.walk place (xs ++ ys) =
      (d.walk place xs >>= fun reached => d.walk reached ys) := by
  induction xs generalizing place with
  | nil => rfl
  | cons piece xs ih =>
      rw [List.cons_append, walk, walk]
      split
      · rfl
      · rfl
      · split
        · exact ih place
        · split
          · exact ih place.dropLast
          · dsimp only
            split
            · rfl
            · exact ih _

/-- A path that leads somewhere has a walk to there, and nothing in it
that no walk begins with. -/
theorem LeadsTo.walk_parts (h : d.LeadsTo A a) :
    A.text ≠ "" ∧ A.text.toList.contains '\x00' = false ∧
      d.walk (if A.isAbsolute then [] else d.workDir) A.parts = .ok a := by
  obtain ⟨slash, h⟩ := h
  unfold locate at h
  dsimp only at h
  split at h
  · cases h
  next hempty =>
    split at h
    · cases h
    next hnul =>
      split at h
      · cases h
      · split at h
        · cases h
        next names hwalk =>
          cases h
          refine ⟨?_, by simpa using hnul, hwalk⟩
          intro hnone
          rw [hnone] at hempty
          exact hempty rfl

/-- Whether a path that is put behind another ends in a slash. -/
def endsOpen (p : Path) : Bool :=
  p.text.isEmpty || p.text.toList.getLast? == some '/'

/-- Whether a joined path ends in a slash is told by what was joined. -/
theorem getLast?_join (hA : A.text ≠ "") (hp : p.isAbsolute = false) :
    ((A.join p).text.toList.getLast? == some '/') = endsOpen p := by
  have hne : A.text.toList ≠ [] := by simpa using hA
  obtain ⟨front, -, hfront⟩ := Path.exists_front hne
  rw [Path.toList_join hp, hfront, endsOpen]
  by_cases hempty : p.text = ""
  · simp [hempty]
  · have hlist : p.text.toList ≠ [] := by simpa using hempty
    rw [List.getLast?_append_of_ne_nil _ hlist]
    simp [hempty]

/-- Behind a path that leads somewhere the walk goes on from there. -/
theorem locate_join (hA : d.LeadsTo A a) (hp : p.isAbsolute = false) :
    d.locate (A.join p) =
      if p.text.toList.contains '\x00' then .error .nulInPath
      else if maxPath < (A.join p).text.utf8ByteSize then
        .error .nameTooLong
      else (d.walk a p.parts).map fun names => ⟨names, endsOpen p⟩ := by
  obtain ⟨hne, hclean, hwalk⟩ := hA.walk_parts
  have hnonempty : (A.join p).text.toList.isEmpty = false := by
    simpa using Path.join_ne_empty hne
  have hnul : (A.join p).text.toList.contains '\x00' =
      p.text.toList.contains '\x00' := by
    have hlist : A.text.toList ≠ [] := by simpa using hne
    obtain ⟨front, hcs, hfront⟩ := Path.exists_front hlist
    have hfree : front.contains '\x00' = false := by
      rcases hcs with hcs | hcs
      · rw [← hcs]
        exact hclean
      · rw [hcs] at hclean
        simpa using hclean
    rw [Path.toList_join hp, hfront, List.contains_append,
      List.contains_append, hfree]
    rfl
  have hparts : (Path.pieces (A.join p).text.toList).filter
      (!·.isEmpty) = A.parts ++ p.parts := Path.parts_join hp
  unfold locate
  dsimp only
  rw [hnonempty, hnul, hparts, Path.isAbsolute_join hne hp, walk_append,
    hwalk, ok_bind, getLast?_join hne hp]
  simp only [Bool.false_eq_true, if_false]
  split
  · rfl
  · split
    · rfl
    · cases d.walk a p.parts with
      | error fault => rfl
      | ok names => rfl

/-- Two places, on one disk or on two, with the same below them. -/
def SameBelow (d : Disk) (a : List String) (d' : Disk) (b : List String) :
    Prop :=
  ∀ names, d.node? (a ++ names) = d'.node? (b ++ names)

/-- A walk that stays inside goes the same way in both places. -/
theorem walk_copy (hsame : SameBelow d a d' b) {pieces : List (List Char)}
    {below : List String}
    (hinside : Path.staysInside below.length pieces = true) :
    ∃ r : Except IoFault (List String),
      d.walk (a ++ below) pieces = r.map (a ++ ·) ∧
        d'.walk (b ++ below) pieces = r.map (b ++ ·) := by
  induction pieces generalizing below with
  | nil => exact ⟨.ok below, rfl, rfl⟩
  | cons piece pieces ih =>
      rw [Path.staysInside] at hinside
      rw [walk, walk, hsame below]
      cases d'.node? (b ++ below) with
      | none => exact ⟨.error .notFound, rfl, rfl⟩
      | some node =>
          cases node with
          | file content => exact ⟨.error .notDirectory, rfl, rfl⟩
          | directory =>
              dsimp only
              by_cases hidle : Path.isIdle piece = true
              · rw [if_pos hidle] at hinside ⊢
                rw [if_pos hidle]
                exact ih hinside
              rw [if_neg hidle] at hinside ⊢
              rw [if_neg hidle]
              by_cases hup : piece = ['.', '.']
              · rw [if_pos hup] at hinside ⊢
                rw [if_pos hup]
                rw [Bool.and_eq_true, bne_iff_ne] at hinside
                obtain ⟨hdeep, hinside⟩ := hinside
                have hne : below ≠ [] := by
                  intro hempty
                  exact hdeep (by rw [hempty, List.length_nil])
                rw [List.dropLast_append_of_ne_nil hne,
                  List.dropLast_append_of_ne_nil hne]
                refine ih ?_
                rw [List.length_dropLast]
                exact hinside
              rw [if_neg hup] at hinside ⊢
              rw [if_neg hup]
              by_cases hlong : maxName < (String.ofList piece).utf8ByteSize
              · rw [if_pos hlong, if_pos hlong]
                exact ⟨.error .nameTooLong, rfl, rfl⟩
              · rw [if_neg hlong, if_neg hlong, List.append_assoc,
                  List.append_assoc]
                refine ih ?_
                rw [List.length_append, List.length_singleton]
                exact hinside

/-- A place below another. -/
def Place.under (a : List String) (place : Place) : Place :=
  { place with names := a ++ place.names }

/-- A directory that holds the same tree as another, which may be on the
same disk. -/
structure IsCopy (d : Disk) (A : Path) (d' : Disk) (B : Path) : Prop where
  proper : d.IsProper
  proper' : d'.IsProper
  same : ∃ a b, d.LeadsTo A a ∧ d'.LeadsTo B b ∧ SameBelow d a d' b

/-- A disk with one tree, at a place. -/
def holding (place : List String)
    (tree : List (List String × DiskNode)) : Disk where
  workDir := []
  entries := tree.map fun entry => (place ++ entry.1, entry.2)

/-- Below the place of a tree stands what the tree has there. -/
theorem node?_holding {place : List String} (hplace : place ≠ [])
    (tree : List (List String × DiskNode)) (names : List String) :
    (holding place tree).node? (place ++ names) = tree.lookup names := by
  rw [node?, if_neg (by simp [hplace]), holding]
  induction tree with
  | nil => rfl
  | cons entry tree ih =>
      have hkey : (place ++ names == place ++ entry.1) =
          (names == entry.1) := by
        rw [Bool.eq_iff_iff, beq_iff_eq, beq_iff_eq,
          List.append_right_inj]
      rw [List.map_cons, List.lookup_cons, List.lookup_cons, ih, hkey]

/-- A tree is the same wherever it is held. -/
theorem sameBelow_holding (ha : a ≠ []) (hb : b ≠ [])
    (tree : List (List String × DiskNode)) :
    SameBelow (holding a tree) a (holding b tree) b := by
  intro names
  rw [node?_holding ha, node?_holding hb]

/-- The system takes a path below both directories or below neither: its
text is not too long, or too long in both. -/
def TakesAlike (A B p : Path) : Prop :=
  maxPath < (A.join p).text.utf8ByteSize ↔
    maxPath < (B.join p).text.utf8ByteSize

instance (A B p : Path) : Decidable (TakesAlike A B p) :=
  inferInstanceAs (Decidable (_ ↔ _))

/-- Two bases take a path alike whichever is named first. -/
theorem TakesAlike.symm (h : TakesAlike A B p) : TakesAlike B A p :=
  Iff.symm h

/-- The system takes a path, and that of every directory below the place
that it leads to, in both directories or in neither. -/
def OpensAlike (d : Disk) (A B p : Path) : Prop :=
  TakesAlike A B p ∧ ∀ place names, d.LeadsTo (A.join p) place →
    d.node? (place ++ names) = some .directory →
      TakesAlike A B (names.foldl Path.entry p)

/-- To see that all directories below a place are opened alike, it is
enough to look at the entries of the disk. -/
theorem opensAlike_of_entries (htakes : TakesAlike A B p)
    (hplace : d.LeadsTo (A.join p) a)
    (h : ∀ entry ∈ d.entries, entry.2 = .directory → a <+: entry.1 →
      TakesAlike A B ((entry.1.drop a.length).foldl Path.entry p)) :
    d.OpensAlike A B p := by
  refine ⟨htakes, fun place names hlead hnode => ?_⟩
  obtain rfl := hplace.unique hlead
  unfold node? at hnode
  split at hnode
  next hroot =>
    rw [(List.append_eq_nil_iff.1 hroot).2]
    exact htakes
  next =>
    obtain ⟨front, back, hentries, -⟩ := List.lookup_eq_some_iff.1 hnode
    have hmem : (a ++ names, DiskNode.directory) ∈ d.entries := by
      rw [hentries]
      exact List.mem_append_right front List.mem_cons_self
    have hbelow := h _ hmem rfl (List.prefix_append a names)
    rwa [List.drop_left] at hbelow

/-- In a copy a path is located at the same place below, or fails for the
same cause. -/
theorem locate_copy (hA : d.LeadsTo A a) (hB : d'.LeadsTo B b)
    (hsame : SameBelow d a d' b) (hinside : p.IsInside)
    (halike : TakesAlike A B p) :
    ∃ r : Except IoFault Place, d.locate (A.join p) = r.map (·.under a) ∧
      d'.locate (B.join p) = r.map (·.under b) := by
  obtain ⟨hp, hinside⟩ := hinside
  rw [locate_join hA hp, locate_join hB hp]
  split
  · exact ⟨.error .nulInPath, rfl, rfl⟩
  · by_cases hlong : maxPath < (A.join p).text.utf8ByteSize
    · rw [if_pos hlong, if_pos (halike.1 hlong)]
      exact ⟨.error .nameTooLong, rfl, rfl⟩
    · rw [if_neg hlong, if_neg fun h => hlong (halike.2 h)]
      have hstart : Path.staysInside ([] : List String).length p.parts =
          true := hinside
      obtain ⟨r, hr, hr'⟩ := walk_copy hsame hstart
      rw [List.append_nil] at hr hr'
      rw [hr, hr']
      cases r with
      | error fault => exact ⟨.error fault, rfl, rfl⟩
      | ok names => exact ⟨.ok ⟨names, endsOpen p⟩, rfl, rfl⟩

/-- A path leads to the same below both directories. -/
theorem find_copy (hcopy : IsCopy d A d' B) (hinside : p.IsInside)
    (halike : TakesAlike A B p) :
    d.find (A.join p) = d'.find (B.join p) := by
  obtain ⟨a, b, hA, hB, hsame⟩ := hcopy.same
  obtain ⟨r, hr, hr'⟩ := locate_copy hA hB hsame hinside halike
  unfold find
  rw [hr, hr']
  cases r with
  | error fault => rfl
  | ok place => simp only [Except.map, Place.under, hsame place.names]

/-- A way down in one place is a way down in the other: the same stands
at every name, and the system takes the path of every directory on it in
both. -/
theorem FindsBelow.copy (hsame : SameBelow d a d' b)
    (htakes : TakesAlike A B p)
    (hbelow : ∀ more, d.node? (a ++ more) = some .directory →
      TakesAlike A B (more.foldl Path.entry p))
    (h : d.FindsBelow a (A.join p) names) :
    d'.FindsBelow b (B.join p) names := by
  have hopens : ∀ {p}, TakesAlike A B p →
      (A.join p).text.utf8ByteSize ≤ maxPath →
        (B.join p).text.utf8ByteSize ≤ maxPath :=
    fun htakes hfits => Nat.not_lt.1 fun hlong =>
      absurd (htakes.2 hlong) (Nat.not_lt.2 hfits)
  induction names generalizing a b p with
  | nil => cases h
  | cons name names ih =>
      have hentry : ∀ A : Path,
          (A.join p).entry name = A.join (p.entry name) :=
        fun A => Path.join_assoc A p ⟨name⟩
      cases h with
      | file hfits hnode =>
          rw [hsame] at hnode
          exact .file (hopens htakes hfits) hnode
      | step hfits hnode hrest =>
          have hnext := hbelow [name] hnode
          rw [hentry] at hrest
          rw [hsame] at hnode
          refine .step (hopens htakes hfits) hnode ?_
          rw [hentry]
          refine ih (fun more => ?_) hnext (fun more hmore => ?_) hrest
          · rw [List.append_assoc, List.append_assoc]
            exact hsame ([name] ++ more)
          · rw [List.append_assoc] at hmore
            exact hbelow ([name] ++ more) hmore

/-- Below both directories there are the same files, perhaps listed in
another order. They are known by their steps. -/
theorem filesIn_copy (hcopy : IsCopy d A d' B) (hinside : p.IsInside)
    (halike : d.OpensAlike A B p) :
    ∃ paths paths' : List Path, paths.Perm paths' ∧
      (∀ q ∈ paths, q.isAbsolute = false ∧ q.steps ≠ [] ∧
        ∀ r ∈ paths, q.steps = r.steps → q = r) ∧
      d.filesIn (A.join p) = paths.map A.join ∧
      d'.filesIn (B.join p) = paths'.map B.join := by
  obtain ⟨a, b, hA, hB, hsame⟩ := hcopy.same
  obtain ⟨htakes, hbelow⟩ := halike
  obtain ⟨r, hr, hr'⟩ := locate_copy hA hB hsame hinside htakes
  have hentries : ∀ (A : Path) (found : List (List String)),
      found.map (·.foldl Path.entry (A.join p)) =
        (found.map (·.foldl Path.entry p)).map A.join := by
    intro A found
    rw [List.map_map]
    exact List.map_congr_left fun names _ => Path.entries_join A p names
  unfold filesIn
  rw [hr, hr']
  cases r with
  | error fault => exact ⟨[], [], .refl _, by simp, rfl, rfl⟩
  | ok place =>
      have hplace : d.LeadsTo (A.join p) (a ++ place.names) := ⟨_, hr⟩
      have hunder :
          SameBelow d (a ++ place.names) d' (b ++ place.names) := by
        intro names
        rw [List.append_assoc, List.append_assoc]
        exact hsame _
      have hbelow := fun more => hbelow _ more hplace
      have hways : ∀ names,
          d.FindsBelow (a ++ place.names) (A.join p) names ↔
            d'.FindsBelow (b ++ place.names) (B.join p) names := by
        intro names
        refine ⟨FindsBelow.copy hunder htakes hbelow,
          FindsBelow.copy (fun names => (hunder names).symm) htakes.symm ?_⟩
        intro more hmore
        rw [← hunder] at hmore
        exact (hbelow more hmore).symm
      have hperm :
          (d.filesBelow d.levels (a ++ place.names) (A.join p)).Perm
            (d'.filesBelow d'.levels (b ++ place.names) (B.join p)) := by
        refine (List.perm_ext_iff_of_nodup
          (hcopy.proper.nodup_filesBelow ..)
          (hcopy.proper'.nodup_filesBelow ..)).2 fun names => ?_
        rw [mem_filesBelow, mem_filesBelow, hways]
      refine ⟨_, _,
        hperm.map fun names : List String => names.foldl Path.entry p,
        Path.known_of_entries hinside.1 fun names hnames => ?_,
        hentries A _, hentries B _⟩
      have hway := mem_filesBelow.1 hnames
      exact ⟨hway.exists_entry.1, hway.named hcopy.proper⟩

end Disk

end GamePack
