import GamePack.Proofs.Schema.Loading
import Mathlib.Data.Set.Card

/-!
How often the check of a schema reports one conflict. Consecutive
supported versions that share their fields make up a run, and since
resolving a version looks at its fields alone, a run resolves as a whole
or fails as a whole. A run begins at the first version or where the
fields change, and that is always an edge. So each run that fails is
reported at the version it begins with.

An edge at which nothing changes lies inside a run, and where the run
fails it is reported there once more. Such an edge belongs to a window
that ends before it begins: its field is in no version, so neither end of
the window changes anything. All other edges begin a run.
-/
namespace GamePack

/-- The window of a field ends before it begins. -/
def Field.IsInverted (f : Field) : Prop :=
  ∃ first last, f.minVersion = some first ∧ f.maxVersion = some last ∧
    last < first

namespace BlockDef

variable {b : BlockDef} {f : Field} {first last v w : Nat}

-- ================================================================ runs

/-- Consecutive supported versions that share their fields. -/
structure Shares (b : BlockDef) (first last : Nat) : Prop where
  le : first ≤ last
  min_le : b.minVersion ≤ first
  le_max : last ≤ b.maxVersion
  same : ∀ v, first ≤ v → v ≤ last →
    b.visibleFields v = b.visibleFields first

/-- A run of versions that share their fields: no row of such versions
goes further in either direction. -/
structure IsRun (b : BlockDef) (first last : Nat) : Prop
    extends b.Shares first last where
  maximal : ∀ first' last', first' ≤ first → last ≤ last' →
    b.Shares first' last' → first' = first ∧ last' = last

/-- Whether a version does not resolve. -/
def fails (b : BlockDef) (v : Nat) : Bool := !(b.fieldsFor v).isOk

/-- The runs, by their ends, of which no version resolves. -/
def failingRuns (b : BlockDef) : Set (Nat × Nat) :=
  {run | b.IsRun run.1 run.2 ∧
    ∀ v, run.1 ≤ v → v ≤ run.2 → b.fails v = true}

/-- Whether a version is the first one, or has other fields than the
version before it. -/
def changesAt (b : BlockDef) (v : Nat) : Bool :=
  v == b.minVersion || b.visibleFields (v - 1) != b.visibleFields v

/-- The edges at which the fields stay what they are. -/
def idleEdges (b : BlockDef) : List Nat :=
  b.edgeVersions.filter (!b.changesAt ·)

/-- Nothing changes at a version that is not the first and has the fields
of the one before. -/
theorem changesAt_eq_false_iff :
    b.changesAt v = false ↔
      v ≠ b.minVersion ∧ b.visibleFields (v - 1) = b.visibleFields v := by
  simp [changesAt]

/-- A supported version fails when a name of its fields stands there a
second time. -/
theorem fails_of_supports (h : b.supports v = true) :
    b.fails v =
      (repeatedName? [] ((b.visibleFields v).map Field.name)).isSome := by
  unfold fails fieldsFor
  rw [h]
  cases hrepeated :
      repeatedName? [] ((b.visibleFields v).map Field.name) with
  | none => simp [hrepeated, Except.isOk, Except.toBool]
  | some name => simp [hrepeated, Except.isOk, Except.toBool]

/-- A range that shares its fields is supported all through, since its
ends are. -/
theorem Shares.supports (h : b.Shares first last) (hv : first ≤ v)
    (hv' : v ≤ last) : b.supports v = true :=
  supports_iff.2 ⟨h.min_le.trans hv, hv'.trans h.le_max⟩

/-- A run fails as a whole when its first version does. -/
theorem IsRun.mem_failingRuns (h : b.IsRun first last)
    (hfails : b.fails first = true) : (first, last) ∈ b.failingRuns := by
  refine ⟨h, fun v hv hv' => ?_⟩
  rw [fails_of_supports (h.supports hv hv'), h.same v hv hv',
    ← fails_of_supports (h.supports (Nat.le_refl first) h.le)]
  exact hfails

/-- A run begins where the fields change. -/
theorem IsRun.changesAt (h : b.IsRun first last) :
    b.changesAt first = true := by
  by_contra hidle
  rw [Bool.not_eq_true, changesAt_eq_false_iff] at hidle
  obtain ⟨hne, hsame⟩ := hidle
  have hlt : b.minVersion < first :=
    Nat.lt_of_le_of_ne h.min_le (Ne.symm hne)
  -- otherwise the version before it could be taken in
  have hlonger : b.Shares (first - 1) last := by
    refine ⟨by have := h.le; omega, by omega, h.le_max, fun v hv hv' => ?_⟩
    rw [hsame]
    by_cases hfirst : first ≤ v
    · exact h.same v hfirst hv'
    · obtain rfl : v = first - 1 := by omega
      exact hsame
  have heq := (h.maximal _ _ (Nat.sub_le first 1) (Nat.le_refl last)
    hlonger).1
  omega

/-- Runs that begin together end together. -/
theorem IsRun.unique {last' : Nat} (h : b.IsRun first last)
    (h' : b.IsRun first last') : last = last' := by
  rcases Nat.le_total last last' with hle | hle
  · exact (h.maximal first last' (Nat.le_refl _) hle h'.toShares).2.symm
  · exact (h'.maximal first last (Nat.le_refl _) hle h.toShares).2

open Classical in
/-- Where the fields change a run begins. -/
theorem exists_isRun (hsupports : b.supports v = true)
    (hchanges : b.changesAt v = true) : ∃ last, b.IsRun v last := by
  obtain ⟨hmin, hmax⟩ := supports_iff.1 hsupports
  have halone : b.Shares v v := by
    refine ⟨Nat.le_refl v, hmin, hmax, fun w hw hw' => ?_⟩
    rw [Nat.le_antisymm hw' hw]
  -- it ends with the last version up to which the fields are shared
  have hshares : b.Shares v (Nat.findGreatest (b.Shares v) b.maxVersion) :=
    Nat.findGreatest_spec hmax halone
  refine ⟨_, hshares, fun first' last' hfirst hlast hwider => ?_⟩
  have heq : first' = v := by
    by_contra hne
    have hlt : first' < v := Nat.lt_of_le_of_ne hfirst hne
    have hle : v ≤ last' := hshares.le.trans hlast
    have hidle : b.changesAt v = false := by
      refine changesAt_eq_false_iff.2 ⟨?_, ?_⟩
      · have := hwider.min_le
        omega
      · rw [hwider.same (v - 1) (by omega) (by omega),
          hwider.same v hfirst hle]
    rw [hchanges] at hidle
    cases hidle
  subst heq
  refine ⟨rfl, Nat.le_antisymm ?_ hlast⟩
  exact Nat.le_findGreatest hwider.le_max hwider

-- =============================================================== edges

theorem pairwise_insertEdge {n : Nat} {edges : List Nat}
    (h : edges.Pairwise (· < ·)) : (insertEdge n edges).Pairwise (· < ·) := by
  induction edges with
  | nil => exact List.pairwise_singleton _ _
  | cons m rest ih =>
      obtain ⟨hm, hrest⟩ := List.pairwise_cons.1 h
      unfold insertEdge
      split
      next hlt =>
        refine List.pairwise_cons.2 ⟨fun k hk => ?_, h⟩
        rcases List.mem_cons.1 hk with rfl | hk
        · exact hlt
        · exact Nat.lt_trans hlt (hm k hk)
      next hge =>
        split
        · exact h
        next hne =>
          refine List.pairwise_cons.2 ⟨fun k hk => ?_, ih hrest⟩
          rcases mem_insertEdge.1 hk with rfl | hk
          · omega
          · exact hm k hk

/-- The edges stand in ascending order, each of them once. -/
theorem pairwise_edgeVersions (b : BlockDef) :
    b.edgeVersions.Pairwise (· < ·) := by
  have hrow : ∀ candidates edges : List Nat, edges.Pairwise (· < ·) →
      (candidates.foldl (fun edges v => insertEdge v edges)
        edges).Pairwise (· < ·) := by
    intro candidates
    induction candidates with
    | nil => exact fun _ h => h
    | cons n candidates ih => exact fun _ h => ih _ (pairwise_insertEdge h)
  exact hrow _ [] List.Pairwise.nil

/-- Where the fields change there is an edge. -/
theorem mem_edgeVersions_of_changesAt (hsupports : b.supports v = true)
    (hchanges : b.changesAt v = true) : v ∈ b.edgeVersions := by
  rw [mem_edgeVersions]
  refine ⟨hsupports, ?_⟩
  by_contra hnone
  obtain ⟨hne, hnone⟩ := not_or.1 hnone
  have hmin := (supports_iff.1 hsupports).1
  have hsucc : v - 1 + 1 = v := by omega
  have hsame : b.visibleFields (v - 1 + 1) = b.visibleFields (v - 1) := by
    refine visibleFields_succ fun f hf hedge => hnone ⟨f, hf, ?_⟩
    rwa [hsucc] at hedge
  rw [hsucc] at hsame
  have hidle : b.changesAt v = false :=
    changesAt_eq_false_iff.2 ⟨hne, hsame.symm⟩
  rw [hchanges] at hidle
  cases hidle

/-- A window that does not end before it begins changes at its edges
whether its field is visible. -/
theorem isVisible_ne_of_edge (hedge : v ∈ windowEdges f) (hpos : 0 < v)
    (hproper : ¬ f.IsInverted) : f.isVisible (v - 1) ≠ f.isVisible v := by
  have hordered : ∀ first last, f.minVersion = some first →
      f.maxVersion = some last → first ≤ last := by
    intro first last hfirst hlast
    by_contra hlt
    exact hproper ⟨first, last, hfirst, hlast, Nat.not_le.1 hlt⟩
  simp only [windowEdges, List.mem_append, Option.mem_toList,
    Option.map_eq_some_iff] at hedge
  unfold Field.isVisible
  rcases hedge with hfirst | ⟨last, hlast, rfl⟩
  · -- the field comes up here
    have hbefore : ¬ v ≤ v - 1 := by omega
    cases hmax : f.maxVersion with
    | none => simp [hfirst, hbefore]
    | some last =>
        have hle := hordered v last hfirst hmax
        simp [hfirst, hbefore, hle]
  · -- the field was there for the last time
    cases hmin : f.minVersion with
    | none => simp [hlast]
    | some first =>
        have hle := hordered first last hmin hlast
        simp [hlast, hle]

/-- An edge at which nothing changes belongs to a window that ends before
it begins. -/
theorem exists_isInverted (h : v ∈ b.idleEdges) :
    ∃ f ∈ b.fields, f.IsInverted ∧ v ∈ windowEdges f := by
  obtain ⟨hedge, hidle⟩ := List.mem_filter.1 h
  rw [Bool.not_eq_true', changesAt_eq_false_iff] at hidle
  obtain ⟨hne, hsame⟩ := hidle
  obtain ⟨hsupports, hfirst | ⟨f, hf, hwindow⟩⟩ := mem_edgeVersions.1 hedge
  · exact absurd hfirst hne
  refine ⟨f, hf, ?_, hwindow⟩
  by_contra hproper
  have hpos : 0 < v := by
    have := (supports_iff.1 hsupports).1
    omega
  refine isVisible_ne_of_edge hwindow hpos hproper ?_
  -- the field is in both of two equal rows of fields, or in none
  have hmem : f ∈ b.visibleFields (v - 1) ↔ f ∈ b.visibleFields v := by
    rw [hsame]
  unfold visibleFields at hmem
  rw [List.mem_filter, List.mem_filter, and_iff_right hf,
    and_iff_right hf] at hmem
  exact Bool.eq_iff_iff.2 hmem

-- ============================================================ counting

/-- There is one conflict for each edge that fails. -/
theorem length_conflicts (b : BlockDef) :
    b.conflicts.length = b.edgeVersions.countP b.fails := by
  unfold conflicts
  rw [List.length_filterMap_eq_countP]
  refine List.countP_congr fun v _ => ?_
  unfold fails
  cases b.fieldsFor v <;> simp [Except.isOk, Except.toBool]

/-- The runs that fail begin at the edges that fail and change the
fields. -/
theorem image_failingRuns (b : BlockDef) :
    Prod.fst '' b.failingRuns =
      ((b.edgeVersions.filter b.changesAt).filter b.fails).toFinset := by
  ext v
  rw [Set.mem_image, Finset.mem_coe, List.mem_toFinset, List.mem_filter,
    List.mem_filter]
  constructor
  · rintro ⟨⟨first, last⟩, ⟨hrun, hfails⟩, rfl⟩
    have hsupports := hrun.supports (Nat.le_refl first) hrun.le
    exact ⟨⟨mem_edgeVersions_of_changesAt hsupports hrun.changesAt,
      hrun.changesAt⟩, hfails first (Nat.le_refl first) hrun.le⟩
  · rintro ⟨⟨hedge, hchanges⟩, hfails⟩
    obtain ⟨last, hrun⟩ :=
      exists_isRun (mem_edgeVersions.1 hedge).1 hchanges
    exact ⟨(v, last), hrun.mem_failingRuns hfails, rfl⟩

/-- Runs that begin together are the same. -/
theorem injOn_failingRuns (b : BlockDef) :
    Set.InjOn Prod.fst b.failingRuns := by
  rintro ⟨first, last⟩ ⟨hrun, -⟩ ⟨_, last'⟩ ⟨hrun', -⟩ rfl
  exact congrArg (first, ·) (hrun.unique hrun')

theorem finite_failingRuns (b : BlockDef) : b.failingRuns.Finite := by
  refine Set.Finite.of_finite_image ?_ b.injOn_failingRuns
  rw [image_failingRuns]
  exact Finset.finite_toSet _

/-- There are as many runs that fail as edges that fail and change the
fields. -/
theorem ncard_failingRuns (b : BlockDef) :
    b.failingRuns.ncard =
      (b.edgeVersions.filter b.changesAt).countP b.fails := by
  have hnodup : b.edgeVersions.Nodup :=
    b.pairwise_edgeVersions.imp Nat.ne_of_lt
  rw [← b.injOn_failingRuns.ncard_image, image_failingRuns,
    Set.ncard_coe_finset,
    List.toFinset_card_of_nodup ((hnodup.filter _).filter _),
    List.countP_eq_length_filter]

/-- Of a kind of block the check reports every run of versions that does
not resolve at the version it begins with, and once more at each edge in
it at which the fields stay what they are. So it reports each such run
once exactly when every edge of this sort resolves. There are none but in
windows that end before they begin. -/
theorem conflicts_of_runs (b : BlockDef) :
    b.failingRuns.Finite ∧
    (∀ run ∈ b.failingRuns, ∃ e ∈ b.conflicts,
      b.fieldsFor run.1 = .error e) ∧
    b.conflicts.length =
      b.failingRuns.ncard + b.idleEdges.countP b.fails ∧
    (b.conflicts.length = b.failingRuns.ncard ↔
      ∀ v ∈ b.idleEdges, ∃ fields, b.fieldsFor v = .ok fields) ∧
    (∀ v ∈ b.idleEdges, ∃ f ∈ b.fields, f.IsInverted ∧
      v ∈ windowEdges f) ∧
    ((∀ f ∈ b.fields, ¬ f.IsInverted) →
      b.conflicts.length = b.failingRuns.ncard) := by
  have hcount : b.conflicts.length =
      b.failingRuns.ncard + b.idleEdges.countP b.fails := by
    rw [length_conflicts, ncard_failingRuns, idleEdges,
      ← List.countP_eq_countP_filter_add]
  have honce : b.conflicts.length = b.failingRuns.ncard ↔
      ∀ v ∈ b.idleEdges, ∃ fields, b.fieldsFor v = .ok fields := by
    rw [hcount, Nat.add_eq_left, List.countP_eq_zero]
    refine forall₂_congr fun v _ => ?_
    rw [← isOk_iff]
    simp [fails]
  refine ⟨b.finite_failingRuns, ?_, hcount, honce,
    fun v hv => exists_isInverted hv, fun hproper => ?_⟩
  · rintro ⟨first, last⟩ ⟨hrun, hfails⟩
    have hfirst := hfails first (Nat.le_refl first) hrun.le
    unfold fails at hfirst
    rw [Bool.not_eq_true', isOk_eq_false_iff] at hfirst
    obtain ⟨e, he⟩ := hfirst
    have hsupports := hrun.supports (Nat.le_refl first) hrun.le
    exact ⟨e, mem_conflicts.2 ⟨first,
      mem_edgeVersions_of_changesAt hsupports hrun.changesAt, he⟩, he⟩
  · refine honce.2 fun v hv => ?_
    obtain ⟨f, hf, hinverted, -⟩ := exists_isInverted hv
    exact absurd hinverted (hproper f hf)

end BlockDef

namespace Schema

/-- A schema with two fields of one name in all versions, and with a
field whose window ends before it begins. -/
def twinText : String :=
  "blocks: [\x7bmagic: TWIN, minversion: 1, maxversion: 9, fields: [" ++
    "\x7bname: size, type: uint8\x7d, \x7bname: size, type: uint16\x7d, " ++
    "\x7bname: note, type: uint8, minversion: 7, maxversion: 3\x7d]\x7d]"

/-- The kind of block of this schema. -/
def twinDef : BlockDef where
  magic := ⟨[0x54, 0x57, 0x49, 0x4e], rfl, by decide⟩
  minVersion := 1
  maxVersion := 9
  fields := [
    { name := "size", type := .numeric .uint8 },
    { name := "size", type := .numeric .uint16 },
    { name := "note", type := .numeric .uint8
      minVersion := some 7, maxVersion := some 3 }]

/-- The schema of the text. -/
def twinSchema : Schema where
  registry := .builtin
  blocks := [("TWIN", twinDef)]

/-- All nine versions have the same fields and do not resolve, which is
one run. It is reported three times, for the window that ends before it
begins has both its ends in it. -/
theorem check_twinSchema_thrice :
    Schema.parse twinText = .ok twinSchema ∧
      twinSchema.blocks = [("TWIN", twinDef)] ∧
      twinDef.failingRuns.ncard = 1 ∧ (1, 9) ∈ twinDef.failingRuns ∧
      twinSchema.check.length = 3 := by
  have hrun : twinDef.IsRun 1 9 := by
    refine ⟨⟨by decide, by decide, by decide, ?_⟩, ?_⟩
    · intro v hv hv'
      interval_cases v <;> rfl
    · intro first' last' hfirst hlast h
      have hmin : 1 ≤ first' := h.min_le
      have hmax : last' ≤ 9 := h.le_max
      omega
  refine ⟨parse_eq_of_parts (by decide +kernel), rfl, ?_, ?_, rfl⟩
  · rw [BlockDef.ncard_failingRuns]
    rfl
  · exact hrun.mem_failingRuns rfl

end Schema

end GamePack
