import GamePack.Proofs.Dictionary
import GamePack.Proofs.Outcome
import GamePack.Schema
import Mathlib.Tactic

/-!
Checking a schema. Which fields a version has changes only where a
window begins or has ended, so going down from any supported version one
comes to an edge with the same fields. A version resolves when its
fields have distinct names, so it resolves if that edge does. The check
tries the edges, which are all supported: what it finds is what
resolving gives for them, and when it finds nothing every supported
version resolves.

An edge behind the last version of a word is never supported, so it does
not matter that the machine has no such number.
-/
namespace GamePack

-- ============================================================== edges

namespace BlockDef

variable {b : BlockDef} {f : Field} {n v : Nat} {edges : List Nat}

/-- Putting an edge into a row adds it and nothing else. -/
theorem mem_insertEdge :
    v ∈ insertEdge n edges ↔ v = n ∨ v ∈ edges := by
  induction edges with
  | nil => simp [insertEdge]
  | cons m rest ih =>
      unfold insertEdge
      split
      · rw [List.mem_cons]
      · split
        next heq =>
          subst heq
          simp
        next =>
          rw [List.mem_cons, ih, List.mem_cons]
          tauto

theorem mem_foldl_insertEdge {candidates : List Nat} :
    v ∈ candidates.foldl (fun edges v => insertEdge v edges) edges ↔
      v ∈ edges ∨ v ∈ candidates := by
  induction candidates generalizing edges with
  | nil => simp
  | cons n candidates ih =>
      rw [List.foldl_cons, ih, mem_insertEdge, List.mem_cons]
      tauto

theorem supports_iff :
    b.supports v = true ↔ b.minVersion ≤ v ∧ v ≤ b.maxVersion := by
  simp [supports]

/-- The edges are the supported ones among the first version and the
edges of the windows. -/
theorem mem_edgeVersions :
    v ∈ b.edgeVersions ↔ b.supports v = true ∧
      (v = b.minVersion ∨ ∃ f ∈ b.fields, v ∈ windowEdges f) := by
  unfold edgeVersions
  rw [mem_foldl_insertEdge, List.mem_filter, List.mem_cons,
    List.mem_flatMap]
  simp only [List.not_mem_nil, false_or]
  tauto

/-- The version behind another, if a word of four bytes holds it. -/
def nextWord? (v : Nat) : Option Nat :=
  if v + 1 < 0x100000000 then some (v + 1) else none

/-- The edges of a window that words of four bytes hold. -/
def wordEdges (f : Field) : List Nat :=
  f.minVersion.toList ++ (f.maxVersion.bind nextWord?).toList

/-- Among the versions that words hold, the edges are the same with and
without the bound on words. -/
theorem mem_wordEdges (h : v < 0x100000000) :
    v ∈ wordEdges f ↔ v ∈ windowEdges f := by
  unfold wordEdges windowEdges
  cases f.maxVersion with
  | none => simp
  | some last =>
      by_cases hlast : last + 1 < 0x100000000
      · simp [nextWord?, hlast]
      · have hne : v ≠ last + 1 := by omega
        simp [nextWord?, hlast, hne]

/-- An edge that no word holds is not supported when the last version is
a word. -/
theorem mem_edgeVersions_iff_word (h : b.maxVersion < 0x100000000) :
    v ∈ b.edgeVersions ↔ b.supports v = true ∧
      (v = b.minVersion ∨ ∃ f ∈ b.fields, v ∈ wordEdges f) := by
  rw [mem_edgeVersions]
  refine and_congr_right fun hsupports => or_congr_right ?_
  have hword : v < 0x100000000 :=
    Nat.lt_of_le_of_lt (supports_iff.1 hsupports).2 h
  simp only [mem_wordEdges hword]

-- ==================================================== between the edges

/-- A field is visible in a version as in the one before it, unless its
window has an edge there. -/
theorem isVisible_succ (h : v + 1 ∉ windowEdges f) :
    f.isVisible (v + 1) = f.isVisible v := by
  simp only [windowEdges, List.mem_append, Option.mem_toList, not_or,
    Option.map_eq_some_iff, Nat.add_right_cancel_iff] at h
  obtain ⟨hmin, hmax⟩ := h
  unfold Field.isVisible
  congr 1
  · cases hfirst : f.minVersion with
    | none => rfl
    | some first =>
        have hne : first ≠ v + 1 := fun heq => hmin (by rw [hfirst, heq])
        simp only [Option.all_some, decide_eq_decide]
        omega
  · cases hlast : f.maxVersion with
    | none => rfl
    | some last =>
        have hne : last ≠ v := fun heq => hmax ⟨v, by rw [hlast, heq], rfl⟩
        simp only [Option.all_some, decide_eq_decide]
        omega

/-- Behind a version that is no edge the same fields are visible as in
front of it. -/
theorem visibleFields_succ (h : ∀ f ∈ b.fields, v + 1 ∉ windowEdges f) :
    b.visibleFields (v + 1) = b.visibleFields v :=
  List.filter_congr fun f hf => isVisible_succ (h f hf)

/-- Every supported version has the fields of an edge. -/
theorem exists_edge (h : b.supports v = true) :
    ∃ edge ∈ b.edgeVersions, b.visibleFields edge = b.visibleFields v := by
  obtain ⟨hmin, hmax⟩ := supports_iff.1 h
  clear h
  -- from the first version upwards: a version is an edge, or has the
  -- fields of the version before it
  induction v, hmin using Nat.le_induction with
  | base =>
      exact ⟨_, mem_edgeVersions.2
        ⟨supports_iff.2 ⟨Nat.le_refl _, hmax⟩, .inl rfl⟩, rfl⟩
  | succ v hle ih =>
      by_cases hedge : ∃ f ∈ b.fields, v + 1 ∈ windowEdges f
      · refine ⟨v + 1, mem_edgeVersions.2 ⟨?_, .inr hedge⟩, rfl⟩
        exact supports_iff.2 ⟨Nat.le_succ_of_le hle, hmax⟩
      · obtain ⟨edge, hmem, hsame⟩ := ih (Nat.le_of_succ_le hmax)
        refine ⟨edge, hmem, ?_⟩
        rw [hsame, visibleFields_succ fun f hf hmem => hedge ⟨f, hf, hmem⟩]

/-- A version resolves when it is supported and its fields have distinct
names. -/
theorem fieldsFor_ok_iff {fields : List Field} :
    b.fieldsFor v = .ok fields ↔ b.supports v = true ∧
      fields = b.visibleFields v ∧
        repeatedName? [] ((b.visibleFields v).map Field.name) = none := by
  unfold fieldsFor
  by_cases hsupports : b.supports v = true
  · cases hrepeated :
        repeatedName? [] ((b.visibleFields v).map Field.name) with
    | none => simp [hsupports, hrepeated, eq_comm]
    | some name => simp [hsupports, hrepeated]
  · simp [hsupports]

theorem mem_conflicts {e : SchemaError} :
    e ∈ b.conflicts ↔ ∃ v ∈ b.edgeVersions, b.fieldsFor v = .error e := by
  unfold conflicts
  rw [List.mem_filterMap]
  refine exists_congr fun v => and_congr_right fun _ => ?_
  cases b.fieldsFor v <;> simp

/-- A kind of block without conflicts resolves in every supported
version. -/
theorem exists_fieldsFor (h : b.conflicts = [])
    (hsupports : b.supports v = true) :
    ∃ fields, b.fieldsFor v = .ok fields := by
  obtain ⟨edge, hedge, hsame⟩ := exists_edge hsupports
  cases hresolved : b.fieldsFor edge with
  | error e =>
      have hmem : e ∈ b.conflicts := mem_conflicts.2 ⟨edge, hedge, hresolved⟩
      rw [h] at hmem
      cases hmem
  | ok fields =>
      obtain ⟨-, -, hdistinct⟩ := fieldsFor_ok_iff.1 hresolved
      rw [hsame] at hdistinct
      exact ⟨_, fieldsFor_ok_iff.2 ⟨hsupports, rfl, hdistinct⟩⟩

end BlockDef

-- ============================================================ schemas

namespace Schema

/-- A schema as it is made: without blocks, which are then added. -/
inductive IsMade : Schema → Prop where
  | new (registry : Registry) : IsMade { registry }
  | addBlock {s s' : Schema} {b : BlockDef} (h : IsMade s)
      (hadd : s.addBlock b = .ok s') : IsMade s'

variable {s : Schema} {magic : Magic} {b : BlockDef} {v : Nat}
  {e : SchemaError}

/-- A kind of block is added when there is none under its name, and then
stands under it. -/
theorem addBlock_ok_iff {s' : Schema} :
    s.addBlock b = .ok s' ↔ s.blocks.contains b.magic.text = false ∧
      s' = { s with blocks := s.blocks.insert b.magic.text b } := by
  unfold addBlock
  by_cases h : s.blocks.contains b.magic.text = true
  · simp [h]
  · simp [h, eq_comm]

/-- The kinds of blocks stand in the order of their magics, each under
its own. -/
theorem IsMade.keyed (h : s.IsMade) : s.blocks.IsOrdered ∧
    ∀ entry ∈ s.blocks, entry.1 = entry.2.magic.text := by
  induction h with
  | new registry =>
      exact ⟨Dictionary.isOrdered_nil, fun entry hentry =>
        absurd hentry List.not_mem_nil⟩
  | addBlock _ hadd ih =>
      obtain ⟨-, rfl⟩ := addBlock_ok_iff.1 hadd
      refine ⟨ih.1.insert _ _, fun entry hentry => ?_⟩
      rcases Dictionary.mem_insert hentry with rfl | hentry
      · rfl
      · exact ih.2 entry hentry

/-- Every kind of block is found by its magic. -/
theorem IsMade.block?_of_mem (h : s.IsMade) {entry : String × BlockDef}
    (hentry : entry ∈ s.blocks) :
    s.block? entry.2.magic = some entry.2 := by
  obtain ⟨hordered, hkeys⟩ := h.keyed
  unfold block?
  rw [← hkeys entry hentry]
  exact hordered.find?_of_mem hentry

/-- Resolving a kind of block that is known gives its fields for the
version. -/
theorem resolve_of_block? (h : s.block? magic = some b) (v : Nat) :
    s.resolve magic v = b.fieldsFor v := by
  unfold resolve
  rw [h]

theorem mem_check :
    e ∈ s.check ↔ ∃ entry ∈ s.blocks, e ∈ entry.2.conflicts := by
  unfold check
  rw [List.mem_flatMap]

/-- The check passes when no kind of block has a conflict. -/
theorem check_eq_nil_iff :
    s.check = [] ↔ ∀ entry ∈ s.blocks, entry.2.conflicts = [] := by
  unfold check
  rw [List.flatMap_eq_nil_iff]

/-- What the check finds is what resolving gives for a supported
version. -/
theorem IsMade.exists_resolve_of_mem_check (h : s.IsMade)
    (he : e ∈ s.check) :
    ∃ magic b v, s.block? magic = some b ∧ b.minVersion ≤ v ∧
      v ≤ b.maxVersion ∧ s.resolve magic v = .error e := by
  obtain ⟨entry, hentry, he⟩ := mem_check.1 he
  obtain ⟨v, hv, herror⟩ := BlockDef.mem_conflicts.1 he
  obtain ⟨hmin, hmax⟩ :=
    BlockDef.supports_iff.1 (BlockDef.mem_edgeVersions.1 hv).1
  have hb := h.block?_of_mem hentry
  exact ⟨_, _, v, hb, hmin, hmax, by rw [resolve_of_block? hb, herror]⟩

/-- The check finds nothing exactly when every supported version of every
kind of block resolves. -/
theorem IsMade.check_eq_nil_iff_resolve (h : s.IsMade) :
    s.check = [] ↔ ∀ magic b, s.block? magic = some b →
      ∀ v, b.minVersion ≤ v → v ≤ b.maxVersion →
        ∃ fields, s.resolve magic v = .ok fields := by
  rw [check_eq_nil_iff]
  constructor
  · intro hclean magic b hb v hmin hmax
    rw [resolve_of_block? hb]
    exact BlockDef.exists_fieldsFor
      (hclean _ (Dictionary.mem_of_find? hb))
      (BlockDef.supports_iff.2 ⟨hmin, hmax⟩)
  · intro hresolves entry hentry
    rw [List.eq_nil_iff_forall_not_mem]
    intro e he
    obtain ⟨magic, b, v, hb, hmin, hmax, herror⟩ :=
      h.exists_resolve_of_mem_check (mem_check.2 ⟨entry, hentry, he⟩)
    obtain ⟨fields, hfields⟩ := hresolves magic b hb v hmin hmax
    rw [herror] at hfields
    cases hfields

/-- In a schema whose check finds nothing, no two fields of one name get
in the way of resolving a version. -/
theorem resolve_ne_duplicateField (h : s.check = []) (magic : Magic)
    (v : Nat) (text : String) (version : Nat) (name : String) :
    s.resolve magic v ≠ .error (.duplicateField text version name) := by
  intro herror
  unfold resolve at herror
  split at herror
  · cases herror
  next b hb =>
    by_cases hsupports : b.supports v = true
    · obtain ⟨fields, hfields⟩ := BlockDef.exists_fieldsFor
        (check_eq_nil_iff.1 h _ (Dictionary.mem_of_find? hb)) hsupports
      rw [herror] at hfields
      cases hfields
    · unfold BlockDef.fieldsFor at herror
      rw [if_pos (by simpa using hsupports)] at herror
      cases herror

end Schema

end GamePack
