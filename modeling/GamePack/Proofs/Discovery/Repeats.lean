import GamePack.Proofs.Discovery.Searching
import Mathlib.Data.List.Destutter

/-!
Data files that are listed twice. What the sources find stands one after
the other, and of each run of one path only the first is kept. A search
finds no path twice, but a path that a source finds again, after a
different one, is not in a run with the first and stays. So the list has
a path twice exactly where the sources return to one.
-/
namespace GamePack

-- ================================================================ runs

section Runs

variable {α : Type} [DecidableEq α] {a b : α} {l : List α}

/-- The first of a run stands for the rest of it. -/
theorem mem_destutter' :
    b ∈ l.destutter' (· ≠ ·) a ↔ b = a ∨ b ∈ l := by
  induction l generalizing a with
  | nil => simp
  | cons c l ih =>
      by_cases h : a = c
      · subst h
        rw [List.destutter'_cons_neg _ (by simp), ih, List.mem_cons]
        tauto
      · rw [List.destutter'_cons_pos _ h, List.mem_cons, ih, List.mem_cons]

/-- What is kept of the runs has something twice where it returns after
something else. -/
theorem nodup_destutter'_iff : ¬ (l.destutter' (· ≠ ·) a).Nodup ↔
    ∃ c d, c ≠ d ∧ [c, d, c].Sublist (a :: l) := by
  induction l generalizing a with
  | nil =>
      rw [List.destutter'_nil]
      constructor
      · intro h
        exact absurd (List.nodup_singleton a) h
      · rintro ⟨c, d, -, h⟩
        have hlength := h.length_le
        simp at hlength
  | cons b l ih =>
      by_cases h : a = b
      · subst h
        rw [List.destutter'_cons_neg _ (by simp), ih]
        constructor
        · rintro ⟨c, d, hne, h⟩
          exact ⟨c, d, hne, h.cons a⟩
        · rintro ⟨c, d, hne, h⟩
          refine ⟨c, d, hne, ?_⟩
          -- the second `a` can take the place of the first
          rcases List.sublist_cons_iff.1 h with h | ⟨rest, hrest, h⟩
          · exact h
          · obtain ⟨rfl, rfl⟩ := List.cons.inj hrest
            rcases List.sublist_cons_iff.1 h with h | ⟨rest, hrest, -⟩
            · exact h.cons_cons c
            · exact absurd (List.cons.inj hrest).1.symm hne
      · rw [List.destutter'_cons_pos _ h, List.nodup_cons, mem_destutter',
          not_and_or, not_not, ih]
        constructor
        · rintro (hagain | ⟨c, d, hne, h'⟩)
          · rcases hagain with hagain | hagain
            · exact absurd hagain h
            · refine ⟨a, b, h, ?_⟩
              exact ((List.singleton_sublist.2 hagain).cons_cons b).cons_cons a
          · exact ⟨c, d, hne, h'.cons a⟩
        · rintro ⟨c, d, hne, h'⟩
          rcases List.sublist_cons_iff.1 h' with h' | ⟨rest, hrest, h'⟩
          · exact .inr ⟨c, d, hne, h'⟩
          · obtain ⟨rfl, rfl⟩ := List.cons.inj hrest
            have hmem : c ∈ b :: l := h'.subset (by simp)
            exact .inl (List.mem_cons.1 hmem)

/-- Removing repeats removes no member altogether. -/
theorem mem_destutter_ne : b ∈ l.destutter (· ≠ ·) ↔ b ∈ l := by
  cases l with
  | nil => rfl
  | cons a l => rw [List.destutter_cons', mem_destutter', List.mem_cons]

/-- Repeats are left when something stands between two of a kind. -/
theorem nodup_destutter_ne_iff : ¬ (l.destutter (· ≠ ·)).Nodup ↔
    ∃ c d, c ≠ d ∧ [c, d, c].Sublist l := by
  cases l with
  | nil => simp
  | cons a l => rw [List.destutter_cons', nodup_destutter'_iff]

end Runs

-- =============================================================== paths

namespace Path

variable {p q : Path} {files : List Path}

/-- Repeats are dropped where they follow each other, and nowhere else.
-/
theorem dropRepeats_eq_destutter (files : List Path) :
    dropRepeats files = files.destutter fun p q => p.same q = false := by
  have hgo : ∀ (rest : List Path) p, p :: dropRepeats.go p rest =
      rest.destutter' (fun p q => p.same q = false) p := by
    intro rest
    induction rest with
    | nil => exact fun p => rfl
    | cons q rest ih =>
        intro p
        rw [dropRepeats.go, List.destutter']
        by_cases h : p.same q = true
        · rw [if_pos h, if_neg (by simp [h]), ih]
        · rw [if_neg h, if_pos (by simp [h]), ih]
  cases files with
  | nil => rfl
  | cons p rest => exact hgo rest p

/-- Seen as components, the runs are of equal rows. -/
theorem components_dropRepeats (files : List Path) :
    (dropRepeats files).map components =
      (files.map components).destutter (· ≠ ·) := by
  rw [dropRepeats_eq_destutter]
  exact List.map_destutter fun p _ q _ => same_eq_false_iff

/-- Paths are distinct when their components are. -/
theorem areDistinct_iff :
    AreDistinct files ↔ (files.map components).Nodup := by
  rw [AreDistinct, List.nodup_iff_pairwise_ne, List.pairwise_map]
  simp only [same_eq_false_iff, ne_eq]

end Path

namespace Manifest

/-- What the sources find, one after the other. -/
def foundIn (m : Manifest) (disk : Disk) (base : Path)
    (sources : List String) : List Path :=
  sources.flatMap fun source => m.filesOf disk (base.join ⟨source⟩)

/-- The data files are those that the sources find, in that order, and
none stands behind itself. A single source finds no path twice; but the
list has a path twice wherever the sources find it, then a different one,
and then it again. -/
theorem repeats_of_filesOfSources (m : Manifest) (disk : Disk)
    (base : Path) (sources : List String) :
    (m.filesOfSources disk base sources).Sublist
        (m.foundIn disk base sources) ∧
      (∀ p ∈ m.foundIn disk base sources,
        ∃ q ∈ m.filesOfSources disk base sources, q.same p = true) ∧
      (m.filesOfSources disk base sources).IsChain
        (fun p q => p.same q = false) ∧
      (¬ Path.AreDistinct (m.filesOfSources disk base sources) ↔
        ∃ p q r, [p, q, r].Sublist (m.foundIn disk base sources) ∧
          p.same r = true ∧ p.same q = false) ∧
      (disk.IsProper →
        ∀ source, Path.AreDistinct (m.filesOf disk source)) := by
  have hfiles : m.filesOfSources disk base sources =
      Path.dropRepeats (m.foundIn disk base sources) := rfl
  rw [hfiles]
  generalize m.foundIn disk base sources = found
  refine ⟨?_, ?_, ?_, ?_, fun h => m.areDistinct_filesOf h⟩
  · rw [Path.dropRepeats_eq_destutter]
    exact List.destutter_sublist _ found
  · intro p hp
    have hmem : p.components ∈ (Path.dropRepeats found).map
        Path.components := by
      rw [Path.components_dropRepeats, mem_destutter_ne]
      exact List.mem_map_of_mem hp
    obtain ⟨q, hq, hsame⟩ := List.mem_map.1 hmem
    exact ⟨q, hq, Path.same_iff.2 hsame⟩
  · rw [Path.dropRepeats_eq_destutter]
    exact List.isChain_destutter _ found
  · rw [Path.areDistinct_iff, Path.components_dropRepeats,
      nodup_destutter_ne_iff]
    constructor
    · rintro ⟨c, d, hne, h⟩
      obtain ⟨paths, hpaths, hmap⟩ := List.sublist_map_iff.1 h
      obtain ⟨p, behind, rfl, rfl, hp⟩ := List.map_eq_cons_iff.1 hmap.symm
      obtain ⟨q, last, rfl, rfl, hq⟩ := List.map_eq_cons_iff.1 hp
      obtain ⟨r, none, rfl, hr, hnone⟩ := List.map_eq_cons_iff.1 hq
      obtain rfl := List.map_eq_nil_iff.1 hnone
      exact ⟨p, q, r, hpaths, Path.same_iff.2 hr.symm,
        Path.same_eq_false_iff.2 hne⟩
    · rintro ⟨p, q, r, h, hsame, hdiffer⟩
      refine ⟨p.components, q.components,
        Path.same_eq_false_iff.1 hdiffer, ?_⟩
      have hmap := h.map Path.components
      rw [List.map_cons, List.map_cons, List.map_singleton,
        ← Path.same_iff.1 hsame] at hmap
      exact hmap

/-- A disk with two data files. -/
def pairDisk : Disk where
  workDir := []
  entries := [(["a.rcd.yaml"], .file []), (["b.rcd.yaml"], .file [])]

/-- The two data files have places and names as a disk should. -/
theorem isProper_pairDisk : pairDisk.IsProper :=
  ⟨by decide, by decide⟩

/-- Two files on a disk, the first given again after the second. -/
theorem repeats_of_filesOfSources_pair :
    pairDisk.IsProper ∧
      (∀ source, Path.AreDistinct
        (({} : Manifest).filesOf pairDisk source)) ∧
      ¬ Path.AreDistinct (({} : Manifest).filesOfSources pairDisk ⟨"."⟩
        ["a.rcd.yaml", "b.rcd.yaml", "a.rcd.yaml"]) := by
  obtain ⟨-, -, -, hrepeats, hsource⟩ := repeats_of_filesOfSources {}
    pairDisk ⟨"."⟩ ["a.rcd.yaml", "b.rcd.yaml", "a.rcd.yaml"]
  refine ⟨isProper_pairDisk, hsource isProper_pairDisk, hrepeats.2 ?_⟩
  refine ⟨⟨"./a.rcd.yaml"⟩, ⟨"./b.rcd.yaml"⟩, ⟨"./a.rcd.yaml"⟩, ?_, rfl,
    rfl⟩
  decide +kernel

/-- Not every list of data files has each path once. -/
theorem filesOfSources_twice :
    ¬ ∀ (m : Manifest) (disk : Disk) (base : Path) (sources : List String),
      disk.IsProper →
        Path.AreDistinct (m.filesOfSources disk base sources) := by
  intro hdistinct
  have hlist := hdistinct {} pairDisk ⟨"."⟩
    ["a.rcd.yaml", "b.rcd.yaml", "a.rcd.yaml"] isProper_pairDisk
  revert hlist
  decide +kernel

end Manifest

end GamePack
