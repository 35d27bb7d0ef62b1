import GamePack.Exclusion
import GamePack.Proofs.Path
import Mathlib.Data.List.Infix

/-!
Exclusions of directories. A rule of a directory looks for a text between
two slashes, or in front of the first one. That this respects the
components of a path rests on one fact about splitting: what stands
between two slashes is split by itself (`Path.pieces_append`), so the
pieces of the directory are a row of pieces of the path, with at least
one piece behind them. Back from the pieces to the text goes
`Path.intercalate_pieces`.
-/
namespace GamePack

namespace Path

variable {cs directory : List Char}

/-- The pieces of a path lead through those of a directory, to a piece
behind them. -/
def LeadsThrough (cs directory : List Char) : Prop :=
  pieces directory <:+: (pieces cs).dropLast

theorem pieces_eq_splitOn (cs : List Char) :
    pieces cs = cs.splitOn '/' := by
  induction cs with
  | nil => rfl
  | cons c cs ih =>
      rw [pieces, List.splitOn_cons_eq_if_modifyHead, ih]
      by_cases hc : c = '/'
      · simp [hc]
      · rw [if_neg hc, if_neg (by simpa using hc)]
        cases hcs : cs.splitOn '/' with
        | nil => exact absurd hcs (List.splitOn_ne_nil _ _)
        | cons piece more => rfl

theorem pieces_ne_nil (cs : List Char) : pieces cs ≠ [] := by
  rw [pieces_eq_splitOn]
  exact List.splitOn_ne_nil _ _

/-- The pieces of a text with the slashes between them are the text. -/
theorem intercalate_pieces (cs : List Char) :
    ['/'].intercalate (pieces cs) = cs := by
  rw [pieces_eq_splitOn]
  exact List.intercalate_splitOn '/'

/-- Two rows of pieces meet at a slash. -/
theorem intercalate_append {front back : List (List Char)}
    (hfront : front ≠ []) (hback : back ≠ []) :
    ['/'].intercalate (front ++ back) =
      ['/'].intercalate front ++ '/' :: ['/'].intercalate back := by
  induction front with
  | nil => exact absurd rfl hfront
  | cons piece front ih =>
      by_cases hlast : front = []
      · subst hlast
        rw [List.singleton_append, List.intercalate_cons_of_ne_nil hback,
          List.intercalate_singleton, List.append_assoc]
        rfl
      · have hrest : front ++ back ≠ [] :=
          List.append_ne_nil_of_right_ne_nil front hback
        rw [List.cons_append, List.intercalate_cons_of_ne_nil hrest,
          ih hlast, List.intercalate_cons_of_ne_nil hlast]
        simp only [List.append_assoc]

/-- A path leads through a directory exactly when the directory stands in
its text between two slashes, or in front of the first one. -/
theorem leadsThrough_iff : LeadsThrough cs directory ↔
    (∃ back, cs = directory ++ '/' :: back) ∨
      ∃ front back, cs = front ++ '/' :: (directory ++ '/' :: back) := by
  constructor
  · rintro ⟨front, back, h⟩
    -- behind the directory stands at least the last piece
    have hpieces : pieces cs = front ++ (pieces directory ++
        (back ++ [(pieces cs).getLast (pieces_ne_nil cs)])) := by
      rw [← List.append_assoc, ← List.append_assoc, h,
        List.dropLast_concat_getLast]
    have hbehind : back ++ [(pieces cs).getLast (pieces_ne_nil cs)] ≠ [] :=
      List.concat_ne_nil _ _
    have htext := congrArg ['/'].intercalate hpieces
    rw [intercalate_pieces] at htext
    by_cases hfront : front = []
    · rw [hfront, List.nil_append,
        intercalate_append (pieces_ne_nil directory) hbehind,
        intercalate_pieces] at htext
      exact .inl ⟨_, htext⟩
    · rw [intercalate_append hfront (by simp [hbehind]),
        intercalate_append (pieces_ne_nil directory) hbehind,
        intercalate_pieces] at htext
      exact .inr ⟨_, _, htext⟩
  · rintro (⟨back, rfl⟩ | ⟨front, back, rfl⟩)
    · rw [LeadsThrough, pieces_append,
        List.dropLast_append_of_ne_nil (pieces_ne_nil back)]
      exact List.infix_append_left
    · rw [LeadsThrough, pieces_append, pieces_append, ← List.append_assoc,
        List.dropLast_append_of_ne_nil (pieces_ne_nil back)]
      exact ⟨pieces front, _, rfl⟩

/-- A directory of one name is led through when one of the pieces before
the last is that name. -/
theorem leadsThrough_iff_mem (h : '/' ∉ directory) :
    LeadsThrough cs directory ↔ directory ∈ (pieces cs).dropLast := by
  rw [LeadsThrough, pieces_of_not_mem h, List.singleton_infix_iff]

end Path

namespace Exclusion

variable {cs directory : List Char}

/-- The search for a part finds it wherever it stands. -/
theorem hasPart_iff {part : List Char} :
    hasPart part cs = true ↔ part <:+: cs := by
  induction cs with
  | nil => simp [hasPart]
  | cons c cs ih =>
      rw [hasPart, Bool.or_eq_true, ih, List.isPrefixOf_iff_prefix,
        List.infix_cons_iff]

/-- The exclusion of a directory applies to the paths that lead through
it. -/
theorem applies_inside_iff :
    (inside directory).applies cs = true ↔
      Path.LeadsThrough cs directory := by
  rw [applies, Bool.or_eq_true, List.isPrefixOf_iff_prefix, hasPart_iff,
    Path.leadsThrough_iff]
  refine or_congr (exists_congr fun back => ?_)
    (exists_congr fun front => exists_congr fun back => ?_)
  · simp [eq_comm]
  · simp [eq_comm]

theorem dropEnding?_append (ending cs : List Char) :
    dropEnding? ending (cs ++ ending) = some cs := by
  unfold dropEnding?
  rw [if_pos (List.isSuffixOf_iff_suffix.2 (List.suffix_append _ _))]
  simp

theorem ofDirectoryPattern_append (directory : List Char) :
    ofBarePattern.ofDirectoryPattern (directory ++ ['/', '*']) =
      inside directory := by
  rw [ofBarePattern.ofDirectoryPattern, dropEnding?_append]

/-- A pattern of a directory is its rule. -/
theorem ofPattern_directory (d : String) :
    ofPattern ("**/" ++ d ++ "/*") = inside d.toList := by
  have htext : ("**/" ++ d ++ "/*").toList =
      '*' :: '*' :: '/' :: (d.toList ++ ['/', '*']) := by
    simp
  simp only [ofPattern, htext, ofDirectoryPattern_append]

/-- So is a pattern of a directory alone, unless it starts like the
other. -/
theorem ofPattern_bareDirectory {d : String}
    (h : ¬ "**/".toList <+: (d ++ "/*").toList) :
    ofPattern (d ++ "/*") = inside d.toList := by
  have htext : (d ++ "/*").toList = d.toList ++ ['/', '*'] := by
    simp
  rw [htext] at h
  rw [ofPattern, htext]
  split
  next rest hstart =>
    rw [hstart] at h
    exact absurd ⟨rest, rfl⟩ h
  next =>
    unfold ofBarePattern
    split
    next rest =>
      rw [if_pos (by simp), ofDirectoryPattern_append]
    next => exact ofDirectoryPattern_append _

/-- The patterns of a directory pass over a path exactly when the path
leads through the directory: its components stand in a row among those of
the path, and the last component of the path comes behind them. So for a
directory of one name, neither a longer name nor a file of that name is
passed over. -/
theorem applies_ofPattern_directory (p d : String) :
    ((ofPattern ("**/" ++ d ++ "/*")).applies p.toList = true ↔
        Path.LeadsThrough p.toList d.toList) ∧
      (¬ "**/".toList <+: (d ++ "/*").toList →
        ((ofPattern (d ++ "/*")).applies p.toList = true ↔
          Path.LeadsThrough p.toList d.toList)) ∧
      ('/' ∉ d.toList → (Path.LeadsThrough p.toList d.toList ↔
        d.toList ∈ (Path.pieces p.toList).dropLast)) := by
  refine ⟨?_, fun hbare => ?_, Path.leadsThrough_iff_mem⟩
  · rw [ofPattern_directory]
    exact applies_inside_iff
  · rw [ofPattern_bareDirectory hbare]
    exact applies_inside_iff

/-- A directory of unfinished work is passed over wherever it lies; one of
a longer name and a file of the name itself are not. -/
theorem applies_ofPattern_directory_wip :
    ¬ "**/".toList <+: ("wip" ++ "/*").toList ∧
      '/' ∉ "wip".toList ∧
      (ofPattern ("wip" ++ "/*")).applies
        "data/wip/rides.rcd.yaml".toList = true ∧
      (ofPattern ("**/" ++ "wip" ++ "/*")).applies
        "data/wipes/rides.rcd.yaml".toList ≠ true ∧
      (ofPattern ("**/" ++ "wip" ++ "/*")).applies
        "data/wip".toList ≠ true := by
  have hbare : ¬ "**/".toList <+: ("wip" ++ "/*").toList := by decide
  have hname : '/' ∉ "wip".toList := by decide
  obtain ⟨-, hinside, hmem⟩ :=
    applies_ofPattern_directory "data/wip/rides.rcd.yaml" "wip"
  obtain ⟨hlonger, -, hlongerMem⟩ :=
    applies_ofPattern_directory "data/wipes/rides.rcd.yaml" "wip"
  obtain ⟨hfile, -, hfileMem⟩ :=
    applies_ofPattern_directory "data/wip" "wip"
  refine ⟨hbare, hname, ?_, ?_, ?_⟩
  · rw [hinside hbare, hmem hname]
    decide
  · rw [ne_eq, hlonger, hlongerMem hname]
    decide
  · rw [ne_eq, hfile, hfileMem hname]
    decide

end Exclusion

end GamePack
