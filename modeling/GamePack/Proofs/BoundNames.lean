import GamePack.Check
import Mathlib.Data.List.Nodup
import Mathlib.Tactic

/-!
What the check of bound names reports. A name is looked at once for each
place at which it stands, and all that counts is how often it stood
before: where it stands first it is reported unless it is a field, where
it stands for the second time it is reported in any case, and from then
on it is not reported again. So the warnings lie in the row of names at
places that the row alone determines, at most one at each.

One pass that keeps two sets finds the same: behind every part of the row
one set holds the names in it, the other those that stand in it twice.
-/
namespace GamePack

variable {magic : Magic} {version : Nat} {known names : List String}
  {name other : String} {k i : Nat}

-- ============================================================ messages

/-- The message about a missing field tells which field it is. -/
theorem missingField_name {f g : Field}
    (h : missingField magic version f = missingField magic version g) :
    f.name = g.name := by
  simp only [missingField, Diagnostic.mk.injEq, String.append_left_inj,
    String.append_right_inj] at h
  exact h.2.2.1

/-- The message about an unused name tells which name it is. -/
theorem unusedField_inj :
    unusedField magic version name = unusedField magic version other ↔
      name = other := by
  simp only [unusedField, Diagnostic.mk.injEq, true_and, and_true,
    String.append_left_inj, String.append_right_inj]
  exact Iff.rfl

theorem redefinedField_inj :
    redefinedField magic name = redefinedField magic other ↔
      name = other := by
  simp only [redefinedField, Diagnostic.mk.injEq, true_and, and_true,
    String.append_left_inj, String.append_right_inj]
  exact Iff.rfl

/-- The two warnings are never the same. -/
theorem unusedField_ne_redefinedField :
    unusedField magic version name ≠ redefinedField magic other := by
  simp [unusedField, redefinedField]

-- ============================================================== places

/-- The warning about a name that stood a number of times before. -/
def warning? (magic : Magic) (version : Nat) (known : List String)
    (before : Nat) (name : String) : Option Diagnostic :=
  match before with
  | 0 => if known.contains name then none
    else some (unusedField magic version name)
  | 1 => some (redefinedField magic name)
  | _ => none

/-- A first use is warned of when the name is not known, a second one
always, and a later one never. -/
theorem warning?_eq_some_iff {d : Diagnostic} :
    warning? magic version known k name = some d ↔
      k = 0 ∧ name ∉ known ∧ d = unusedField magic version name ∨
        k = 1 ∧ d = redefinedField magic name := by
  rcases k with _ | _ | k
  · by_cases hknown : name ∈ known <;> simp [warning?, hknown, eq_comm]
  · simp [warning?, eq_comm]
  · simp [warning?]

/-- The warning about a first name stands in front of the others. -/
theorem nameWarnings_cons (before : List String) :
    nameWarnings magic version known before (name :: names) =
      (warning? magic version known (before.count name) name).toList ++
        nameWarnings magic version known (name :: before) names := by
  rw [nameWarnings]
  rcases before.count name with _ | _ | k
  · by_cases hknown : name ∈ known <;> simp [warning?, hknown]
  · rfl
  · rfl

/-- The warning about a last name stands behind the others. -/
theorem nameWarnings_concat (before : List String) :
    nameWarnings magic version known before (names ++ [name]) =
      nameWarnings magic version known before names ++
        (warning? magic version known
          (before.count name + names.count name) name).toList := by
  induction names generalizing before with
  | nil =>
      rw [List.nil_append, nameWarnings_cons, List.count_nil, Nat.add_zero]
      exact List.append_nil _
  | cons first names ih =>
      have hcount : (first :: before).count name + names.count name =
          before.count name + (first :: names).count name := by
        rw [List.count_cons, List.count_cons]
        omega
      rw [List.cons_append, nameWarnings_cons, ih, nameWarnings_cons,
        List.append_assoc, hcount]

/-- A name stands at a place of a row, and stands a number of times
before it. -/
def StandsAt (names : List String) (name : String) (before i : Nat) :
    Prop :=
  names[i]? = some name ∧ (names.take i).count name = before

theorem StandsAt.lt (h : StandsAt names name k i) : i < names.length :=
  (List.getElem?_eq_some_iff.1 h.1).1

/-- A name that is put behind a row stands at the last place. -/
theorem standsAt_concat :
    StandsAt (names ++ [other]) name k i ↔
      StandsAt names name k i ∨
        i = names.length ∧ name = other ∧ names.count other = k := by
  unfold StandsAt
  rcases Nat.lt_trichotomy i names.length with hlt | rfl | hgt
  · rw [List.getElem?_append_left hlt,
      List.take_append_of_le_length (Nat.le_of_lt hlt)]
    have hne : i ≠ names.length := Nat.ne_of_lt hlt
    simp [hne]
  · rw [List.getElem?_concat_length, List.take_left,
      List.getElem?_eq_none (Nat.le_refl _)]
    simp only [Option.some.injEq, reduceCtorEq, false_and, false_or,
      true_and]
    constructor
    · rintro ⟨rfl, hk⟩
      exact ⟨rfl, hk⟩
    · rintro ⟨rfl, hk⟩
      exact ⟨rfl, hk⟩
  · have hnone : names[i]? = none :=
      List.getElem?_eq_none (Nat.le_of_lt hgt)
    have hnone' : (names ++ [other])[i]? = none := by
      rw [List.getElem?_eq_none_iff, List.length_append,
        List.length_singleton]
      exact hgt
    have hne : i ≠ names.length := Nat.ne_of_gt hgt
    simp [hnone, hnone', hne]

/-- A name has a place behind a number of its places as long as it stands
in the row more often. -/
theorem exists_standsAt_iff :
    (∃ i, StandsAt names name k i) ↔ k < names.count name := by
  induction names using List.reverseRecOn with
  | nil => simp [StandsAt]
  | append_singleton names last ih =>
      have hplace : (∃ i, StandsAt (names ++ [last]) name k i) ↔
          (∃ i, StandsAt names name k i) ∨
            name = last ∧ names.count last = k := by
        simp only [standsAt_concat, exists_or, exists_eq_left]
      rw [hplace, ih, List.count_append, List.count_singleton]
      by_cases hname : name = last
      · subst hname
        simp only [true_and, beq_self_eq_true, if_true]
        omega
      · simp [hname, Ne.symm hname]

/-- There is one such place. -/
theorem StandsAt.unique {j : Nat} (h : StandsAt names name k i)
    (h' : StandsAt names name k j) : i = j := by
  induction names using List.reverseRecOn with
  | nil => cases h.1
  | append_singleton names last ih =>
      -- a last place is behind all the others
      have hbehind : ∀ i, StandsAt names name k i → name = last →
          names.count last ≠ k := by
        rintro i hi rfl
        exact Nat.ne_of_gt (exists_standsAt_iff.1 ⟨i, hi⟩)
      rcases standsAt_concat.1 h with h | ⟨rfl, hname, hk⟩
      · rcases standsAt_concat.1 h' with h' | ⟨-, hname, hk⟩
        · exact ih h h'
        · exact absurd hk (hbehind i h hname)
      · rcases standsAt_concat.1 h' with h' | ⟨rfl, -, -⟩
        · exact absurd hk (hbehind j h' hname)
        · rfl

-- ============================================================= reports

/-- What is reported at a place: an unknown name that stands there first,
or a name that stands there for the second time. -/
def ReportsAt (magic : Magic) (version : Nat) (known names : List String)
    (i : Nat) (d : Diagnostic) : Prop :=
  ∃ name, StandsAt names name 0 i ∧ name ∉ known ∧
      d = unusedField magic version name ∨
    StandsAt names name 1 i ∧ d = redefinedField magic name

theorem ReportsAt.lt {d : Diagnostic}
    (h : ReportsAt magic version known names i d) : i < names.length := by
  obtain ⟨name, ⟨hstands, -⟩ | ⟨hstands, -⟩⟩ := h
  · exact hstands.lt
  · exact hstands.lt

/-- Nothing is reported at two places. -/
theorem ReportsAt.unique {d : Diagnostic} {j : Nat}
    (h : ReportsAt magic version known names i d)
    (h' : ReportsAt magic version known names j d) : i = j := by
  obtain ⟨name, ⟨hstands, -, rfl⟩ | ⟨hstands, rfl⟩⟩ := h
  · obtain ⟨other, ⟨hstands', -, hsame⟩ | ⟨-, hsame⟩⟩ := h'
    · obtain rfl := unusedField_inj.1 hsame
      exact hstands.unique hstands'
    · exact absurd hsame unusedField_ne_redefinedField
  · obtain ⟨other, ⟨-, -, hsame⟩ | ⟨hstands', hsame⟩⟩ := h'
    · exact absurd hsame.symm unusedField_ne_redefinedField
    · obtain rfl := redefinedField_inj.1 hsame
      exact hstands.unique hstands'

/-- The names that are reported as unused are those that stand in the row
and are not known. -/
theorem exists_reportsAt_unused :
    (∃ i, ReportsAt magic version known names i
        (unusedField magic version name)) ↔
      name ∈ names ∧ name ∉ known := by
  rw [← List.count_pos_iff, ← exists_standsAt_iff]
  constructor
  · rintro ⟨i, other, ⟨hstands, hknown, hsame⟩ | ⟨-, hsame⟩⟩
    · obtain rfl := unusedField_inj.1 hsame
      exact ⟨⟨i, hstands⟩, hknown⟩
    · exact absurd hsame unusedField_ne_redefinedField
  · rintro ⟨⟨i, hstands⟩, hknown⟩
    exact ⟨i, name, .inl ⟨hstands, hknown, rfl⟩⟩

/-- The names that are reported as repeated are those that stand in the
row twice or more. -/
theorem exists_reportsAt_redefined :
    (∃ i, ReportsAt magic version known names i
        (redefinedField magic name)) ↔ 2 ≤ names.count name := by
  refine Iff.trans ?_ (exists_standsAt_iff (k := 1))
  constructor
  · rintro ⟨i, other, ⟨-, -, hsame⟩ | ⟨hstands, hsame⟩⟩
    · exact absurd hsame.symm unusedField_ne_redefinedField
    · obtain rfl := redefinedField_inj.1 hsame
      exact ⟨i, hstands⟩
  · rintro ⟨i, hstands⟩
    exact ⟨i, name, .inr ⟨hstands, rfl⟩⟩

/-- A name that is put behind a row is reported at the last place, and
the others are reported as before. -/
theorem reportsAt_concat {d : Diagnostic} :
    ReportsAt magic version known (names ++ [name]) i d ↔
      ReportsAt magic version known names i d ∨ i = names.length ∧
        warning? magic version known (names.count name) name = some d := by
  simp only [ReportsAt, standsAt_concat, warning?_eq_some_iff]
  constructor
  · rintro ⟨other, ⟨hstands | ⟨rfl, rfl, hk⟩, hd⟩ |
      ⟨hstands | ⟨rfl, rfl, hk⟩, hd⟩⟩
    · exact .inl ⟨other, .inl ⟨hstands, hd⟩⟩
    · exact .inr ⟨rfl, .inl ⟨hk, hd⟩⟩
    · exact .inl ⟨other, .inr ⟨hstands, hd⟩⟩
    · exact .inr ⟨rfl, .inr ⟨hk, hd⟩⟩
  · rintro (⟨other, ⟨hstands, hd⟩ | ⟨hstands, hd⟩⟩ |
      ⟨rfl, ⟨hk, hd⟩ | ⟨hk, hd⟩⟩)
    · exact ⟨other, .inl ⟨.inl hstands, hd⟩⟩
    · exact ⟨other, .inr ⟨.inl hstands, hd⟩⟩
    · exact ⟨name, .inl ⟨.inr ⟨rfl, rfl, hk⟩, hd⟩⟩
    · exact ⟨name, .inr ⟨.inr ⟨rfl, rfl, hk⟩, hd⟩⟩

/-- Diagnostics with their places, in the order of these: what is reported
at each place of a row of names, and nothing else. -/
structure IsPlaced (magic : Magic) (version : Nat)
    (known names : List String) (placed : List (Nat × Diagnostic)) :
    Prop where
  ordered : (placed.map Prod.fst).Pairwise (· < ·)
  mem_iff : ∀ i d, (i, d) ∈ placed ↔
    ReportsAt magic version known names i d

/-- The warnings of a row of names lie at the places of the names. -/
theorem exists_isPlaced (magic : Magic) (version : Nat)
    (known names : List String) :
    ∃ placed, IsPlaced magic version known names placed ∧
      nameWarnings magic version known [] names =
        placed.map Prod.snd := by
  induction names using List.reverseRecOn with
  | nil =>
      refine ⟨[], ⟨List.Pairwise.nil, fun i d => ?_⟩, rfl⟩
      simp [ReportsAt, StandsAt]
  | append_singleton names name ih =>
      obtain ⟨placed, ⟨hordered, hmem⟩, hwarnings⟩ := ih
      refine ⟨placed ++ ((warning? magic version known
        (names.count name) name).map (names.length, ·)).toList,
        ⟨?_, fun i d => ?_⟩, ?_⟩
      · rw [List.map_append, List.pairwise_append]
        refine ⟨hordered, ?_, fun i hi j hj => ?_⟩
        · cases warning? magic version known (names.count name) name with
          | none => exact List.Pairwise.nil
          | some d => exact List.pairwise_singleton _ _
        · obtain ⟨⟨i, d⟩, hplaced, rfl⟩ := List.mem_map.1 hi
          obtain ⟨⟨j, d'⟩, hlast, rfl⟩ := List.mem_map.1 hj
          rw [Option.mem_toList, Option.map_eq_some_iff] at hlast
          obtain ⟨_, -, heq⟩ := hlast
          obtain rfl : names.length = j := congrArg Prod.fst heq
          exact ((hmem i d).1 hplaced).lt
      · rw [List.mem_append, hmem, reportsAt_concat, Option.mem_toList,
          Option.map_eq_some_iff]
        simp only [Prod.mk.injEq, exists_eq_right_right]
        rw [and_comm, eq_comm]
      · rw [nameWarnings_concat, List.count_nil, Nat.zero_add, hwarnings,
          List.map_append]
        cases warning? magic version known (names.count name) name <;> rfl

/-- Each warning is given as often as there is a place for it, which is
once at most. -/
theorem IsPlaced.count {placed : List (Nat × Diagnostic)}
    (h : IsPlaced magic version known names placed) (d : Diagnostic)
    [Decidable (∃ i, ReportsAt magic version known names i d)] :
    List.count d (placed.map Prod.snd) =
      if ∃ i, ReportsAt magic version known names i d then 1 else 0 := by
  have hnodup : placed.Nodup :=
    List.Nodup.of_map Prod.fst (h.ordered.imp Nat.ne_of_lt)
  have hdistinct : (placed.map Prod.snd).Nodup := by
    refine hnodup.map_on fun p hp q hq hsame => Prod.ext ?_ hsame
    have hp := (h.mem_iff p.1 p.2).1 hp
    rw [hsame] at hp
    exact hp.unique ((h.mem_iff q.1 q.2).1 hq)
  have hmem : d ∈ placed.map Prod.snd ↔
      ∃ i, ReportsAt magic version known names i d := by
    simp only [List.mem_map, Prod.exists, h.mem_iff, exists_eq_right]
  rw [hdistinct.count]
  simp only [hmem]

-- ============================================================ two sets

/-- What is kept while the names of a row are looked at one by one. -/
structure NameScan where
  /-- The names so far. -/
  seen : Std.HashSet String := {}
  /-- The names that were there a second time. -/
  repeated : Std.HashSet String := {}
  /-- What was found. -/
  warnings : Diagnostics := []

/-- Look at one name. -/
def NameScan.step (magic : Magic) (version : Nat) (known : List String)
    (s : NameScan) (name : String) : NameScan :=
  if name ∈ s.seen then
    if name ∈ s.repeated then s
    else { s with
      repeated := s.repeated.insert name
      warnings := s.warnings ++ [redefinedField magic name] }
  else { s with
    seen := s.seen.insert name
    warnings := s.warnings ++ if known.contains name then []
      else [unusedField magic version name] }

/-- Look at the names of a row. -/
def scanNames (magic : Magic) (version : Nat) (known : List String)
    (names : List String) : NameScan :=
  names.foldl (NameScan.step magic version known) {}

/-- The sets hold the names of a row, and those that stand in it
twice. -/
structure NameScan.Knows (magic : Magic) (version : Nat)
    (known names : List String) (s : NameScan) : Prop where
  seen : ∀ name, name ∈ s.seen ↔ 0 < names.count name
  repeated : ∀ name, name ∈ s.repeated ↔ 1 < names.count name
  warnings : s.warnings = nameWarnings magic version known [] names

/-- What is known of a row is known of the row with one name more. -/
theorem NameScan.Knows.step {s : NameScan}
    (h : s.Knows magic version known names) (name : String) :
    (s.step magic version known name).Knows magic version known
      (names ++ [name]) := by
  obtain ⟨hseen, hrepeated, hwarnings⟩ := h
  have hcount : ∀ other, (names ++ [name]).count other =
      names.count other + if name = other then 1 else 0 := by
    intro other
    rw [List.count_append, List.count_singleton]
    simp only [beq_iff_eq]
  have hconcat : nameWarnings magic version known [] (names ++ [name]) =
      nameWarnings magic version known [] names ++
        (warning? magic version known (names.count name) name).toList := by
    rw [nameWarnings_concat, List.count_nil, Nat.zero_add]
  unfold NameScan.step
  split
  next hmem =>
    rw [hseen] at hmem
    split
    next hmem' =>
      -- the name is in both sets already
      rw [hrepeated] at hmem'
      obtain ⟨k, hk⟩ : ∃ k, names.count name = k + 2 :=
        ⟨names.count name - 2, by omega⟩
      refine ⟨fun other => ?_, fun other => ?_, ?_⟩
      · rw [hseen, hcount]
        grind
      · rw [hrepeated, hcount]
        grind
      · rw [hconcat, hk, hwarnings]
        exact (List.append_nil _).symm
    next hnew =>
      rw [hrepeated] at hnew
      have hk : names.count name = 1 := by omega
      refine ⟨fun other => ?_, fun other => ?_, ?_⟩
      · rw [hseen, hcount]
        grind
      · rw [Std.HashSet.mem_insert, hrepeated, hcount, beq_iff_eq]
        grind
      · rw [hconcat, hk, hwarnings]
        rfl
  next hnew =>
    rw [hseen] at hnew
    have hk : names.count name = 0 := by omega
    refine ⟨fun other => ?_, fun other => ?_, ?_⟩
    · rw [Std.HashSet.mem_insert, hseen, hcount, beq_iff_eq]
      grind
    · rw [hrepeated, hcount]
      grind
    · rw [hconcat, hk, hwarnings]
      by_cases hknown : name ∈ known <;> simp [warning?, hknown]

/-- One pass with two sets finds what the check reports of the names. -/
theorem knows_scanNames (magic : Magic) (version : Nat)
    (known names : List String) :
    (scanNames magic version known names).Knows magic version known
      names := by
  induction names using List.reverseRecOn with
  | nil => exact ⟨by simp [scanNames], by simp [scanNames], rfl⟩
  | append_singleton names name ih =>
      unfold scanNames at ih ⊢
      rw [List.foldl_concat]
      exact ih.step name

-- ============================================================== blocks

/-- The errors about fields that are not set. -/
def missingFields (magic : Magic) (version : Nat) (fields : List Field)
    (bound : List String) : Diagnostics :=
  (fields.filter fun f => !bound.contains f.name).map
    (missingField magic version)

/-- The check gives the missing fields and then the warnings about the
names. -/
theorem checkBindings_eq (magic : Magic) (version : Nat)
    (fields : List Field) (bound : List String) :
    checkBindings magic version fields bound =
      missingFields magic version fields bound ++
        nameWarnings magic version (fields.map Field.name) [] bound :=
  rfl

/-- A field of its own name is reported once where it is not set. -/
theorem count_missingFields {fields : List Field} {f : Field}
    (hnodup : (fields.map Field.name).Nodup) (hf : f ∈ fields)
    (bound : List String) :
    List.count (missingField magic version f)
        (missingFields magic version fields bound) =
      if f.name ∈ bound then 0 else 1 := by
  have hname : ∀ g ∈ fields,
      missingField magic version g = missingField magic version f → g = f :=
    fun g hg hsame =>
      List.inj_on_of_nodup_map hnodup hg hf (missingField_name hsame)
  have hdistinct : (missingFields magic version fields bound).Nodup := by
    refine (hnodup.of_map.filter _).map_on fun g hg g' hg' hsame => ?_
    exact List.inj_on_of_nodup_map hnodup (List.mem_of_mem_filter hg)
      (List.mem_of_mem_filter hg') (missingField_name hsame)
  have hmem : missingField magic version f ∈
      missingFields magic version fields bound ↔ f.name ∉ bound := by
    unfold missingFields
    rw [List.mem_map]
    constructor
    · rintro ⟨g, hg, hsame⟩
      obtain ⟨hg, hunbound⟩ := List.mem_filter.1 hg
      obtain rfl := hname g hg hsame
      simpa using hunbound
    · intro hunbound
      exact ⟨f, List.mem_filter.2 ⟨hf, by simpa using hunbound⟩, rfl⟩
  rw [hdistinct.count]
  by_cases hbound : f.name ∈ bound
  · rw [if_pos hbound, if_neg fun h => hmem.1 h hbound]
  · rw [if_neg hbound, if_pos (hmem.2 hbound)]

/-- No warning is an error. -/
theorem severity_of_reportsAt {d : Diagnostic}
    (h : ReportsAt magic version known names i d) :
    d.severity = .warning := by
  obtain ⟨name, ⟨-, -, rfl⟩ | ⟨-, rfl⟩⟩ := h
  · rfl
  · rfl

/-- A missing field is an error. -/
theorem severity_of_mem_missingFields {fields : List Field}
    {bound : List String} {d : Diagnostic}
    (h : d ∈ missingFields magic version fields bound) :
    d.severity = .error := by
  obtain ⟨f, -, rfl⟩ := List.mem_map.1 h
  rfl

/-- Of fields with distinct names and of any row of bound names the check
reports: first, in the order of the fields, one error for each field that
is not bound; then, in the order of the bound names, one warning for each
name that is no field, where it stands first, and one for each name that
is bound again, where it stands for the second time. It reports nothing
else, one pass with two sets finds the same warnings, and there are no
errors exactly when all fields are bound. -/
theorem checkBindings_exact (magic : Magic) (version : Nat)
    {fields : List Field} (h : (fields.map Field.name).Nodup)
    (bound : List String) :
    ∃ placed,
      checkBindings magic version fields bound =
        (fields.filter fun f => f.name ∉ bound).map
          (missingField magic version) ++ placed.map Prod.snd ∧
      IsPlaced magic version (fields.map Field.name) bound placed ∧
      placed.map Prod.snd =
        (scanNames magic version (fields.map Field.name) bound).warnings ∧
      (∀ f ∈ fields,
        List.count (missingField magic version f)
            (checkBindings magic version fields bound) =
          if f.name ∈ bound then 0 else 1) ∧
      (∀ name,
        List.count (unusedField magic version name)
            (checkBindings magic version fields bound) =
          if name ∈ bound ∧ name ∉ fields.map Field.name then 1 else 0) ∧
      (∀ name,
        List.count (redefinedField magic name)
            (checkBindings magic version fields bound) =
          if 2 ≤ bound.count name then 1 else 0) ∧
      ((checkBindings magic version fields bound).hasErrors = false ↔
        ∀ f ∈ fields, f.name ∈ bound) := by
  classical
  obtain ⟨placed, hplaced, hwarnings⟩ :=
    exists_isPlaced magic version (fields.map Field.name) bound
  have hsplit : checkBindings magic version fields bound =
      missingFields magic version fields bound ++
        placed.map Prod.snd := by
    rw [checkBindings_eq, hwarnings]
  have hwarns : ∀ d ∈ placed.map Prod.snd, d.severity = .warning := by
    intro d hd
    obtain ⟨⟨i, d⟩, hmem, rfl⟩ := List.mem_map.1 hd
    exact severity_of_reportsAt ((hplaced.mem_iff i d).1 hmem)
  -- no error is a warning, so each is counted on its own side
  have hcount : ∀ d : Diagnostic, d.severity = .warning →
      List.count d (checkBindings magic version fields bound) =
        List.count d (placed.map Prod.snd) := by
    intro d hd
    rw [hsplit, List.count_append, List.count_eq_zero_of_not_mem,
      Nat.zero_add]
    intro hmem
    rw [severity_of_mem_missingFields hmem] at hd
    cases hd
  refine ⟨placed, ?_, hplaced, ?_, fun f hf => ?_, fun name => ?_,
    fun name => ?_, ?_⟩
  · rw [hsplit, missingFields]
    congr 2
    exact List.filter_congr fun f _ => by simp
  · rw [← hwarnings]
    exact (knows_scanNames magic version _ bound).warnings.symm
  · rw [hsplit, List.count_append, count_missingFields h hf,
      List.count_eq_zero_of_not_mem, Nat.add_zero]
    intro hmem
    cases hwarns _ hmem
  · rw [hcount _ rfl, hplaced.count]
    simp only [exists_reportsAt_unused]
  · rw [hcount _ rfl, hplaced.count]
    simp only [exists_reportsAt_redefined]
  · rw [hsplit, Diagnostics.hasErrors, List.any_append,
      Bool.or_eq_false_iff, List.any_eq_false, List.any_eq_false]
    constructor
    · rintro ⟨herrors, -⟩ f hf
      by_contra hunbound
      refine herrors (missingField magic version f) ?_ rfl
      refine List.mem_map_of_mem (List.mem_filter.2 ⟨hf, ?_⟩)
      simpa using hunbound
    · intro hbound
      refine ⟨fun d hd => ?_, fun d hd => ?_⟩
      · obtain ⟨f, hf, -⟩ := List.mem_map.1 hd
        obtain ⟨hf, hunbound⟩ := List.mem_filter.1 hf
        exact absurd (hbound f hf) (by simpa using hunbound)
      · rw [hwarns d hd]
        decide

/-- A field for a width. -/
def widthField : Field := { name := "width", type := .numeric .uint8 }

/-- A field for a height. -/
def heightField : Field := { name := "height", type := .numeric .uint8 }

/-- Bindings of the width and of a name that is no field, three times
each. -/
def sizeNames : List String :=
  ["depth", "width", "depth", "width", "width", "depth"]

/-- The height is missing; of the other names the first is reported at
its first place, and both are at their second. -/
theorem checkBindings_exact_sizes :
    ([widthField, heightField].map Field.name).Nodup ∧
      checkBindings .sprite 1 [widthField, heightField] sizeNames =
        [missingField .sprite 1 heightField,
          unusedField .sprite 1 "depth", redefinedField .sprite "depth",
          redefinedField .sprite "width"] ∧
      (∃ placed, IsPlaced .sprite 1 ["width", "height"] sizeNames placed ∧
        placed.map Prod.snd =
          (scanNames .sprite 1 ["width", "height"] sizeNames).warnings) ∧
      List.count (redefinedField .sprite "width")
        (checkBindings .sprite 1 [widthField, heightField] sizeNames) = 1 ∧
      (checkBindings .sprite 1 [widthField, heightField]
        sizeNames).hasErrors = true := by
  have hnodup : ([widthField, heightField].map Field.name).Nodup := by
    decide
  obtain ⟨placed, -, hplaced, hscan, -, -, hredefined, herrors⟩ :=
    checkBindings_exact .sprite 1 hnodup sizeNames
  refine ⟨hnodup, rfl, ⟨placed, hplaced, hscan⟩, hredefined "width", ?_⟩
  by_contra hnone
  have hheight := herrors.1 (Bool.not_eq_true _ ▸ hnone) heightField
    (by decide)
  revert hheight
  decide

end GamePack
