import Mathlib.Data.List.Basic
import GamePack.Path

/-!
Paths below others. A path that is not absolute adds its own steps to
those of the path that it is joined to, whatever slashes stand between
the two; a leading `.`, which is a component of a path of its own, is no
step. So all that a comparison of two paths below one directory sees is
their steps, and the components come in one order, which is total.
-/
namespace GamePack.Path

-- ============================================================== pieces

/-- A separator between two texts separates their pieces. -/
theorem pieces_append (front body : List Char) :
    pieces (front ++ '/' :: body) = pieces front ++ pieces body := by
  induction front with
  | nil => simp [pieces]
  | cons c front ih =>
      rw [List.cons_append, pieces, pieces, ih]
      by_cases hc : c = '/'
      · simp [hc]
      · rw [if_neg hc, if_neg hc]
        cases hfront : pieces front with
        | nil =>
            -- there is always a piece
            cases front with
            | nil => cases hfront
            | cons d front =>
                rw [pieces] at hfront
                split at hfront
                · cases hfront
                · split at hfront
                  · cases hfront
                  · cases hfront
        | cons piece more => rfl

/-- A text without a slash is one piece. -/
theorem pieces_of_not_mem {cs : List Char} (h : '/' ∉ cs) :
    pieces cs = [cs] := by
  induction cs with
  | nil => rfl
  | cons c cs ih =>
      have hc : c ≠ '/' := fun hc => h (hc ▸ List.mem_cons_self)
      rw [pieces, if_neg hc, ih fun hcs => h (List.mem_cons_of_mem c hcs)]

-- =============================================================== joins

/-- The slash that joining puts after a text: none after nothing and none
after another. -/
def slashAfter (cs : List Char) : List Char :=
  if cs = [] ∨ cs.getLast? = some '/' then [] else ['/']

/-- A text with its slash ends in one, unless it is empty. -/
theorem slashAfter_append (cs ds : List Char) :
    slashAfter (cs ++ slashAfter cs ++ ds) = slashAfter ds := by
  by_cases hds : ds = []
  · subst hds
    unfold slashAfter
    by_cases hcs : cs = [] ∨ cs.getLast? = some '/'
    · simp [hcs]
    · simp [hcs]
  · by_cases hcs : cs = []
    · subst hcs
      rfl
    · simp [slashAfter, hcs, hds]

/-- A text that is not empty has, with its slash, a front before it. -/
theorem exists_front {cs : List Char} (h : cs ≠ []) :
    ∃ front, (cs = front ∨ cs = front ++ ['/']) ∧
      cs ++ slashAfter cs = front ++ ['/'] := by
  by_cases hslash : cs.getLast? = some '/'
  · obtain ⟨front, rfl⟩ := List.getLast?_eq_some_iff.1 hslash
    exact ⟨front, .inr rfl, by simp [slashAfter]⟩
  · exact ⟨cs, .inl rfl, by simp [slashAfter, h, hslash]⟩

variable {p q base : Path}

/-- An absolute path replaces the base it is joined to. -/
theorem join_of_isAbsolute (h : q.isAbsolute = true) : p.join q = q := by
  rw [join, if_pos h]

/-- A relative path is written behind the base, with a separator between
them unless there is one. -/
theorem toList_join (h : p.isAbsolute = false) :
    (base.join p).text.toList =
      base.text.toList ++ slashAfter base.text.toList ++ p.text.toList := by
  unfold join slashAfter
  rw [if_neg (by rw [h]; decide)]
  by_cases hfree : base.text = "" ∨ base.text.toList.getLast? = some '/'
  · simp [hfree]
  · simp [hfree]

/-- A base keeps being absolute or relative when a relative path is
joined to it. -/
theorem isAbsolute_join (hbase : base.text ≠ "") (h : p.isAbsolute = false) :
    (base.join p).isAbsolute = base.isAbsolute := by
  have hne : base.text.toList ≠ [] := by simpa using hbase
  rw [isAbsolute, isAbsolute, toList_join h, List.append_assoc,
    List.head?_append_of_ne_nil _ hne]

/-- A path with some text keeps it when another is joined to it. -/
theorem join_ne_empty (hp : p.text ≠ "") : (p.join q).text ≠ "" := by
  cases hq : q.isAbsolute with
  | true =>
      rw [join_of_isAbsolute hq]
      intro hempty
      rw [isAbsolute, hempty] at hq
      cases hq
  | false =>
      intro hempty
      have hlist : (p.join q).text.toList = p.text.toList ++
          slashAfter p.text.toList ++ q.text.toList := toList_join hq
      rw [hempty] at hlist
      simp [hp] at hlist

/-- Joining one after the other is joining to what is joined. -/
theorem join_assoc (p q r : Path) :
    (p.join q).join r = p.join (q.join r) := by
  by_cases hr : r.isAbsolute = true
  · rw [join_of_isAbsolute hr, join_of_isAbsolute hr, join_of_isAbsolute hr]
  rw [Bool.not_eq_true] at hr
  by_cases hq : q.isAbsolute = true
  · have hne : q.text ≠ "" := by
      intro hq'
      rw [isAbsolute, hq'] at hq
      cases hq
    have hboth : (q.join r).isAbsolute = true := by
      rw [isAbsolute_join hne hr, hq]
    rw [join_of_isAbsolute hq, join_of_isAbsolute hboth]
  rw [Bool.not_eq_true] at hq
  have hboth : (q.join r).isAbsolute = false := by
    by_cases hne : q.text = ""
    · rw [isAbsolute, toList_join hr, hne]
      exact hr
    · rw [isAbsolute_join hne hr, hq]
  have htext : ((p.join q).join r).text.toList =
      (p.join (q.join r)).text.toList := by
    rw [toList_join hr, toList_join hq, toList_join hboth, toList_join hr,
      slashAfter_append]
    simp only [List.append_assoc]
  exact congrArg Path.mk (String.toList_inj.1 htext)

-- =============================================================== steps

/-- The pieces of a path that are not empty: those that a disk walks. -/
def parts (p : Path) : List (List Char) :=
  (pieces p.text.toList).filter (!·.isEmpty)

/-- What a path names on its way where it stands below another. -/
def steps (p : Path) : List Component := p.parts.filterMap componentOf

/-- The parts of a joined path are those of the base and then those of
the path. -/
theorem parts_join (h : p.isAbsolute = false) :
    (base.join p).parts = base.parts ++ p.parts := by
  rw [parts, toList_join h]
  by_cases hne : base.text.toList = []
  · simp [parts, hne, slashAfter, pieces]
  · obtain ⟨front, hcs, hfront⟩ := exists_front hne
    have hparts : base.parts =
        (pieces front).filter (!·.isEmpty) := by
      rcases hcs with hcs | hcs
      · rw [parts, hcs]
      · rw [parts, hcs, pieces_append]
        simp [pieces]
    rw [hparts, hfront, List.append_assoc, List.singleton_append,
      pieces_append, List.filter_append]
    rfl

/-- The steps of a joined path are those of the base and then those of
the path. -/
theorem steps_join (h : p.isAbsolute = false) :
    (base.join p).steps = base.steps ++ p.steps := by
  rw [steps, parts_join h, List.filterMap_append, steps, steps]

/-- The components of a path are its steps, and in front of them the
root or a leading `.`. -/
theorem components_eq (p : Path) :
    p.components = headComponent p.text.toList ++ p.steps := by
  have hbody : ∀ cs : List Char,
      (pieces (bodyOf cs)).filterMap componentOf =
        (pieces cs).filterMap componentOf := by
    intro cs
    unfold bodyOf headOf
    split
    · rfl
    · rfl
    · rfl
    · rfl
  have hsteps : p.steps =
      (pieces p.text.toList).filterMap componentOf := by
    rw [steps, parts, List.filterMap_filter]
    refine List.filterMap_congr fun piece _ => ?_
    cases piece with
    | nil => rfl
    | cons c piece => rfl
  rw [hsteps, ← hbody]
  rfl

/-- Only what is in front of the first slash counts as the head. -/
theorem headComponent_append {cs : List Char} (h : cs ≠ [])
    (tail : List Char) :
    headComponent (cs ++ '/' :: tail) = headComponent cs := by
  have hhead : headOf (cs ++ '/' :: tail) = headOf cs := by
    rcases cs with _ | ⟨c, _ | ⟨d, cs⟩⟩
    · exact absurd rfl h
    · by_cases hroot : c = '/'
      · subst hroot
        rfl
      · by_cases hdot : c = '.'
        · subst hdot
          rfl
        · simp [headOf, hroot, hdot]
    · by_cases hroot : c = '/'
      · subst hroot
        rfl
      · by_cases hdot : c = '.'
        · subst hdot
          by_cases hd : d = '/'
          · subst hd
            rfl
          · simp [headOf, hd]
        · simp [headOf, hroot, hdot]
  rw [headComponent, hhead, headComponent]

/-- Joining a relative path adds its steps to the components of the base;
a leading dot is no step. -/
theorem components_join (hbase : base.text ≠ "") (h : p.isAbsolute = false) :
    (base.join p).components = base.components ++ p.steps := by
  have hne : base.text.toList ≠ [] := by simpa using hbase
  have hhead : headComponent (base.join p).text.toList =
      headComponent base.text.toList := by
    obtain ⟨front, hcs, hfront⟩ := exists_front hne
    rw [toList_join h, hfront, List.append_assoc, List.singleton_append]
    rcases hcs with hcs | hcs
    · rw [hcs] at hne ⊢
      exact headComponent_append hne _
    · rw [hcs]
      cases front with
      | nil => rfl
      | cons c front =>
          rw [headComponent_append (List.cons_ne_nil _ _),
            headComponent_append (List.cons_ne_nil _ _)]
  rw [components_eq, components_eq, hhead, steps_join h,
    List.append_assoc]

-- =============================================================== order

namespace Component

variable {a b c : Component}

/-- The place of a component among the kinds of components. -/
def rank : Component → Nat
  | .root => 0
  | .current => 1
  | .parent => 2
  | .name _ => 3

/-- Kinds come in order, and names in their own. -/
theorem before_iff : a.before b = true ↔
    a.rank < b.rank ∨ ∃ m n, a = .name m ∧ b = .name n ∧ m < n := by
  cases a <;> cases b <;> simp [before, rank]

theorem not_before_self (a : Component) : a.before a = false := by
  rw [Bool.eq_false_iff, ne_eq, before_iff]
  rintro (h | ⟨m, n, rfl, hn, h⟩)
  · exact Nat.lt_irrefl _ h
  · obtain rfl := name.inj hn
    exact String.lt_irrefl m h

theorem before_trans (hab : a.before b = true) (hbc : b.before c = true) :
    a.before c = true := by
  rw [before_iff] at *
  rcases hab with hab | ⟨m, n, rfl, rfl, hmn⟩
  · left
    rcases hbc with hbc | ⟨n, o, rfl, rfl, -⟩
    · exact Nat.lt_trans hab hbc
    · exact hab
  · rcases hbc with hbc | ⟨n', o, hn, rfl, hno⟩
    · exact .inl hbc
    · obtain rfl := name.inj hn
      exact .inr ⟨m, o, rfl, rfl, String.lt_trans hmn hno⟩

/-- Different components of one kind are names. -/
theorem names_of_rank (hrank : a.rank = b.rank) (h : a ≠ b) :
    ∃ m n, a = .name m ∧ b = .name n := by
  cases a with
  | name m =>
      cases b with
      | name n => exact ⟨m, n, rfl, rfl⟩
      | _ => cases hrank
  | _ =>
      cases b with
      | name n => cases hrank
      | _ => first | exact absurd rfl h | cases hrank

/-- Of two components that differ, one is before the other. -/
theorem before_total (h : a ≠ b) :
    a.before b = true ∨ b.before a = true := by
  rw [before_iff, before_iff]
  rcases Nat.lt_trichotomy a.rank b.rank with hrank | hrank | hrank
  · exact .inl (.inl hrank)
  · obtain ⟨m, n, rfl, rfl⟩ := names_of_rank hrank h
    by_cases hmn : m < n
    · exact .inl (.inr ⟨m, n, rfl, rfl, hmn⟩)
    · by_cases hnm : n < m
      · exact .inr (.inr ⟨n, m, rfl, rfl, hnm⟩)
      · rw [String.not_lt] at hmn hnm
        exact absurd (congrArg name (String.le_antisymm hnm hmn)) h
  · exact .inr (.inl hrank)

theorem before_asymm (hab : a.before b = true) : b.before a = false := by
  rw [Bool.eq_false_iff]
  intro hba
  have hself := before_trans hab hba
  rw [not_before_self] at hself
  cases hself

end Component

variable {as bs cs : List Component}

/-- What two rows begin with does not tell which comes first. -/
theorem componentsLe_append (front as bs : List Component) :
    componentsLe (front ++ as) (front ++ bs) = componentsLe as bs := by
  induction front with
  | nil => rfl
  | cons c front ih => rw [List.cons_append, List.cons_append, componentsLe,
      if_pos rfl, ih]

theorem componentsLe_trans (hab : componentsLe as bs = true)
    (hbc : componentsLe bs cs = true) : componentsLe as cs = true := by
  induction as generalizing bs cs with
  | nil => rfl
  | cons a as ih =>
      cases bs with
      | nil => cases hab
      | cons b bs =>
          cases cs with
          | nil => cases hbc
          | cons c cs =>
              rw [componentsLe] at hab hbc ⊢
              split at hab
              next h =>
                subst h
                split at hbc
                next h =>
                  rw [if_pos h]
                  exact ih hab hbc
                next h =>
                  rw [if_neg h]
                  exact hbc
              next h =>
                split at hbc
                next h' =>
                  subst h'
                  rw [if_neg h]
                  exact hab
                next h' =>
                  have hac := Component.before_trans hab hbc
                  rw [if_neg]
                  · exact hac
                  · rintro rfl
                    rw [Component.not_before_self] at hac
                    cases hac

theorem componentsLe_total (as bs : List Component) :
    (componentsLe as bs || componentsLe bs as) = true := by
  rw [Bool.or_eq_true]
  induction as generalizing bs with
  | nil => exact .inl rfl
  | cons a as ih =>
      cases bs with
      | nil => exact .inr rfl
      | cons b bs =>
          rw [componentsLe, componentsLe]
          by_cases h : a = b
          · rw [if_pos h, if_pos h.symm]
            exact ih bs
          · rw [if_neg h, if_neg (Ne.symm h)]
            exact Component.before_total h

theorem componentsLe_antisymm (hab : componentsLe as bs = true)
    (hba : componentsLe bs as = true) : as = bs := by
  induction as generalizing bs with
  | nil =>
      cases bs with
      | nil => rfl
      | cons b bs => cases hba
  | cons a as ih =>
      cases bs with
      | nil => cases hab
      | cons b bs =>
          rw [componentsLe] at hab hba
          by_cases h : a = b
          · subst h
            rw [if_pos rfl] at hab hba
            rw [ih hab hba]
          · rw [if_neg h] at hab
            rw [if_neg (Ne.symm h), Component.before_asymm hab] at hba
            cases hba

/-- Two paths are the same when their components are. -/
theorem same_iff : p.same q = true ↔ p.components = q.components := by
  rw [same, beq_iff_eq]

theorem same_eq_false_iff :
    p.same q = false ↔ p.components ≠ q.components := by
  rw [same, beq_eq_false_iff_ne]

/-- The order of paths by their steps. -/
def stepsLe (p q : Path) : Bool := componentsLe p.steps q.steps

/-- Below one directory only the steps say which path comes first. -/
theorem le_join (hbase : base.text ≠ "") (hp : p.isAbsolute = false)
    (hq : q.isAbsolute = false) :
    (base.join p).le (base.join q) = p.stepsLe q := by
  rw [le, components_join hbase hp, components_join hbase hq,
    componentsLe_append, stepsLe]

/-- Paths that are known by their steps have one order. -/
theorem mergeSort_steps_of_perm {files files' : List Path}
    (hknown : ∀ p ∈ files, ∀ q ∈ files, p.steps = q.steps → p = q)
    (hperm : files.Perm files') :
    files.mergeSort stepsLe = files'.mergeSort stepsLe := by
  have hordered : ∀ l : List Path,
      (l.mergeSort stepsLe).Pairwise (stepsLe · · = true) :=
    List.pairwise_mergeSort (fun _ _ _ => componentsLe_trans)
      fun p q => componentsLe_total p.steps q.steps
  have hsorted : (files.mergeSort stepsLe).Perm
      (files'.mergeSort stepsLe) :=
    (List.mergeSort_perm files _).trans
      (hperm.trans (List.mergeSort_perm files' _).symm)
  refine hsorted.eq_of_pairwise ?_ (hordered files) (hordered files')
  intro p q hp hq hpq hqp
  rw [List.mem_mergeSort] at hp hq
  exact hknown p hp q (hperm.mem_iff.2 hq)
    (componentsLe_antisymm hpq hqp)

/-- Relative paths differ below a base when their steps do. -/
theorem same_join_eq_false_iff (hbase : base.text ≠ "")
    (hp : p.isAbsolute = false) (hq : q.isAbsolute = false) :
    (base.join p).same (base.join q) = false ↔ p.steps ≠ q.steps := by
  rw [same_eq_false_iff, components_join hbase hp, components_join hbase hq,
    ne_eq, List.append_right_inj]

end GamePack.Path
