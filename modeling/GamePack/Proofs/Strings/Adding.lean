import GamePack.Proofs.Dictionary
import GamePack.Proofs.Outcome
import GamePack.Strings
import Mathlib.Data.List.Induction

/-!
Localized strings as they are added. An addition that cannot be stored is
refused and changes nothing; any other puts its forms in place of earlier
ones. So what strings hold after any row of additions is what the last
addition that could be stored says, for each name and language.

`IsStored` is the normal form of what is reached in this way: names and
languages ascend and fit their bytes, every string has a language, and
every language has its forms. Stored strings with the same forms are the
same strings.
-/
namespace GamePack

/-- A name or a language that fits into a payload. -/
def Strings.IsName (name : String) : Prop :=
  name ≠ "" ∧ name.utf8ByteSize < maxName ∧ hasNul name = false

/-- Plural forms that fit into a payload. -/
def Strings.AreForms (forms : List String) : Prop :=
  forms ≠ [] ∧ forms.length ≤ 255 ∧ ∀ form ∈ forms, hasNul form = false

instance (name : String) : Decidable (Strings.IsName name) :=
  inferInstanceAs (Decidable (_ ∧ _ ∧ _))

instance (forms : List String) : Decidable (Strings.AreForms forms) :=
  inferInstanceAs (Decidable (_ ∧ _ ∧ _))

/-- Plural forms in one or more languages that fit into a payload, in the
order of the languages. -/
structure Localizations.IsStored (d : Localizations) : Prop where
  ordered : d.IsOrdered
  some : d ≠ []
  stored : ∀ entry ∈ d, Strings.IsName entry.1 ∧ Strings.AreForms entry.2

namespace Strings

-- ============================================================ additions

/-- The plural forms of one string in one language, to be added. -/
structure Addition where
  name : String
  language : String
  forms : List String
  deriving DecidableEq, Repr

/-- An addition that is not refused. -/
def Addition.IsStorable (a : Addition) : Prop :=
  IsName a.name ∧ IsName a.language ∧ AreForms a.forms

instance (a : Addition) : Decidable a.IsStorable :=
  inferInstanceAs (Decidable (_ ∧ _ ∧ _))

/-- What strings are after an addition; one that is refused changes
nothing. -/
def after (s : Strings) (a : Addition) : Strings :=
  match s.add a.name a.language a.forms with
  | .ok t => t
  | .error _ => s

/-- The strings of a row of additions. -/
def ofAdditions (l : List Addition) : Strings := l.foldl after {}

/-- The forms of a string in a language. -/
def forms? (s : Strings) (name language : String) :
    Option (List String) :=
  (s.entries.find? name).bind fun languages => languages.find? language

/-- The forms that the last addition for a string and a language gives,
among those that are not refused. -/
def finalForms (l : List Addition) (name language : String) :
    Option (List String) :=
  (l.reverse.find? fun a =>
    decide (a.IsStorable ∧ a.name = name ∧ a.language = language)).map
    Addition.forms

variable {s t : Strings} {name language : String} {forms : List String}

theorem checkName_ok_iff {what : String} {u : Unit} :
    checkName what name = .ok u ↔ IsName name := by
  unfold checkName IsName
  by_cases hempty : name = ""
  · simp [hempty]
  · by_cases hshort : name.utf8ByteSize < maxName
    · have hlong : ¬ maxName ≤ name.utf8ByteSize := Nat.not_le.2 hshort
      cases hnul : hasNul name <;> simp [hempty, hshort, hlong]
    · have hlong : maxName ≤ name.utf8ByteSize := Nat.not_lt.1 hshort
      simp [hshort, hlong]

/-- An addition succeeds when it can be stored. -/
theorem add_ok_iff :
    s.add name language forms = .ok t ↔
      (IsName name ∧ IsName language ∧ AreForms forms) ∧
        t = ⟨s.entries.insert name
          (((s.entries.find? name).getD []).insert language forms)⟩ := by
  simp only [add, bind_eq_ok, checkName_ok_iff, guard_eq_ok]
  unfold AreForms
  cases hfind : forms.find? hasNul with
  | some form =>
      have hform := List.mem_of_find?_eq_some hfind
      have hnul := List.find?_some hfind
      simp only [throw_ne_ok, and_false, exists_false, false_iff]
      rintro ⟨⟨-, -, -, -, hforms⟩, -⟩
      rw [hforms form hform] at hnul
      cases hnul
  | none =>
      have hforms : ∀ form ∈ forms, hasNul form = false := by
        simpa using hfind
      simp only [pure_ok_iff]
      constructor
      · rintro ⟨_, hname, _, hlanguage, hcount, rfl⟩
        simp only [Bool.or_eq_true, List.isEmpty_iff, decide_eq_true_eq,
          not_or] at hcount
        exact ⟨⟨hname, hlanguage, hcount.1, by omega, hforms⟩, rfl⟩
      · rintro ⟨⟨hname, hlanguage, hsome, hfew, -⟩, rfl⟩
        refine ⟨⟨⟩, hname, ⟨⟩, hlanguage, ?_, rfl⟩
        simp only [Bool.or_eq_true, List.isEmpty_iff, decide_eq_true_eq,
          not_or]
        exact ⟨hsome, by omega⟩

/-- An addition is stored or refused, and then nothing changes. -/
theorem after_cases (s : Strings) (a : Addition) :
    (a.IsStorable ∧ s.add a.name a.language a.forms = .ok (s.after a)) ∨
      (¬ a.IsStorable ∧ s.after a = s) := by
  unfold after
  cases hadd : s.add a.name a.language a.forms with
  | ok t => exact .inl ⟨(add_ok_iff.1 hadd).1, rfl⟩
  | error e =>
      refine .inr ⟨fun hstorable => ?_, rfl⟩
      rw [add_ok_iff.2 ⟨hstorable, rfl⟩] at hadd
      cases hadd

-- =============================================================== forms

/-- What is added is found, and all else as before. -/
theorem forms?_add (h : s.add name language forms = .ok t)
    (name' language' : String) :
    t.forms? name' language' =
      if name = name' ∧ language = language' then some forms
      else s.forms? name' language' := by
  obtain ⟨-, rfl⟩ := add_ok_iff.1 h
  unfold forms?
  by_cases hname : name = name'
  · subst hname
    rw [Dictionary.find?_insert_self, Option.bind_some]
    by_cases hlanguage : language = language'
    · subst hlanguage
      rw [Dictionary.find?_insert_self, if_pos ⟨rfl, rfl⟩]
    · rw [Dictionary.find?_insert_of_ne fun h => hlanguage h.symm,
        if_neg fun h => hlanguage h.2]
      -- a string that is new has no other languages
      cases s.entries.find? name <;> rfl
  · rw [Dictionary.find?_insert_of_ne fun h => hname h.symm,
      if_neg fun h => hname h.1]

/-- Strings hold what the last additions say. -/
theorem forms?_ofAdditions (l : List Addition) (name language : String) :
    (ofAdditions l).forms? name language = finalForms l name language := by
  induction l using List.reverseRecOn with
  | nil => rfl
  | append_singleton l a ih =>
      have hstep : ofAdditions (l ++ [a]) = (ofAdditions l).after a := by
        rw [ofAdditions, List.foldl_append]
        rfl
      unfold finalForms at ih ⊢
      rw [hstep, List.reverse_append, List.reverse_singleton,
        List.singleton_append, List.find?_cons]
      rcases after_cases (ofAdditions l) a with ⟨hstorable, hadd⟩ | ⟨hno, hsame⟩
      · rw [forms?_add hadd]
        by_cases hfor : a.name = name ∧ a.language = language
        · rw [if_pos hfor, decide_eq_true ⟨hstorable, hfor⟩]
          rfl
        · rw [if_neg hfor, decide_eq_false fun h => hfor h.2, ih]
      · rw [hsame, decide_eq_false fun h => hno h.1, ih]

-- ============================================================== stored

/-- Strings that fit into a payload, in the order of their names. -/
structure IsStored (s : Strings) : Prop where
  ordered : s.entries.IsOrdered
  stored : ∀ entry ∈ s.entries, IsName entry.1 ∧ entry.2.IsStored

theorem isStored_empty : IsStored {} where
  ordered := Dictionary.isOrdered_nil
  stored := by simp

/-- Plural forms can be put beside those of other languages. -/
theorem isStored_insert {d : Localizations}
    (h : d.IsOrdered)
    (hd : ∀ entry ∈ d, IsName entry.1 ∧ AreForms entry.2)
    (hlanguage : IsName language) (hforms : AreForms forms) :
    Localizations.IsStored (d.insert language forms) where
  ordered := h.insert language forms
  some := by
    intro hnil
    have hfound := Dictionary.find?_insert_self language forms d
    rw [hnil] at hfound
    cases hfound
  stored := by
    intro entry hentry
    rcases Dictionary.mem_insert hentry with rfl | hentry
    · exact ⟨hlanguage, hforms⟩
    · exact hd entry hentry

theorem IsStored.add (h : s.IsStored)
    (hadd : s.add name language forms = .ok t) : t.IsStored := by
  obtain ⟨⟨hname, hlanguage, hforms⟩, rfl⟩ := add_ok_iff.1 hadd
  refine ⟨h.ordered.insert name _, fun entry hentry => ?_⟩
  rcases Dictionary.mem_insert hentry with rfl | hentry
  · refine ⟨hname, ?_⟩
    cases hfound : s.entries.find? name with
    | none =>
        exact isStored_insert Dictionary.isOrdered_nil (by simp)
          hlanguage hforms
    | some d =>
        obtain ⟨-, hd⟩ := h.stored _ (Dictionary.mem_of_find? hfound)
        exact isStored_insert hd.ordered hd.stored hlanguage hforms
  · exact h.stored entry hentry

theorem isStored_ofAdditions (l : List Addition) :
    (ofAdditions l).IsStored := by
  refine List.foldlRecOn l after isStored_empty fun s hs a _ => ?_
  rcases after_cases s a with ⟨-, hadd⟩ | ⟨-, hsame⟩
  · exact hs.add hadd
  · rw [hsame]
    exact hs

/-- Of two strings with the same forms, one has a name only if the other
has it. -/
theorem IsStored.isSome_find? (h : s.IsStored)
    (hforms : ∀ name language, s.forms? name language =
      t.forms? name language)
    (hname : (s.entries.find? name).isSome) :
    (t.entries.find? name).isSome := by
  obtain ⟨d, hd⟩ := Option.isSome_iff_exists.1 hname
  obtain ⟨-, hstored⟩ := h.stored _ (Dictionary.mem_of_find? hd)
  -- the string has a language, so it has forms to be found
  obtain ⟨⟨language, forms⟩, hentry⟩ :=
    List.exists_mem_of_ne_nil d hstored.some
  have hfound : s.forms? name language = some forms := by
    rw [forms?, hd, Option.bind_some]
    exact hstored.ordered.find?_of_mem hentry
  rw [hforms] at hfound
  unfold forms? at hfound
  cases ht : t.entries.find? name with
  | none =>
      rw [ht] at hfound
      cases hfound
  | some d' => rfl

/-- Stored strings with the same forms are the same. -/
theorem IsStored.ext (h : s.IsStored) (h' : t.IsStored)
    (hforms : ∀ name language, s.forms? name language =
      t.forms? name language) : s = t := by
  have hentries : s.entries = t.entries := by
    refine h.ordered.ext h'.ordered fun name => ?_
    have hsome : (s.entries.find? name).isSome =
        (t.entries.find? name).isSome :=
      Bool.eq_iff_iff.2 ⟨h.isSome_find? hforms,
        h'.isSome_find? fun name language => (hforms name language).symm⟩
    cases hs : s.entries.find? name with
    | none =>
        rw [hs] at hsome
        exact (Option.isNone_iff_eq_none.1 (by simpa using hsome.symm)).symm
    | some d =>
        rw [hs] at hsome
        obtain ⟨d', ht⟩ := Option.isSome_iff_exists.1 hsome.symm
        obtain ⟨-, hd⟩ := h.stored _ (Dictionary.mem_of_find? hs)
        obtain ⟨-, hd'⟩ := h'.stored _ (Dictionary.mem_of_find? ht)
        have hsame : d = d' := by
          refine hd.ordered.ext hd'.ordered fun language => ?_
          have hforms := hforms name language
          rwa [forms?, forms?, hs, ht] at hforms
        rw [ht, hsame]
  obtain ⟨entries⟩ := s
  obtain ⟨entries'⟩ := t
  exact congrArg Strings.mk hentries

end Strings

end GamePack
