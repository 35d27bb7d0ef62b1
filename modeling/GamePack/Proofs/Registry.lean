import GamePack.Proofs.Dictionary
import GamePack.Proofs.Outcome
import GamePack.Registry

/-!
Registering types. A name is registered when it is still free; from then
on it means the type that was given, and no other name changes. So what
has been looked up stays, two registrations can be made in either order,
and a type that is no enumeration adds nothing that symbols could come
from.
-/
namespace GamePack

-- ======================================================== free names

namespace Dictionary

variable {α : Type} {d : Dictionary α} {name other : String} {a b : α}

/-- Values under two names can be put in either order. -/
theorem IsOrdered.insert_comm (h : IsOrdered d) (hne : name ≠ other) :
    (d.insert name a).insert other b = (d.insert other b).insert name a := by
  apply IsOrdered.ext ((h.insert _ _).insert _ _) ((h.insert _ _).insert _ _)
  intro key
  by_cases hother : key = other
  · rw [hother, find?_insert_self, find?_insert_of_ne hne.symm,
      find?_insert_self]
  · rw [find?_insert_of_ne hother]
    by_cases hname : key = name
    · rw [hname, find?_insert_self, find?_insert_self]
    · rw [find?_insert_of_ne hname, find?_insert_of_ne hname,
        find?_insert_of_ne hother]

theorem contains_eq_false_iff :
    d.contains name = false ↔ d.find? name = none := by
  rw [contains, Option.isSome_eq_false_iff, Option.isNone_iff_eq_none]

/-- Two names that can be taken one after the other are different, and
free at first. -/
theorem free_of_insert (h : (d.insert name a).contains other = false) :
    name ≠ other ∧ d.contains other = false := by
  rw [contains_eq_false_iff] at h
  have hne : other ≠ name := by
    intro hsame
    rw [hsame, find?_insert_self] at h
    cases h
  rw [find?_insert_of_ne hne] at h
  exact ⟨hne.symm, contains_eq_false_iff.2 h⟩

end Dictionary

-- ========================================================== registries

namespace Registry

variable {r r' r'' : Registry} {name other : String} {t u : DataType}
  {e : Enumeration}

/-- The names of a registry ascend. -/
def IsOrdered (r : Registry) : Prop := r.types.IsOrdered

theorem isOrdered_builtin : builtin.IsOrdered :=
  Dictionary.isOrdered_ofList builtins

theorem add_ok_iff :
    r.add name t = .ok r' ↔
      r.types.contains name = false ∧ r' = ⟨r.types.insert name t⟩ := by
  unfold add
  by_cases h : r.types.contains name = true
  · simp [h]
  · simp [h, eq_comm]

theorem get_ok_iff : r.get name = .ok t ↔ r.types.find? name = some t := by
  unfold get
  cases r.types.find? name with
  | none => simp
  | some found => simp

theorem getEnumeration_ok_iff :
    r.getEnumeration name = .ok e ↔ r.get name = .ok (.enumeration e) := by
  unfold getEnumeration
  cases r.get name with
  | error cause => simp
  | ok found => cases found <;> simp

theorem IsOrdered.add (h : r.IsOrdered) (hadd : r.add name t = .ok r') :
    r'.IsOrdered := by
  obtain ⟨-, rfl⟩ := add_ok_iff.1 hadd
  exact h.insert name t

/-- What is registered can be looked up. -/
theorem get_add (hadd : r.add name t = .ok r') : r'.get name = .ok t := by
  obtain ⟨-, rfl⟩ := add_ok_iff.1 hadd
  exact get_ok_iff.2 (Dictionary.find?_insert_self name t r.types)

theorem get_add_of_ne (hadd : r.add name t = .ok r') (hne : other ≠ name) :
    r'.get other = r.get other := by
  obtain ⟨-, rfl⟩ := add_ok_iff.1 hadd
  unfold get
  rw [Dictionary.find?_insert_of_ne hne]

/-- What could be looked up stays. -/
theorem get_of_add (hadd : r.add name t = .ok r')
    (hget : r.get other = .ok u) : r'.get other = .ok u := by
  rw [get_add_of_ne hadd, hget]
  intro hsame
  obtain ⟨hfree, -⟩ := add_ok_iff.1 hadd
  rw [Dictionary.contains_eq_false_iff, ← hsame] at hfree
  rw [get_ok_iff, hfree] at hget
  cases hget

/-- A type that is no enumeration gives no name to one. -/
theorem getEnumeration_add (hadd : r.add name t = .ok r')
    (ht : ∀ e, t ≠ .enumeration e) :
    r'.getEnumeration other = .ok e ↔ r.getEnumeration other = .ok e := by
  rw [getEnumeration_ok_iff, getEnumeration_ok_iff]
  by_cases hsame : other = name
  · subst hsame
    obtain ⟨hfree, -⟩ := add_ok_iff.1 hadd
    rw [Dictionary.contains_eq_false_iff] at hfree
    rw [get_add hadd, get_ok_iff, hfree]
    constructor
    · intro henum
      exact absurd (Except.ok.inj henum) (ht e)
    · intro henum
      cases henum
  · rw [get_add_of_ne hadd hsame]

/-- Two types can be registered in either order. -/
theorem IsOrdered.add_comm (h : r.IsOrdered) (hadd : r.add name t = .ok r')
    (hadd' : r'.add other u = .ok r'') :
    ∃ r₁, r.add other u = .ok r₁ ∧ r₁.add name t = .ok r'' := by
  obtain ⟨hfree, rfl⟩ := add_ok_iff.1 hadd
  obtain ⟨hfree', rfl⟩ := add_ok_iff.1 hadd'
  obtain ⟨hne, hother⟩ := Dictionary.free_of_insert hfree'
  refine ⟨_, add_ok_iff.2 ⟨hother, rfl⟩, add_ok_iff.2 ⟨?_, ?_⟩⟩
  · rw [Dictionary.contains_eq_false_iff] at hfree ⊢
    rw [Dictionary.find?_insert_of_ne hne, hfree]
  · rw [Dictionary.IsOrdered.insert_comm h hne]

end Registry

end GamePack
