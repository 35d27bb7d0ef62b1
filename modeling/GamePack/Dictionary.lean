import GamePack.Bytes

/-!
Dictionaries: values by name, kept in the order of the names. Names are
compared character by character, which is also the order of their UTF-8
bytes. Because the order is kept, two dictionaries with the same entries
are the same list, so equality of what holds them can be decided.
-/
namespace GamePack

/-- Entries by name, in ascending order of the names. -/
abbrev Dictionary (α : Type) := List (String × α)

namespace Dictionary

variable {α : Type}

/-- The value under a name. -/
def find? (name : String) : Dictionary α → Option α
  | [] => none
  | (key, value) :: rest =>
    if key = name then some value else find? name rest

/-- Whether a name has a value. -/
def contains (name : String) (d : Dictionary α) : Bool :=
  (d.find? name).isSome

/-- Put a value under a name, in place of an earlier one. -/
def insert (name : String) (value : α) : Dictionary α → Dictionary α
  | [] => [(name, value)]
  | (key, old) :: rest =>
    if name = key then (name, value) :: rest
    else if name < key then (name, value) :: (key, old) :: rest
    else (key, old) :: insert name value rest

/-- The names, ascending. -/
def names (d : Dictionary α) : List String := d.map Prod.fst

/-- A dictionary of the given entries; the last of one name counts. -/
def ofList (entries : List (String × α)) : Dictionary α :=
  entries.foldl (fun d entry => insert entry.1 entry.2 d) []

@[simp] theorem find?_insert_self (name : String) (value : α)
    (d : Dictionary α) : find? name (insert name value d) = some value := by
  induction d with
  | nil => simp [insert, find?]
  | cons entry rest ih =>
    obtain ⟨key, old⟩ := entry
    by_cases h : name = key
    · simp [insert, find?, h]
    · have h' : ¬ key = name := fun e => h e.symm
      by_cases hlt : name < key
      · simp [insert, find?, h, hlt]
      · simp [insert, find?, h, h', hlt, ih]

/-- Putting a value under one name leaves the others alone. -/
theorem find?_insert_of_ne {name other : String} (hne : other ≠ name)
    (value : α) (d : Dictionary α) :
    find? other (insert name value d) = find? other d := by
  have hne' : ¬ name = other := fun e => hne e.symm
  induction d with
  | nil => simp [insert, find?, hne']
  | cons entry rest ih =>
    obtain ⟨key, old⟩ := entry
    by_cases h : name = key
    · subst h
      simp [insert, find?, hne']
    · by_cases hlt : name < key
      · simp [insert, find?, h, hlt, hne']
      · simp [insert, find?, h, hlt, ih]

end Dictionary

end GamePack
