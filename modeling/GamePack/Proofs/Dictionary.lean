import GamePack.Dictionary
import Mathlib.Data.List.Induction
import Mathlib.Data.String.Basic

/-!
Dictionaries and their normal form. What an assignment leaves was
assigned or was there before. `IsOrdered` says that the names ascend,
which assignments keep from the empty dictionary on. In an ordered
dictionary every entry is found under its name, and two ordered
dictionaries that give every name the same value are the same list.
-/
namespace GamePack.Dictionary

variable {α : Type} {d d' : Dictionary α} {name : String} {value : α}
  {entry : String × α}

-- ============================================================ entries

/-- What a dictionary holds after an assignment was assigned or was
there before. -/
theorem mem_insert (h : entry ∈ insert name value d) :
    entry = (name, value) ∨ entry ∈ d := by
  induction d with
  | nil => exact .inl (List.mem_singleton.1 h)
  | cons first rest ih =>
      obtain ⟨key, old⟩ := first
      unfold insert at h
      split at h
      · rcases List.mem_cons.1 h with rfl | h
        · exact .inl rfl
        · exact .inr (List.mem_cons_of_mem _ h)
      · split at h
        · rcases List.mem_cons.1 h with rfl | h
          · exact .inl rfl
          · exact .inr h
        · rcases List.mem_cons.1 h with rfl | h
          · exact .inr List.mem_cons_self
          · exact (ih h).imp_right (List.mem_cons_of_mem _)

theorem mem_names_insert {other : String} :
    other ∈ (insert name value d).names ↔
      other = name ∨ other ∈ d.names := by
  unfold names
  induction d with
  | nil => simp [insert]
  | cons first rest ih =>
      obtain ⟨key, old⟩ := first
      unfold insert
      split
      next hname => simp [hname]
      next =>
        split
        · simp
        · rw [List.map_cons, List.mem_cons, ih, List.map_cons,
            List.mem_cons]
          exact or_left_comm

theorem mem_ofList {entries : List (String × α)}
    (h : entry ∈ ofList entries) : entry ∈ entries := by
  have hfold : ∀ (l : List (String × α)) (d : Dictionary α),
      entry ∈ l.foldl (fun d e => insert e.1 e.2 d) d →
        entry ∈ d ∨ entry ∈ l := by
    intro l
    induction l with
    | nil => exact fun d h => .inl h
    | cons e l ih =>
        intro d h
        rcases ih _ h with h | h
        · rcases mem_insert h with rfl | h
          · exact .inr List.mem_cons_self
          · exact .inl h
        · exact .inr (List.mem_cons_of_mem _ h)
  exact (hfold entries [] h).resolve_left List.not_mem_nil

theorem mem_of_find? (h : find? name d = some value) :
    (name, value) ∈ d := by
  induction d with
  | nil => cases h
  | cons first rest ih =>
      obtain ⟨key, old⟩ := first
      unfold find? at h
      split at h
      next hkey =>
        obtain rfl := Option.some.inj h
        rw [hkey]
        exact List.mem_cons_self
      next => exact List.mem_cons_of_mem _ (ih h)

-- ======================================================== normal form

/-- The names ascend, so none stands there twice. -/
def IsOrdered (d : Dictionary α) : Prop :=
  d.Pairwise fun a b => a.1 < b.1

theorem isOrdered_nil : IsOrdered ([] : Dictionary α) :=
  List.Pairwise.nil

theorem isOrdered_cons :
    IsOrdered (entry :: d) ↔
      (∀ later ∈ d, entry.1 < later.1) ∧ IsOrdered d :=
  List.pairwise_cons

/-- A dictionary stays ordered when an entry is put into it. -/
theorem IsOrdered.insert (h : IsOrdered d) (name : String) (value : α) :
    IsOrdered (d.insert name value) := by
  induction d with
  | nil => exact List.pairwise_singleton _ _
  | cons first rest ih =>
      obtain ⟨key, old⟩ := first
      obtain ⟨hfirst, hrest⟩ := isOrdered_cons.1 h
      unfold Dictionary.insert
      split
      next hname =>
        subst hname
        exact isOrdered_cons.2 ⟨hfirst, hrest⟩
      next hne =>
        split
        next hlt =>
          refine isOrdered_cons.2 ⟨fun later hlater => ?_, h⟩
          rcases List.mem_cons.1 hlater with rfl | hlater
          · exact hlt
          · exact hlt.trans (hfirst later hlater)
        next hge =>
          have hgt : key < name :=
            lt_of_le_of_ne (not_lt.1 hge) fun e => hne e.symm
          refine isOrdered_cons.2 ⟨fun later hlater => ?_, ih hrest⟩
          rcases mem_insert hlater with rfl | hlater
          · exact hgt
          · exact hfirst later hlater

theorem isOrdered_ofList (entries : List (String × α)) :
    IsOrdered (ofList entries) := by
  refine List.foldlRecOn entries _ isOrdered_nil ?_
  intro d hd entry _
  exact hd.insert entry.1 entry.2

/-- An ordered dictionary has no name twice. -/
theorem IsOrdered.nodup_names (h : IsOrdered d) : d.names.Nodup := by
  unfold names List.Nodup
  rw [List.pairwise_map]
  exact h.imp fun hlt => hlt.ne

/-- Of several entries of one name the last one is found. -/
theorem find?_ofList (entries : List (String × α)) (name : String) :
    find? name (ofList entries) = entries.reverse.lookup name := by
  unfold ofList
  induction entries using List.reverseRecOn with
  | nil => rfl
  | append_singleton entries entry ih =>
      obtain ⟨key, value⟩ := entry
      rw [List.foldl_append, List.foldl_cons, List.foldl_nil,
        List.reverse_append, List.reverse_singleton, List.singleton_append,
        List.lookup_cons]
      by_cases hname : name = key
      · subst hname
        rw [find?_insert_self, beq_self_eq_true]
      · rw [find?_insert_of_ne hname, ih, beq_false_of_ne hname]

/-- A name below all others is not there. -/
theorem find?_eq_none_of_lt (h : ∀ entry ∈ d, name < entry.1) :
    find? name d = none := by
  induction d with
  | nil => rfl
  | cons first rest ih =>
      obtain ⟨key, value⟩ := first
      have hlt : name < key := h (key, value) List.mem_cons_self
      unfold find?
      rw [if_neg hlt.ne']
      exact ih fun later hlater => h later (List.mem_cons_of_mem _ hlater)

/-- No name below the first is there. -/
theorem IsOrdered.le_of_find? (h : IsOrdered (entry :: d))
    (hfound : find? name (entry :: d) = some value) : entry.1 ≤ name := by
  by_contra hlt
  rw [not_le] at hlt
  have hnone : find? name (entry :: d) = none := by
    apply find?_eq_none_of_lt
    intro later hlater
    rcases List.mem_cons.1 hlater with rfl | hlater
    · exact hlt
    · exact hlt.trans ((isOrdered_cons.1 h).1 later hlater)
  rw [hnone] at hfound
  cases hfound

/-- Every entry of an ordered dictionary is found under its name. -/
theorem IsOrdered.find?_of_mem (h : IsOrdered d)
    (hentry : (name, value) ∈ d) : find? name d = some value := by
  induction d with
  | nil => exact absurd hentry List.not_mem_nil
  | cons first rest ih =>
      obtain ⟨key, old⟩ := first
      obtain ⟨hfirst, hrest⟩ := isOrdered_cons.1 h
      unfold find?
      rcases List.mem_cons.1 hentry with heq | hentry
      · obtain ⟨rfl, rfl⟩ := Prod.mk.inj heq
        rw [if_pos rfl]
      · have hlt : key < name := hfirst _ hentry
        rw [if_neg hlt.ne]
        exact ih hrest hentry

/-- Two ordered dictionaries are the same when they give every name the
same value. -/
theorem IsOrdered.ext (h : IsOrdered d) (h' : IsOrdered d')
    (hfind : ∀ name, find? name d = find? name d') : d = d' := by
  induction d generalizing d' with
  | nil =>
      cases d' with
      | nil => rfl
      | cons first rest =>
          simpa [find?] using hfind first.1
  | cons first rest ih =>
      obtain ⟨key, value⟩ := first
      obtain ⟨hfirst, hrest⟩ := isOrdered_cons.1 h
      cases d' with
      | nil =>
          simpa [find?] using hfind key
      | cons first' rest' =>
          obtain ⟨key', value'⟩ := first'
          obtain ⟨hfirst', hrest'⟩ := isOrdered_cons.1 h'
          have hfound : find? key ((key', value') :: rest') =
              some value := by
            rw [← hfind]
            exact if_pos rfl
          have hfound' : find? key' ((key, value) :: rest) =
              some value' := by
            rw [hfind]
            exact if_pos rfl
          -- each first name is in the other list, and none is below it
          obtain rfl : key = key' :=
            le_antisymm (h.le_of_find? hfound') (h'.le_of_find? hfound)
          have hvalue : value' = value := by
            simpa [find?] using hfound
          have hrests : rest = rest' := by
            apply ih hrest hrest'
            intro name
            by_cases hname : key = name
            · subst hname
              rw [find?_eq_none_of_lt hfirst, find?_eq_none_of_lt hfirst']
            · simpa [find?, hname] using hfind name
          rw [hvalue, hrests]

/-- What a dictionary finds is what a row finds. -/
theorem find?_eq_lookup (d : Dictionary α) (name : String) :
    d.find? name = d.lookup name := by
  induction d with
  | nil => rfl
  | cons entry rest ih =>
      obtain ⟨key, value⟩ := entry
      rw [List.lookup_cons, find?]
      by_cases hname : key = name
      · rw [if_pos hname, hname, beq_self_eq_true]
      · rw [if_neg hname, ih, beq_false_of_ne (Ne.symm hname)]

end GamePack.Dictionary
