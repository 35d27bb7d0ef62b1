import GamePack.Proofs.Outcome
import GamePack.Yaml.Choice
import GamePack.Yaml.Record
import Mathlib.Data.List.Nodup

/-!
What is known of lists, numbers and records that were read. A record of a
node has known keys only, each once, so a field is what stands under its
key. Where several shapes are accepted a record may also be a row of
fields, and a shape leaves out what is none of its fields; what is left
out makes no difference to it.
-/
namespace GamePack.Yaml

/-- In a row without repeated names, an entry is what its name finds. -/
theorem lookup_of_mem {κ α : Type} [BEq κ] [LawfulBEq κ]
    {l : List (κ × α)} {name : κ} {a : α}
    (hdistinct : (l.map Prod.fst).Nodup) (h : (name, a) ∈ l) :
    l.lookup name = some a := by
  induction l with
  | nil => exact absurd h List.not_mem_nil
  | cons entry rest ih =>
      rw [List.map_cons, List.nodup_cons] at hdistinct
      rcases List.mem_cons.1 h with rfl | h
      · exact List.lookup_cons_self
      · have hne : name ≠ entry.1 := fun e =>
          hdistinct.1 (List.mem_map.2 ⟨_, h, e⟩)
        rw [List.lookup_cons, beq_false_of_ne hne]
        exact ih hdistinct.2 h

-- =============================================================== nodes

namespace Node

/-- The entries of a mapping. -/
def pairs : Node → List (Node × Node)
  | .mapping _ entries => entries
  | _ => []

/-- The items of a list. -/
def rows : Node → List Node
  | .sequence _ items => items
  | _ => []

/-- What stands under a key. -/
def under (name : String) (n : Node) : List Node :=
  (n.pairs.filter fun entry =>
    entry.1.text.toOption = some name).map Prod.snd

/-- Whether a key is one of some names. -/
def knows (known : List String) (key : Node) : Bool :=
  key.text.toOption.any known.contains

variable {α : Type} {known : List String} {n value : Node} {r : Record}
  {name : String} {read : Node → Except Fault α} {items : List α}

theorem le_of_natural {limit value : Nat}
    (h : n.natural limit = .ok value) : value ≤ limit := by
  unfold natural at h
  split at h
  · split at h
    next hle =>
      obtain rfl := Except.ok.inj h
      exact hle
    next => cases h
  · cases h

theorem entries_ok {fields : List (String × Node)}
    (h : n.entries = .ok fields) :
    List.Forall₂ (fun entry field =>
      entry.1.text = .ok field.1 ∧ field.2 = entry.2) n.pairs fields := by
  cases n with
  | mapping tag entries =>
      refine (mapM_eq_ok.1 h).imp fun entry field hfield => ?_
      simp only [bind_eq_ok, pure_ok_iff] at hfield
      obtain ⟨name, hname, rfl⟩ := hfield
      exact ⟨hname, rfl⟩
  | scalar tag style text =>
      simp only [entries] at h
      split at h
      · obtain rfl := Except.ok.inj h
        exact .nil
      · cases h
  | sequence tag items => cases h

/-- The fields of a record are the entries; their names are known and
none is given twice. -/
theorem record_ok (h : n.record known = .ok r) :
    n.entries = .ok r ∧ (∀ field ∈ r, field.1 ∈ known) ∧
      (r.map Prod.fst).Nodup := by
  obtain ⟨fields, hfields, hfold⟩ := bind_eq_ok.1 h
  have htaken := foldlM_induction_taken
    (p := fun taken earlier => earlier = taken ∧
      (∀ field ∈ earlier, field.1 ∈ known) ∧
        (earlier.map Prod.fst).Nodup)
    hfold ⟨rfl, by simp, by simp⟩ fun taken field earlier later hearlier
      hstep => ?_
  · obtain ⟨rfl, hrest⟩ := htaken
    exact ⟨hfields, hrest⟩
  obtain ⟨rfl, hknown, hdistinct⟩ := hearlier
  obtain ⟨key, value⟩ := field
  dsimp only at hstep
  split at hstep
  · cases hstep
  next hkey =>
    split at hstep
    · cases hstep
    next hnew =>
      obtain rfl := Except.ok.inj hstep
      have hkey : key ∈ known := by simpa using hkey
      have hnew : key ∉ earlier.map Prod.fst := by simpa using hnew
      refine ⟨rfl, fun field hfield => ?_, ?_⟩
      · rcases List.mem_append.1 hfield with hold | hlast
        · exact hknown field hold
        · obtain rfl := List.mem_singleton.1 hlast
          exact hkey
      · rw [List.map_append, List.nodup_append]
        refine ⟨hdistinct, List.nodup_singleton _,
          fun name hname other hother hsame => ?_⟩
        rw [hsame, List.mem_singleton.1 hother] at hname
        exact hnew hname

/-- The keys of a record are known. -/
theorem knows_of_record (h : n.record known = .ok r) :
    ∀ entry ∈ n.pairs, knows known entry.1 = true := by
  obtain ⟨hentries, hknown, -⟩ := record_ok h
  intro entry hentry
  obtain ⟨field, hfield, hkey, -⟩ :=
    exists_mem_of_forall₂ (entries_ok hentries) hentry
  rw [knows, hkey]
  simpa [Except.toOption] using hknown field hfield

/-- What stands under a key of a record is its field. -/
theorem lookup_of_record (h : n.record known = .ok r)
    (hvalue : value ∈ n.under name) : r.lookup name = some value := by
  obtain ⟨hentries, -, hdistinct⟩ := record_ok h
  obtain ⟨entry, hentry, rfl⟩ := List.mem_map.1 hvalue
  obtain ⟨hentry, hname⟩ := List.mem_filter.1 hentry
  obtain ⟨⟨key, found⟩, hfield, hkey, rfl⟩ :=
    exists_mem_of_forall₂ (entries_ok hentries) hentry
  have hsame : key = name := by simpa [hkey, Except.toOption] using hname
  exact lookup_of_mem hdistinct (hsame ▸ hfield)

/-- What is read of a list was read of nodes. -/
theorem exists_of_mem_items {a : α} (h : n.items read = .ok items)
    (ha : a ∈ items) : ∃ n, read n = .ok a := by
  unfold Node.items at h
  split at h
  · obtain ⟨item, -, hitem⟩ :=
      exists_mem_of_forall₂ (mapM_eq_ok.1 h).flip ha
    exact ⟨item, hitem⟩
  · split at h
    · obtain rfl := Except.ok.inj h
      exact absurd ha List.not_mem_nil
    · cases h

/-- Every item of a list is read as one of what is read of it. -/
theorem exists_mem_items (h : n.items read = .ok items) {item : Node}
    (hitem : item ∈ n.rows) : ∃ a ∈ items, read item = .ok a := by
  cases n with
  | sequence tag nodes =>
      exact exists_mem_of_forall₂ (mapM_eq_ok.1 h) hitem
  | scalar tag style text => cases hitem
  | mapping tag entries => cases hitem

theorem items_ok (h : n.items read = .ok items) {item : Node}
    (hitem : item ∈ n.rows) : ∃ a, read item = .ok a := by
  obtain ⟨a, -, ha⟩ := exists_mem_items h hitem
  exact ⟨a, ha⟩

end Node

namespace Record

variable {α : Type} {r : Record} {name : String}
  {read : Node → Except Fault α} {a : α} {n : Node}

theorem exists_of_need (h : r.need name read = .ok a) :
    ∃ n, read n = .ok a := by
  unfold need at h
  split at h
  next n _ => exact ⟨n, h⟩
  next => cases h

theorem of_withDefault {value : α}
    (h : r.withDefault name read value = .ok a) :
    a = value ∨ ∃ n, read n = .ok a := by
  unfold withDefault at h
  split at h
  next n _ => exact .inr ⟨n, h⟩
  next => exact .inl (Except.ok.inj h).symm

/-- A field that is there and must be is read. -/
theorem of_need (h : r.need name read = .ok a)
    (hn : r.lookup name = some n) : read n = .ok a := by
  rwa [need, hn] at h

/-- A field that is there is read, although it may be left out. -/
theorem of_withDefault_some {value : α}
    (h : r.withDefault name read value = .ok a)
    (hn : r.lookup name = some n) : read n = .ok a := by
  rwa [withDefault, hn] at h

end Record

-- ============================================================== values

namespace Choice

/-- The entries of a mapping. -/
def pairs : Value → List (Value × Value)
  | .mapping entries => entries
  | _ => []

/-- The items of a list. -/
def rows : Value → List Value
  | .sequence items => items
  | _ => []

/-- What is given for a field, under its key or in its place. -/
def given (names : List String) (name : String) : Value → List Value
  | .mapping entries =>
    (entries.filter fun entry =>
      (fieldOf names entry.1).toOption = some (some name)).map Prod.snd
  | .sequence items =>
    ((names.zip items).filter (·.1 = name)).map Prod.snd
  | _ => []

/-- Whether a key means a field. -/
def knows (names : List String) (key : Value) : Bool :=
  (fieldOf names key).toOption.any Option.isSome

variable {α : Type} {names : List String} {strict : Bool}
  {entries : List (Value × Value)} {fields : Fields} {name : String}
  {v value : Value}

/-- The fields among entries are what stands under the keys that mean
them. Where others are refused, every key means a field. -/
theorem fieldsOf_ok (h : fieldsOf names strict entries = .ok fields) :
    (strict = true → ∀ entry ∈ entries, knows names entry.1 = true) ∧
      ∀ name value, fields.lookup name = some value ↔
        ∃ entry ∈ entries, fieldOf names entry.1 = .ok (some name) ∧
          entry.2 = value := by
  induction entries generalizing fields with
  | nil =>
      obtain rfl := Except.ok.inj h
      simp
  | cons entry rest ih =>
      obtain ⟨key, given⟩ := entry
      simp only [fieldsOf, bind_eq_ok] at h
      obtain ⟨others, hothers, field, hfield, h⟩ := h
      obtain ⟨hknown, hlookup⟩ := ih hothers
      cases field with
      | none =>
          -- the key means nothing, so it must not be refused
          have hloose : strict = false := by
            cases strict with
            | false => rfl
            | true => cases h
          subst hloose
          obtain rfl := Except.ok.inj h
          refine ⟨fun hstrict => (by cases hstrict), fun name value => ?_⟩
          rw [hlookup]
          simp [hfield]
      | some found =>
          simp only [guard_eq_ok, pure_ok_iff] at h
          obtain ⟨hnew, rfl⟩ := h
          refine ⟨fun hstrict => ?_, fun name value => ?_⟩
          · rintro entry (_ | ⟨_, hentry⟩)
            · rw [knows, hfield]
              rfl
            · exact hknown hstrict entry hentry
          · have hnone : others.lookup found = none := by
              rw [List.lookup_eq_none_iff]
              intro other hother
              rw [bne_iff_ne]
              rintro rfl
              exact hnew (List.any_eq_true.2 ⟨other, hother, by simp⟩)
            by_cases hname : name = found
            · subst hname
              rw [List.lookup_cons_self]
              constructor
              · intro h
                exact ⟨_, List.mem_cons_self, hfield, Option.some.inj h⟩
              · rintro ⟨entry, hentry, hmeans, rfl⟩
                rcases List.mem_cons.1 hentry with rfl | hentry
                · rfl
                · have hagain := (hlookup name entry.2).2
                    ⟨entry, hentry, hmeans, rfl⟩
                  rw [hnone] at hagain
                  cases hagain
            · rw [List.lookup_cons, beq_false_of_ne hname, hlookup]
              simp [hfield, Ne.symm hname]

/-- The keys of a record mean fields. -/
theorem knows_of_record (h : record names v = .ok fields) :
    ∀ entry ∈ pairs v, knows names entry.1 = true := by
  cases v with
  | mapping entries => exact (fieldsOf_ok h).1 rfl
  | _ => exact fun entry hentry => absurd hentry List.not_mem_nil

theorem mem_given_mapping :
    value ∈ given names name (.mapping entries) ↔
      ∃ entry ∈ entries, fieldOf names entry.1 = .ok (some name) ∧
        entry.2 = value := by
  have hmeans : ∀ key, (fieldOf names key).toOption = some (some name) ↔
      fieldOf names key = .ok (some name) := by
    intro key
    cases fieldOf names key <;> simp [Except.toOption]
  simp only [given, List.mem_map, List.mem_filter, decide_eq_true_eq,
    hmeans, and_assoc]

/-- What is given for a field of a shape is its field. -/
theorem lookup_of_shape (h : shape names v = .ok fields)
    (hvalue : value ∈ given names name v) :
    fields.lookup name = some value := by
  cases v with
  | mapping entries =>
      exact ((fieldsOf_ok h).2 name value).2 (mem_given_mapping.1 hvalue)
  | _ => cases h

/-- What is given for a field of a record is its field. -/
theorem lookup_of_record (hnames : names.Nodup)
    (h : record names v = .ok fields) (hvalue : value ∈ given names name v) :
    fields.lookup name = some value := by
  cases v with
  | mapping entries =>
      exact ((fieldsOf_ok h).2 name value).2 (mem_given_mapping.1 hvalue)
  | sequence items =>
      simp only [record] at h
      split at h
      · cases h
      · obtain rfl := Except.ok.inj h
        obtain ⟨field, hfield, rfl⟩ := List.mem_map.1 hvalue
        obtain ⟨hzip, hname⟩ := List.mem_filter.1 hfield
        obtain rfl : field.1 = name := by simpa using hname
        refine lookup_of_mem ?_ hzip
        rw [List.zip_eq_zip_take_min, List.map_fst_zip (by simp)]
        exact hnames.sublist (List.take_sublist _ _)
  | _ => cases hvalue

/-- A field of a shape stands under some key. -/
theorem exists_of_shape (h : shape names v = .ok fields)
    (hvalue : fields.lookup name = some value) :
    ∃ entry ∈ pairs v, fieldOf names entry.1 = .ok (some name) := by
  cases v with
  | mapping entries =>
      obtain ⟨entry, hentry, hmeans, -⟩ :=
        ((fieldsOf_ok h).2 name value).1 hvalue
      exact ⟨entry, hentry, hmeans⟩
  | _ => cases h

/-- A key that means no field makes no difference to a shape. -/
theorem shape_append_cons {key : String} (hkey : key ∉ names)
    (before after : List (Value × Value)) (value : Value) :
    shape names (.mapping (before ++ (.string key, value) :: after)) =
      shape names (.mapping (before ++ after)) := by
  have hmeans : fieldOf names (.string key) = .ok none := by
    simpa [fieldOf] using fun name hname (hsame : name = key) =>
      hkey (hsame ▸ hname)
  show fieldsOf _ _ _ = fieldsOf _ _ _
  induction before with
  | nil =>
      rw [List.nil_append, List.nil_append, fieldsOf, hmeans]
      cases fieldsOf names false after <;> rfl
  | cons entry before ih =>
      rw [List.cons_append, List.cons_append, fieldsOf, fieldsOf, ih]

/-- Every item of a list is read. -/
theorem items_ok {read : Value → Except Fault α} {l : List α}
    (h : items read v = .ok l) {item : Value} (hitem : item ∈ rows v) :
    ∃ a, read item = .ok a := by
  cases v with
  | sequence values =>
      obtain ⟨a, -, ha⟩ := exists_mem_of_forall₂ (mapM_eq_ok.1 h) hitem
      exact ⟨a, ha⟩
  | _ => cases hitem

theorem need_ok_iff {read : Value → Except Fault α} {a : α} :
    need fields name read = .ok a ↔
      ∃ v, fields.lookup name = some v ∧ read v = .ok a := by
  unfold need
  cases fields.lookup name <;> simp

/-- A field that is there and must be is read. -/
theorem of_need {read : Value → Except Fault α} {a : α}
    (h : need fields name read = .ok a)
    (hv : fields.lookup name = some v) : read v = .ok a := by
  rwa [need, hv] at h

end Choice

end GamePack.Yaml
