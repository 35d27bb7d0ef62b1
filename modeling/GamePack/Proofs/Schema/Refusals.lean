import GamePack.Proofs.Registry
import GamePack.Proofs.Schema.Loading

/-!
Why loading may fail, one failure apart: a symbol that stands twice. An
enumeration that is made of values refuses a symbol that stands among
them a second time, and so does no other step of loading. A step that
`FindsNoSymbolTwice` may fail, but not for this; steps in a chain or a
row have it when each of them does, so it is proved along the functions
that load.
-/
namespace GamePack

-- ======================================================== enumerations

namespace Enumeration

variable {name : String} {base : Numeric} {values values' : Dictionary Int}
  {symbol : String} {value : Int} {entries : List (String × Int)}
  {e : Enumeration}

/-- A symbol is added when its number fits the base and the symbol is
new. -/
theorem addSymbol_ok_iff :
    addSymbol name base values symbol value = .ok values' ↔
      base.check value = .ok value ∧ values.contains symbol = false ∧
        values' = values.insert symbol value := by
  unfold addSymbol
  cases hcheck : base.check value with
  | error cause => simp
  | ok checked =>
      obtain ⟨rfl, -, -⟩ := Numeric.check_ok_iff.1 hcheck
      by_cases hknown : values.contains symbol = true
      · simp [hknown]
      · simp [hknown, eq_comm]

/-- What is made of values has each symbol once, and each stands for its
value. -/
theorem ofValues_ok (h : ofValues name base entries = .ok e) :
    e.name = name ∧ e.base = base ∧ (entries.map Prod.fst).Nodup ∧
      ∀ symbol, e.values.find? symbol = entries.lookup symbol := by
  simp only [ofValues, bind_eq_ok, pure_ok_iff] at h
  obtain ⟨values, hvalues, rfl⟩ := h
  refine ⟨rfl, rfl, ?_⟩
  refine foldlM_induction_taken
    (p := fun taken values : List (String × Int) =>
      (taken.map Prod.fst).Nodup ∧
        ∀ symbol, Dictionary.find? symbol values = taken.lookup symbol)
    hvalues ⟨List.nodup_nil, fun _ => rfl⟩ ?_
  intro taken entry values values' htaken hadd
  obtain ⟨hdistinct, hfind⟩ := htaken
  obtain ⟨symbol, value⟩ := entry
  obtain ⟨-, hnew, rfl⟩ := addSymbol_ok_iff.1 hadd
  rw [Dictionary.contains_eq_false_iff, hfind, List.lookup_eq_none_iff]
    at hnew
  constructor
  · rw [List.map_append, List.map_singleton, List.nodup_append]
    refine ⟨hdistinct, List.nodup_singleton _, ?_⟩
    intro old hold other hother hsame
    obtain ⟨entry, hentry, rfl⟩ := List.mem_map.1 hold
    have hne := hnew entry hentry
    rw [hsame, List.mem_singleton.1 hother] at hne
    simp at hne
  · intro other
    rw [List.lookup_append, List.lookup_cons, List.lookup_nil]
    by_cases hsame : other = symbol
    · subst hsame
      have hnone : taken.lookup other = none :=
        List.lookup_eq_none_iff.2 hnew
      rw [Dictionary.find?_insert_self, hnone, beq_self_eq_true,
        Option.none_or]
    · rw [Dictionary.find?_insert_of_ne hsame, hfind,
        beq_false_of_ne hsame, Option.or_none]

end Enumeration

-- =========================================== failures of another kind

/-- A step of loading that does not fail because a symbol stands
twice. -/
def FindsNoSymbolTwice {α : Type} (x : Except SchemaError α) : Prop :=
  ∀ name symbol, x ≠ .error (.invalidDefinition name (.symbolTwice symbol))

section

variable {α β : Type} {registry : Registry}

theorem findsNoSymbolTwice_ok (a : α) :
    FindsNoSymbolTwice (.ok a : Except SchemaError α) := by
  intro name symbol h
  cases h

/-- A chain finds no symbol twice when its steps do not. -/
theorem FindsNoSymbolTwice.bind {x : Except SchemaError α}
    {f : α → Except SchemaError β} (hx : FindsNoSymbolTwice x)
    (hf : ∀ a, x = .ok a → FindsNoSymbolTwice (f a)) :
    FindsNoSymbolTwice (x >>= f) := by
  intro name symbol h
  rcases bind_eq_error.1 h with h | ⟨a, ha, h⟩
  · exact hx name symbol h
  · exact hf a ha name symbol h

/-- A check in front that fails for another cause changes nothing of it.
-/
theorem FindsNoSymbolTwice.guard {c : Prop} [Decidable c] {e : SchemaError}
    {f : PUnit → Except SchemaError β}
    (he : ∀ name symbol, e ≠ .invalidDefinition name (.symbolTwice symbol))
    (hf : FindsNoSymbolTwice (f ⟨⟩)) :
    FindsNoSymbolTwice (if c then throw e >>= f else f ⟨⟩) := by
  intro name symbol h
  rcases guard_eq_error.1 h with ⟨-, h⟩ | ⟨-, h⟩
  · exact he name symbol h.symm
  · exact hf name symbol h

/-- A row of steps finds no symbol twice when none of them does. -/
theorem findsNoSymbolTwice_mapM {f : α → Except SchemaError β} {l : List α}
    (hf : ∀ a ∈ l, FindsNoSymbolTwice (f a)) :
    FindsNoSymbolTwice (l.mapM f) := by
  intro name symbol h
  obtain ⟨a, ha, h⟩ := mapM_eq_error h
  exact hf a ha name symbol h

/-- A fold finds no symbol twice when none of its steps does. -/
theorem findsNoSymbolTwice_foldlM {f : β → α → Except SchemaError β}
    {l : List α} {b : β}
    (hf : ∀ a ∈ l, ∀ b, FindsNoSymbolTwice (f b a)) :
    FindsNoSymbolTwice (l.foldlM f b) := by
  intro name symbol h
  obtain ⟨a, ha, b', h⟩ := foldlM_eq_error h
  exact hf a ha b' name symbol h

/-- A name that is no number type is refused as such. -/
theorem findsNoSymbolTwice_numericNamed (name owner : String) :
    FindsNoSymbolTwice (numericNamed name owner) := by
  intro other symbol h
  unfold numericNamed at h
  split at h
  · cases h
  · cases h

/-- No symbol stands twice among values with distinct names. -/
theorem Enumeration.findsNoSymbolTwice_ofValues {name : String}
    {base : Numeric} {entries : List (String × Int)}
    (hdistinct : (entries.map Prod.fst).Nodup) :
    FindsNoSymbolTwice (ofValues name base entries) := by
  -- the symbols that are still to come are not known yet
  have hfold : ∀ (l : List (String × Int)) (values : Dictionary Int),
      (l.map Prod.fst).Nodup →
      (∀ entry ∈ l, values.contains entry.1 = false) →
      FindsNoSymbolTwice (l.foldlM
        (fun values entry => addSymbol name base values entry.1 entry.2)
        values) := by
    intro l
    induction l with
    | nil => exact fun values _ _ => findsNoSymbolTwice_ok values
    | cons entry rest ih =>
        intro values hl hnew
        rw [List.map_cons, List.nodup_cons] at hl
        rw [List.foldlM_cons]
        refine FindsNoSymbolTwice.bind ?_ ?_
        · intro owner symbol h
          unfold addSymbol at h
          rw [hnew entry List.mem_cons_self] at h
          split at h
          · cases h
          · cases h
        · intro values' hadd
          obtain ⟨-, -, rfl⟩ := addSymbol_ok_iff.1 hadd
          refine ih _ hl.2 ?_
          intro later hlater
          have hne : later.1 ≠ entry.1 := by
            intro hsame
            exact hl.1 (List.mem_map.2 ⟨later, hlater, hsame⟩)
          rw [Dictionary.contains_eq_false_iff,
            Dictionary.find?_insert_of_ne hne,
            ← Dictionary.contains_eq_false_iff]
          exact hnew later (List.mem_cons_of_mem _ hlater)
  refine (hfold entries [] hdistinct ?_).bind ?_
  · intro entry _
    rfl
  · intro values _
    exact findsNoSymbolTwice_ok _

/-- A look-up of a type fails for its name only. -/
theorem findsNoSymbolTwice_get (name : String) :
    FindsNoSymbolTwice (registry.get name) := by
  intro owner symbol h
  unfold Registry.get at h
  split at h
  · cases h
  · cases h

/-- A look-up of an enumeration fails for its name or its kind only. -/
theorem findsNoSymbolTwice_getEnumeration (name : String) :
    FindsNoSymbolTwice (registry.getEnumeration name) := by
  intro owner symbol h
  unfold Registry.getEnumeration at h
  split at h
  next cause hget =>
    obtain rfl := Except.error.inj h
    exact findsNoSymbolTwice_get name owner symbol hget
  next => cases h
  next => cases h

/-- A type that is added is refused for its name only. -/
theorem findsNoSymbolTwice_add (name : String) (t : DataType) :
    FindsNoSymbolTwice (registry.add name t) := by
  intro owner symbol h
  unfold Registry.add at h
  split at h
  · cases h
  · cases h

/-- No flaw of a bit field is about a symbol. -/
theorem BitField.flaw?_ne_symbolTwice {storage : Numeric}
    {earlier : List BitField} {f : BitField} {symbol : String} :
    f.flaw? storage earlier ≠ some (.symbolTwice symbol) := by
  intro h
  unfold flaw? at h
  split at h
  · cases h
  · split at h
    · cases h
    · split at h
      · cases h
      · cases h

theorem BitSet.firstFlaw?_ne_symbolTwice {storage : Numeric}
    {earlier fields : List BitField} {symbol : String} :
    firstFlaw? storage earlier fields ≠ some (.symbolTwice symbol) := by
  induction fields generalizing earlier with
  | nil =>
      intro h
      cases h
  | cons f fields ih =>
      intro h
      unfold firstFlaw? at h
      split at h
      next flaw hflaw =>
        rw [h] at hflaw
        exact BitField.flaw?_ne_symbolTwice hflaw
      next => exact ih h

/-- Building a bitset finds no symbol twice: its enumerations are there
already. -/
theorem findsNoSymbolTwice_buildBitSet (name storage : String)
    (fields : List BitFieldSpec) :
    FindsNoSymbolTwice (buildBitSet registry name storage fields) := by
  refine (findsNoSymbolTwice_numericNamed storage name).bind ?_
  intro n _
  refine FindsNoSymbolTwice.bind ?_ ?_
  · apply findsNoSymbolTwice_mapM
    intro spec _
    refine (findsNoSymbolTwice_getEnumeration spec.source).bind ?_
    intro source _
    exact findsNoSymbolTwice_ok _
  · intro built _ owner symbol h
    unfold BitSet.ofFields at h
    split at h
    next flaw hflaw =>
      cases h
      exact BitSet.firstFlaw?_ne_symbolTwice hflaw
    next => cases h

/-- Building a structure looks at the names of its sub-fields only. -/
theorem findsNoSymbolTwice_buildStruct (name : String)
    (fields : List (String × DataType)) :
    FindsNoSymbolTwice (buildStruct name fields) := by
  intro owner symbol h
  unfold buildStruct at h
  split at h
  · cases h
  · cases h

/-- Type expressions name symbols by their enumeration only. -/
theorem findsNoSymbolTwice_expressions (registry : Registry)
    (owner : String) :
    (∀ e : TypeExpr, FindsNoSymbolTwice (e.resolve registry owner)) ∧
      ∀ fields,
        FindsNoSymbolTwice (TypeExpr.resolveFields registry owner fields) := by
  refine TypeExpr.resolve.mutual_induct
    (fun e => FindsNoSymbolTwice (e.resolve registry owner))
    (fun fields =>
      FindsNoSymbolTwice (TypeExpr.resolveFields registry owner fields))
    ?named ?list ?struct ?bits ?none ?field
  case named =>
      intro name
      exact findsNoSymbolTwice_get name
  case list =>
      intro element count ih
      rw [TypeExpr.resolve]
      refine (findsNoSymbolTwice_numericNamed _ _).bind ?_
      intro n _
      refine ih.bind ?_
      intro t _
      exact findsNoSymbolTwice_ok _
  case struct =>
      intro fields ih
      rw [TypeExpr.resolve]
      refine ih.bind ?_
      intro built _
      exact findsNoSymbolTwice_buildStruct owner built
  case bits =>
      intro storage fields
      rw [TypeExpr.resolve]
      refine (findsNoSymbolTwice_buildBitSet owner storage fields).bind ?_
      intro b _
      exact findsNoSymbolTwice_ok _
  case none => exact findsNoSymbolTwice_ok []
  case field =>
      intro name e rest ih ihrest
      rw [TypeExpr.resolveFields]
      refine ih.bind ?_
      intro t _
      refine ihrest.bind ?_
      intro later _
      exact findsNoSymbolTwice_ok _

/-- Building a kind of block finds no symbol twice: no enumeration is
made in it. -/
theorem BlockDefSpec.findsNoSymbolTwice_build (b : BlockDefSpec) :
    FindsNoSymbolTwice (b.build registry) := by
  unfold BlockDefSpec.build
  refine FindsNoSymbolTwice.guard ?_ ?_
  · intro owner symbol h
    cases h
  · refine FindsNoSymbolTwice.bind ?_ ?_
    · apply findsNoSymbolTwice_mapM
      intro f _
      refine ((findsNoSymbolTwice_expressions registry _).1 f.type).bind ?_
      intro t _
      exact findsNoSymbolTwice_ok _
    · intro fields _
      exact findsNoSymbolTwice_ok _

/-- Adding a kind of block is refused for its name only. -/
theorem Schema.findsNoSymbolTwice_addBlock (s : Schema) (b : BlockDef) :
    FindsNoSymbolTwice (s.addBlock b) := by
  intro owner symbol h
  unfold Schema.addBlock at h
  split at h
  · cases h
  · cases h

end

end GamePack
