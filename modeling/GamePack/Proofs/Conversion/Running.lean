import GamePack.Conversion
import GamePack.Proofs.Outcome

/-!
Successful runs of conversions. `Runs c s a s'` says that a conversion
started in a state gives a result and leaves another state. One lemma
for each way to build a conversion takes such a run apart, so that
proofs about conversions never see how failure and state are combined.
-/
namespace GamePack.Conversion

variable {α β : Type} {s s' : ConversionState}

/-- The result of a conversion started in a state, and the state it
leaves. -/
def outcome (c : Conversion α) (s : ConversionState) :
    Except Error α × ConversionState :=
  c.run.run s

/-- A conversion started in one state gives a result and ends in
another. -/
def Runs (c : Conversion α) (s : ConversionState) (a : α)
    (s' : ConversionState) : Prop :=
  c.outcome s = (.ok a, s')

-- ================================================== steps and chains

@[simp] theorem runs_pure {a b : α} :
    (pure a : Conversion α).Runs s b s' ↔ b = a ∧ s' = s := by
  show ((Except.ok a, s) : Except Error α × ConversionState) = _ ↔ _
  simp [Prod.ext_iff, eq_comm]

/-- Behind a step that succeeds the rest goes on in the state it
leaves. -/
theorem outcome_bind_of_ok {c : Conversion α} {f : α → Conversion β}
    {a : α} (h : c.outcome s = (.ok a, s')) :
    (c >>= f).outcome s = (f a).outcome s' := by
  have hbind : (c >>= f).outcome s =
      ExceptT.bindCont f (c.outcome s).1 (c.outcome s).2 := rfl
  rw [hbind, h]
  rfl

/-- A step that fails ends the chain in the state it leaves. -/
theorem outcome_bind_of_error {c : Conversion α} {f : α → Conversion β}
    {e : Error} (h : c.outcome s = (.error e, s')) :
    (c >>= f).outcome s = (.error e, s') := by
  have hbind : (c >>= f).outcome s =
      ExceptT.bindCont f (c.outcome s).1 (c.outcome s).2 := rfl
  rw [hbind, h]
  rfl

/-- A chain runs when its first step runs and the rest runs on what the
first step gives, in the state it leaves. -/
@[simp] theorem runs_bind {c : Conversion α} {f : α → Conversion β}
    {b : β} :
    (c >>= f).Runs s b s' ↔
      ∃ a s₁, c.Runs s a s₁ ∧ (f a).Runs s₁ b s' := by
  unfold Runs
  rcases hc : c.outcome s with ⟨r, s₁⟩
  cases r with
  | error e => simp [outcome_bind_of_error hc]
  | ok a => simp [outcome_bind_of_ok hc]

/-- What is made of the result of a run leaves the state that the run
leaves. -/
@[simp] theorem runs_map {c : Conversion α} {f : α → β} {b : β} :
    (f <$> c).Runs s b s' ↔ ∃ a, c.Runs s a s' ∧ b = f a := by
  rw [map_eq_pure_bind, runs_bind]
  simp only [runs_pure]
  constructor
  · rintro ⟨a, s₁, h, rfl, rfl⟩
    exact ⟨a, h, rfl⟩
  · rintro ⟨a, h, rfl⟩
    exact ⟨a, s', h, rfl, rfl⟩

/-- A failing step does not run. -/
@[simp] theorem not_runs_throw {e : Error} {a : α} :
    ¬ (throw e : Conversion α).Runs s a s' := by
  intro h
  cases h

/-- Steps behind a guard run when the guard does not refuse. -/
@[simp] theorem runs_guard {c : Prop} [Decidable c] {e : Error}
    {f : PUnit → Conversion β} {b : β} :
    (if c then throw e >>= f else f ⟨⟩).Runs s b s' ↔
      ¬ c ∧ (f ⟨⟩).Runs s b s' := by
  by_cases h : c
  · simp [h]
  · simp [h]

-- ============================================================== state

@[simp] theorem runs_get {a : ConversionState} :
    (get : Conversion ConversionState).Runs s a s' ↔
      a = s ∧ s' = s := by
  show ((Except.ok s, s) : Except Error _ × ConversionState) = _ ↔ _
  simp [Prod.ext_iff, eq_comm]

@[simp] theorem runs_set {s₁ : ConversionState} {a : PUnit} :
    (set s₁ : Conversion PUnit).Runs s a s' ↔ s' = s₁ := by
  show ((Except.ok _, s₁) : Except Error _ × ConversionState) = _ ↔ _
  simp [Prod.ext_iff, eq_comm]

@[simp] theorem runs_modify {f : ConversionState → ConversionState}
    {a : PUnit} :
    (modify f : Conversion PUnit).Runs s a s' ↔ s' = f s := by
  show ((Except.ok _, f s) : Except Error _ × ConversionState) = _ ↔ _
  simp [Prod.ext_iff, eq_comm]

-- ============================================================ results

/-- A result runs when it is one, and leaves the state alone. -/
@[simp] theorem runs_ofExcept {r : Except Error α} {a : α} :
    (ofExcept r).Runs s a s' ↔ r = .ok a ∧ s' = s := by
  cases r with
  | error e => simp [ofExcept]
  | ok b => simp [ofExcept, eq_comm]

@[simp] theorem runs_ofValue {r : Except ValueError α} {a : α} :
    (ofValue r).Runs s a s' ↔ r = .ok a ∧ s' = s := by
  simp [ofValue]

/-- A failure inside a field names the field, and a panic stays what it
is; the state is that which the failing steps left. -/
theorem outcome_inField {owner name : String} {c : Conversion α} :
    (inField owner name c).outcome s =
      ((c.outcome s).1.mapError (·.within owner name),
        (c.outcome s).2) := by
  have hrun : StateT.run c s = c.outcome s := rfl
  show StateT.run (ExceptT.run (inField owner name c)) s = _
  simp only [inField, tryCatch, tryCatchThe, MonadExceptOf.tryCatch,
    ExceptT.tryCatch, ExceptT.run_mk, StateT.run_bind, hrun]
  rcases c.outcome s with ⟨r, s₁⟩
  cases r <;> rfl

/-- A conversion inside a field runs as it does by itself. -/
@[simp] theorem runs_inField {owner name : String} {c : Conversion α}
    {a : α} : (inField owner name c).Runs s a s' ↔ c.Runs s a s' := by
  unfold Runs
  rw [outcome_inField, Prod.ext_iff, Prod.ext_iff, mapError_ok_iff]

/-- Adding a block gives its reference and leaves everything but the
container alone. -/
@[simp] theorem runs_addBlock {block : Option Block}
    {reference : Option BlockRef} :
    (addBlock block).Runs s reference s' ↔
      reference = (s.container.addBlock block).1 ∧
        s' = { s with container := (s.container.addBlock block).2 } := by
  simp only [addBlock, runs_bind, runs_get, runs_set, runs_pure]
  constructor
  · rintro ⟨_, _, ⟨rfl, rfl⟩, _, _, rfl, rfl, rfl⟩
    exact ⟨rfl, rfl⟩
  · rintro ⟨rfl, rfl⟩
    exact ⟨_, _, ⟨rfl, rfl⟩, ⟨⟩, _, rfl, rfl, rfl⟩

/-- The value of a sub-field is the last one that is given for it. -/
theorem runs_subFieldValue {record name : String}
    {items : List (String × FieldValue)} {item : FieldValue} :
    (subFieldValue record name items).Runs s item s' ↔
      items.reverse.lookup name = some item ∧ s' = s := by
  unfold subFieldValue
  cases items.reverse.lookup name with
  | none => simp
  | some found => simp [eq_comm]

-- ================================================================ rows

@[simp] theorem runs_mapM_nil {f : α → Conversion β} {r : List β} :
    (List.mapM f []).Runs s r s' ↔ r = [] ∧ s' = s := by
  rw [List.mapM_nil, runs_pure]

/-- A row runs when its first step does and the others do from the state
it leaves. -/
@[simp] theorem runs_mapM_cons {f : α → Conversion β} {a : α}
    {l : List α} {r : List β} :
    (List.mapM f (a :: l)).Runs s r s' ↔
      ∃ b s₁, (f a).Runs s b s₁ ∧
        ∃ bs, (List.mapM f l).Runs s₁ bs s' ∧ r = b :: bs := by
  simp only [List.mapM_cons, runs_bind, runs_pure]
  constructor
  · rintro ⟨b, s₁, hb, bs, s₂, hbs, rfl, rfl⟩
    exact ⟨b, s₁, hb, bs, hbs, rfl⟩
  · rintro ⟨b, s₁, hb, bs, hbs, rfl⟩
    exact ⟨b, s₁, hb, bs, s', hbs, rfl, rfl⟩

end GamePack.Conversion
