import GamePack.Command.Build
import GamePack.Proofs.Outcome

/-!
What commands do, apart from what they say. `Does a s r` states that an
action started in a session gives a result and leaves a disk, and forgets
the lines that it says on the way. Chains are taken apart by their first
step, so a proof about a command follows its results and its disk and
never sees its lines.
-/
namespace GamePack.Action

variable {α β : Type} {a : Action α} {f : α → Action β} {s s' : Session}
  {d : Disk} {r : Except Error β × Disk}

/-- The result of an action in a session, and the session it leaves. -/
def outcome (a : Action α) (s : Session) : Except Error α × Session :=
  a.run.run s

/-- An action started in a session gives a result and leaves a disk. -/
def Does (a : Action α) (s : Session) (r : Except Error α × Disk) :
    Prop :=
  ∃ s', a.outcome s = (r.1, s') ∧ s'.disk = r.2

/-- There is only one thing that an action does. -/
theorem Does.eq {r : Except Error α × Disk} {result : Except Error α}
    (h : Does a s r) (hrun : a.outcome s = (result, s')) :
    r = (result, s'.disk) := by
  obtain ⟨s'', hrun', hdisk⟩ := h
  rw [hrun] at hrun'
  cases hrun'
  exact Prod.ext rfl hdisk.symm

/-- What an action does in a session is settled. -/
theorem Does.unique {r r' : Except Error α × Disk} (h : Does a s r)
    (h' : Does a s r') : r = r' := by
  obtain ⟨s', hrun, hdisk⟩ := h'
  exact (h.eq hrun).trans (Prod.ext rfl hdisk)

/-- Actions with one outcome do the same. -/
theorem Does.of_outcome_eq {b b' : Action β}
    (h : b.outcome s = b'.outcome s') (hdoes : Does b' s' r) :
    Does b s r := by
  obtain ⟨s'', hrun, hdisk⟩ := hdoes
  exact ⟨s'', h.trans hrun, hdisk⟩

-- ============================================================== chains

/-- Behind a step that succeeds the rest goes on in the session it
leaves. -/
theorem outcome_bind_of_ok {x : α} (h : a.outcome s = (.ok x, s')) :
    (a >>= f).outcome s = (f x).outcome s' := by
  have hbind : (a >>= f).outcome s =
      ExceptT.bindCont f (a.outcome s).1 (a.outcome s).2 := rfl
  rw [hbind, h]
  rfl

/-- A step that fails ends the chain in the session it leaves. -/
theorem outcome_bind_of_error {e : Error}
    (h : a.outcome s = (.error e, s')) :
    (a >>= f).outcome s = (.error e, s') := by
  have hbind : (a >>= f).outcome s =
      ExceptT.bindCont f (a.outcome s).1 (a.outcome s).2 := rfl
  rw [hbind, h]
  rfl

/-- Behind a step that succeeds the rest starts from the disk it leaves,
whatever it said. -/
theorem Does.bind {x : α} (ha : Does a s (.ok x, d))
    (hf : ∀ s', s'.disk = d → Does (f x) s' r) : Does (a >>= f) s r := by
  obtain ⟨s', hrun, hdisk⟩ := ha
  obtain ⟨s'', hrun', hdisk'⟩ := hf s' hdisk
  exact ⟨s'', (outcome_bind_of_ok hrun).trans hrun', hdisk'⟩

/-- A step that fails ends the chain with the disk it leaves. -/
theorem Does.bind_error {e : Error} (ha : Does a s (.error e, d)) :
    Does (a >>= f) s (.error e, d) := by
  obtain ⟨s', hrun, hdisk⟩ := ha
  exact ⟨s', outcome_bind_of_error hrun, hdisk⟩

theorem does_pure (x : α) (s : Session) :
    Does (pure x) s (.ok x, s.disk) :=
  ⟨s, rfl, rfl⟩

theorem does_throw (e : Error) (s : Session) :
    Does (throw e : Action α) s (.error e, s.disk) :=
  ⟨s, rfl, rfl⟩

theorem does_get {f : Session → Action β} (hf : Does (f s) s r) :
    Does (get >>= f) s r := by
  obtain ⟨s', hrun, hdisk⟩ := hf
  exact ⟨s', hrun, hdisk⟩

theorem does_ofExcept (r : Except Error α) (s : Session) :
    Does (ofExcept r) s (r, s.disk) := by
  cases r with
  | error e => exact does_throw e s
  | ok x => exact does_pure x s

/-- A step on the disk does what it does there. -/
theorem does_onDisk (step : Disk → Except Error α × Disk)
    (s : Session) : Does (onDisk step) s (step s.disk) := by
  refine does_get ?_
  rcases step s.disk with ⟨r, d⟩
  exact does_ofExcept r { s with disk := d }

-- =============================================================== lines

theorem does_printProgress (line : String) (s : Session) :
    Does (printProgress line) s (.ok (), s.disk) :=
  ⟨_, rfl, rfl⟩

theorem does_say (verb message : String) (s : Session) :
    Does (say verb message) s (.ok (), s.disk) :=
  does_printProgress _ s

theorem does_sayDetail (verb message : String) (s : Session) :
    Does (sayDetail verb message) s (.ok (), s.disk) := by
  refine does_get ?_
  split
  · exact does_say verb message s
  · exact does_pure () s

/-- A row of actions that only say lines. -/
theorem does_forM {γ : Type} {l : List γ} {f : γ → Action Unit}
    (hf : ∀ x s, Does (f x) s (.ok (), s.disk)) (s : Session) :
    Does (l.forM f) s (.ok (), s.disk) := by
  induction l generalizing s with
  | nil => exact does_pure () s
  | cons x l ih =>
      rw [List.forM_eq_forM, List.forM_cons]
      refine (hf x s).bind fun s' hdisk => ?_
      rw [← hdisk]
      exact ih s'

theorem does_sayDiagnostics (ds : Diagnostics) (s : Session) :
    Does (sayDiagnostics ds) s (.ok (), s.disk) :=
  does_forM does_printProgress s

theorem does_shown (p : Path) (s : Session) :
    Does (shown p) s (.ok (Path.shown s.disk.workPath p), s.disk) :=
  ⟨s, rfl, rfl⟩

-- ======================================================= loading files

/-- A schema is loaded if its file can be read and it has no
conflicts. -/
theorem does_loadSchema (path : Path) (s : Session) :
    ∃ r, Does (loadSchema path) s (r, s.disk) ∧
      ∀ schema, r = .ok schema ↔ Schema.load s.disk path = .ok schema ∧
        (checkSchema schema).hasErrors = false := by
  cases hload : Schema.load s.disk path with
  | error e =>
      refine ⟨.error e, does_get ?_, by simp⟩
      rw [hload]
      exact (does_throw e s).bind_error
  | ok schema =>
      -- what the check finds decides, and is known before it is said
      refine ⟨if (checkSchema schema).hasErrors then
        .error (.validation (.schemaConflicts
          (Path.shown s.disk.workPath path)
          ((checkSchema schema).count .error))) else .ok schema,
        does_get ?_, fun other => ?_⟩
      · rw [hload]
        refine (does_ofExcept _ s).bind fun s₁ h₁ => ?_
        refine (does_shown path s₁).bind fun s₂ h₂ => ?_
        refine (does_sayDetail _ _ s₂).bind fun s₃ h₃ => ?_
        refine (does_sayDiagnostics _ s₃).bind fun s₄ h₄ => ?_
        rw [← h₁, ← h₂, ← h₃, ← h₄]
        split
        next hconflicts => exact (does_throw _ s₄).bind_error
        next hclean => exact does_pure schema s₄
      · cases hconflicts : (checkSchema schema).hasErrors with
        | true =>
            simp only [if_true, reduceCtorEq, Except.ok.injEq, false_iff]
            rintro ⟨rfl, hclean⟩
            rw [hconflicts] at hclean
            cases hclean
        | false =>
            simp only [Bool.false_eq_true, if_false, Except.ok.injEq]
            constructor
            · rintro rfl
              exact ⟨rfl, hconflicts⟩
            · exact And.left

/-- A data file is compiled, and its diagnostics are taken and said. A
panic ends the command, and a failure does not. -/
theorem does_compileFile (c : Compiler) (path : Path) (s : Session) :
    Does (compileFile c path) s
      ((Error.caught (c.compileFile s.disk path).1).map fun result =>
        (result, (c.compileFile s.disk path).2.takeDiagnostics),
        s.disk) := by
  refine does_get ?_
  rcases c.compileFile s.disk path with ⟨compiled, c'⟩
  have hcaught := does_ofExcept (Error.caught compiled) s
  show Does (ofExcept (Error.caught compiled) >>= _) s
    ((Error.caught compiled).map _, s.disk)
  cases h : Error.caught compiled with
  | error e =>
      rw [h] at hcaught
      exact hcaught.bind_error
  | ok result =>
      rw [h] at hcaught
      refine hcaught.bind fun s₁ h₁ => ?_
      refine (does_sayDiagnostics _ s₁).bind fun s₂ h₂ => ?_
      rw [← h₁, ← h₂]
      exact does_pure _ s₂

end GamePack.Action
