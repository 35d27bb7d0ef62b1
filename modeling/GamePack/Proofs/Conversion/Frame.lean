import GamePack.Proofs.Conversion.Composition
import GamePack.Proofs.Conversion.Sheets

/-!
What every run of a conversion keeps, whether it succeeds or fails. A
conversion touches its state in few ways: it loads a sheet, reports what
a grid leaves uncovered, adds the block of a sprite or of strings, and
reports a sprite. It fails where a sheet does not load or a value does
not fit, inside any number of fields, or panics, which no field is put
to. `Frame` says of a relation between
states and of a property of failures that they allow for this; a relation
and a property that do hold of every run of every conversion, by
induction on how it is composed.
-/
namespace GamePack

namespace Conversion

variable {α β : Type} {settings : ConversionSettings}
  {R : ConversionState → ConversionState → Prop} {E : Error → Prop}

/-- Every run leaves a state that is related to the one it starts in, and
fails only in ways that have a property. -/
def Keeps (R : ConversionState → ConversionState → Prop)
    (E : Error → Prop) (c : Conversion α) : Prop :=
  ∀ s, R s (c.outcome s).2 ∧ ∀ e, (c.outcome s).1 = .error e → E e

/-- A relation between states and a property of failures that allow for
what conversions do. A sheet is loaded only where none of its path is kept
yet. -/
structure Frame (settings : ConversionSettings)
    (R : ConversionState → ConversionState → Prop)
    (E : Error → Prop) : Prop where
  refl : ∀ s, R s s
  trans : ∀ {s s' s''}, R s s' → R s' s'' → R s s''
  sheet : ∀ s path b, s.sheets.find? path = none →
    settings.load path = .ok b →
      R s { s with sheets := s.sheets.insert path b }
  report : ∀ (s : ConversionState) (ds : Diagnostics),
    R s { s with diagnostics := s.diagnostics ++ ds }
  sprite : ∀ (s : ConversionState) (report : SpriteReport),
    R s { s with sprites := s.sprites ++ [report] }
  block : ∀ (s : ConversionState) (block : Block), block.IsGenerated →
    R s { s with container := (s.container.addBlock (some block)).2 }
  load : ∀ path e, settings.load path = .error e → E e
  value : ∀ cause, E (.value cause)
  panic : ∀ step, E (.panic step)
  field : ∀ owner name e, E e → E (.field owner name e)

namespace Frame

/-- What a step fails with by itself is within the frame. -/
theorem of_step (F : Frame settings R E) {e : Error} (he : e.IsOfStep) :
    E e := by
  cases he with
  | value cause => exact F.value cause
  | panic step => exact F.panic step

-- ======================================================== constructions

theorem keeps_pure (F : Frame settings R E) (a : α) :
    Keeps R E (pure a : Conversion α) := by
  intro s
  refine ⟨F.refl s, fun e he => ?_⟩
  cases he

theorem keeps_throw (F : Frame settings R E) {e : Error} (he : E e) :
    Keeps R E (throw e : Conversion α) := by
  intro s
  refine ⟨F.refl s, fun e' he' => ?_⟩
  cases he'
  exact he

/-- A chain keeps what its steps keep. Of what the first step gives it is
known that a run gave it. -/
theorem keeps_bind (F : Frame settings R E) {c : Conversion α}
    {f : α → Conversion β} (hc : Keeps R E c)
    (hf : ∀ {s a s'}, c.Runs s a s' → Keeps R E (f a)) :
    Keeps R E (c >>= f) := by
  intro s
  obtain ⟨hstate, hfailure⟩ := hc s
  rcases hrun : c.outcome s with ⟨r, s'⟩
  rw [hrun] at hstate hfailure
  cases r with
  | error e =>
      rw [outcome_bind_of_error hrun]
      refine ⟨hstate, fun e' he' => ?_⟩
      cases he'
      exact hfailure e rfl
  | ok a =>
      rw [outcome_bind_of_ok hrun]
      obtain ⟨hstate', hfailure'⟩ := hf hrun s'
      exact ⟨F.trans hstate hstate', hfailure'⟩

/-- Behind a guard that refuses within the frame the rest may use that it
did not. -/
theorem keeps_guard (F : Frame settings R E) {c : Prop} [Decidable c]
    {e : Error} {f : PUnit → Conversion β} (he : c → E e)
    (hf : ¬ c → Keeps R E (f ⟨⟩)) :
    Keeps R E (if c then throw e >>= f else f ⟨⟩) := by
  by_cases h : c
  · rw [if_pos h]
    exact F.keeps_bind (F.keeps_throw (he h)) fun hrun =>
      absurd hrun not_runs_throw
  · rw [if_neg h]
    exact hf h

theorem keeps_get (F : Frame settings R E) :
    Keeps R E (get : Conversion ConversionState) := by
  intro s
  refine ⟨F.refl s, fun e he => ?_⟩
  cases he

/-- A change of the state is kept when it is related to the state. -/
theorem keeps_modify {f : ConversionState → ConversionState}
    (hf : ∀ s, R s (f s)) : Keeps R E (modify f : Conversion PUnit) := by
  intro s
  refine ⟨hf s, fun e he => ?_⟩
  cases he

theorem keeps_ofExcept (F : Frame settings R E) {r : Except Error α}
    (hr : ∀ e, r = .error e → E e) : Keeps R E (ofExcept r) := by
  cases r with
  | error e => exact F.keeps_throw (hr e rfl)
  | ok a => exact F.keeps_pure a

theorem keeps_ofValue (F : Frame settings R E) (r : Except ValueError α) :
    Keeps R E (ofValue r) := by
  apply F.keeps_ofExcept
  intro e he
  obtain ⟨cause, -, rfl⟩ := mapError_error_iff.1 he
  exact F.value cause

/-- A field is put around a failure within the frame; a panic passes as
it is. -/
theorem keeps_inField (F : Frame settings R E) {owner name : String}
    {c : Conversion α} (hc : Keeps R E c) :
    Keeps R E (inField owner name c) := by
  intro s
  obtain ⟨hstate, hfailure⟩ := hc s
  rw [outcome_inField]
  refine ⟨hstate, fun e he => ?_⟩
  obtain ⟨cause, hcause, rfl⟩ := mapError_error_iff.1 he
  rcases Error.within_cases owner name cause with ⟨step, -, hpanic⟩ | hfield
  · rw [hpanic]
    exact F.panic step
  · rw [hfield]
    exact F.field owner name cause (hfailure cause hcause)

theorem keeps_addBlock {block : Option Block}
    (h : ∀ s : ConversionState,
      R s { s with container := (s.container.addBlock block).2 }) :
    Keeps R E (addBlock block) := by
  intro s
  refine ⟨h s, fun e he => ?_⟩
  cases he

-- =========================================== steps of conversions

/-- A sheet is loaded under a path that none is kept under, or found. -/
theorem keeps_sheet (F : Frame settings R E) (path : Path) :
    Keeps R E (Conversion.sheet settings path) := by
  intro s
  cases hlook : s.sheets.look settings.load path with
  | error e =>
      rw [outcome_sheet_of_error hlook]
      refine ⟨F.refl s, fun e' he' => ?_⟩
      cases he'
      cases hfound : s.sheets.find? path with
      | some b =>
          rw [SheetCache.look_of_find? hfound] at hlook
          cases hlook
      | none =>
          rw [SheetCache.look_of_find?_none hfound] at hlook
          exact F.load path e hlook
  | ok b =>
      rw [outcome_sheet_of_ok hlook]
      refine ⟨?_, fun e' he' => by cases he'⟩
      cases hfound : s.sheets.find? path with
      | some b' =>
          rw [SheetCache.keep_of_find? hfound]
          exact F.refl s
      | none =>
          rw [SheetCache.look_of_find?_none hfound] at hlook
          rw [SheetCache.keep_of_find?_none hfound]
          exact F.sheet s path b hfound hlook

/-- A block number changes nothing, and fails as a value. -/
theorem keeps_blockNumber (F : Frame settings R E) (n : Int) :
    Keeps R E (blockNumber n) := by
  refine F.keeps_bind (F.keeps_ofValue _) fun _ => ?_
  refine F.keeps_bind F.keeps_get fun _ => ?_
  exact F.keeps_guard (fun _ => F.value _) fun _ => F.keeps_pure _

/-- Whatever steps a conversion is composed of, the state that is left
and the failure are within the frame. -/
theorem keeps_of_composed (F : Frame settings R E) {c : Conversion α}
    (h : IsComposed settings c) : Keeps R E c := by
  induction h with
  | pure a => exact F.keeps_pure a
  | refuse he => exact F.keeps_throw (F.of_step he)
  | chain _ _ ihfirst ihrest =>
      exact F.keeps_bind ihfirst fun hrun => ihrest _ _ _ hrun
  | inField owner name _ ih => exact F.keeps_inField ih
  | sheet path => exact F.keeps_sheet path
  | report ds => exact keeps_modify fun s => F.report s ds
  | reportSprite report => exact keeps_modify fun s => F.sprite s report
  | addBlock block hblock =>
      exact keeps_addBlock fun s => F.block s block hblock
  | blockNumber n => exact F.keeps_blockNumber n

/-- Every conversion keeps what the frame allows for. -/
theorem keeps_convert (F : Frame settings R E) (t : DataType)
    (v : FieldValue) : Keeps R E (convert settings t v) :=
  F.keeps_of_composed (composed_convert t v)

end Frame

end Conversion

end GamePack
