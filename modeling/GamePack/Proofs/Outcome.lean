import GamePack.Bytes
import Mathlib.Data.List.Forall2

/-!
Computations that may fail, taken apart. A chain of steps succeeds when
each step does, and a row of steps succeeds with the row of what its
steps give. The proof modules peel their functions with these lemmas, so
that none of them opens a monad.
-/
namespace GamePack

variable {ε ε' α β : Type}

-- =========================================================== results

theorem ok_bind (a : α) (f : α → Except ε β) :
    (Except.ok a : Except ε α) >>= f = f a :=
  rfl

theorem isOk_iff {x : Except ε α} : x.isOk = true ↔ ∃ a, x = .ok a := by
  cases x with
  | error e => simp [Except.isOk, Except.toBool]
  | ok a => simp [Except.isOk, Except.toBool]

theorem isOk_eq_false_iff {x : Except ε α} :
    x.isOk = false ↔ ∃ e, x = .error e := by
  cases x with
  | error e => simp [Except.isOk, Except.toBool]
  | ok a => simp [Except.isOk, Except.toBool]

/-- A chain succeeds when its first step does and the rest succeeds on
what the first step gives. -/
theorem bind_eq_ok {x : Except ε α} {f : α → Except ε β} {b : β} :
    x >>= f = .ok b ↔ ∃ a, x = .ok a ∧ f a = .ok b := by
  cases x with
  | error e => simp [bind, Except.bind]
  | ok a => simp [bind, Except.bind]

/-- A chain fails when its first step does or the rest fails on what the
first step gives. -/
theorem bind_eq_error {x : Except ε α} {f : α → Except ε β} {e : ε} :
    x >>= f = .error e ↔
      x = .error e ∨ ∃ a, x = .ok a ∧ f a = .error e := by
  cases x with
  | error e' => simp [bind, Except.bind]
  | ok a => simp [bind, Except.bind]

theorem map_eq_ok {x : Except ε α} {f : α → β} {b : β} :
    f <$> x = .ok b ↔ ∃ a, x = .ok a ∧ f a = b := by
  cases x with
  | error e => simp [Functor.map, Except.map]
  | ok a => simp [Functor.map, Except.map]

theorem map_eq_error {x : Except ε α} {f : α → β} {e : ε} :
    f <$> x = .error e ↔ x = .error e := by
  cases x with
  | error e' => simp [Functor.map, Except.map]
  | ok a => simp [Functor.map, Except.map]

theorem mapError_ok (a : α) (f : ε → ε') :
    (Except.ok a : Except ε α).mapError f = .ok a :=
  rfl

@[simp] theorem mapError_ok_iff {x : Except ε α} {f : ε → ε'} {a : α} :
    x.mapError f = .ok a ↔ x = .ok a := by
  cases x with
  | error e => simp [Except.mapError]
  | ok b => simp [Except.mapError]

/-- A failure that was named anew comes from one before. -/
theorem mapError_error_iff {x : Except ε α} {f : ε → ε'} {e : ε'} :
    x.mapError f = .error e ↔ ∃ cause, x = .error cause ∧ e = f cause := by
  cases x with
  | error cause => simp [Except.mapError, eq_comm]
  | ok a => simp [Except.mapError]

@[simp] theorem pure_ok_iff {a b : α} :
    (pure a : Except ε α) = .ok b ↔ b = a := by
  simp [pure, Except.pure, eq_comm]

@[simp] theorem pure_ne_error {a : α} {e : ε} :
    (pure a : Except ε α) ≠ .error e := by
  simp [pure, Except.pure]

@[simp] theorem throw_ne_ok {e : ε} {a : α} :
    (throw e : Except ε α) ≠ .ok a := by
  simp [throw, throwThe, MonadExceptOf.throw]

/-- Steps behind a guard succeed when the guard does not refuse and they
succeed. -/
theorem guard_eq_ok {c : Prop} [Decidable c] {e : ε}
    {f : PUnit → Except ε β} {b : β} :
    (if c then throw e >>= f else f ⟨⟩) = .ok b ↔
      ¬ c ∧ f ⟨⟩ = .ok b := by
  by_cases h : c
  · rw [if_pos h]
    constructor
    · intro hf
      cases hf
    · exact fun hf => absurd h hf.1
  · rw [if_neg h]
    exact ⟨fun hf => ⟨h, hf⟩, fun hf => hf.2⟩

/-- Behind a check there are two ways to fail: the check, and what
follows where it passes. -/
theorem guard_eq_error {c : Prop} [Decidable c] {e e' : ε}
    {f : PUnit → Except ε β} :
    (if c then throw e >>= f else f ⟨⟩) = .error e' ↔
      c ∧ e' = e ∨ ¬ c ∧ f ⟨⟩ = .error e' := by
  by_cases h : c
  · rw [if_pos h]
    show Except.error e = .error e' ↔ _
    simp [h, eq_comm]
  · simp [h]

-- ================================================================ rows

/-- A row of steps succeeds with the row of what its steps give. -/
theorem mapM_eq_ok {f : α → Except ε β} {l : List α} {r : List β} :
    l.mapM f = .ok r ↔ List.Forall₂ (fun a b => f a = .ok b) l r := by
  induction l generalizing r with
  | nil => cases r <;> simp
  | cons a l ih =>
      simp only [List.mapM_cons, bind_eq_ok, pure_ok_iff, ih]
      constructor
      · rintro ⟨b, hb, bs, hbs, rfl⟩
        exact .cons hb hbs
      · intro h
        cases h with
        | cons hb hbs => exact ⟨_, hb, _, hbs, rfl⟩

/-- Every member of a row has a partner in a row that is related to
it. -/
theorem exists_mem_of_forall₂ {R : α → β → Prop} {l : List α}
    {r : List β} (h : List.Forall₂ R l r) {a : α} (ha : a ∈ l) :
    ∃ b ∈ r, R a b := by
  induction h with
  | nil => exact absurd ha List.not_mem_nil
  | cons hR _ ih =>
      rcases List.mem_cons.1 ha with rfl | ha
      · exact ⟨_, List.mem_cons_self, hR⟩
      · obtain ⟨b, hb, hab⟩ := ih ha
        exact ⟨b, List.mem_cons_of_mem _ hb, hab⟩

/-- A row of steps succeeds as soon as each of them does. -/
theorem exists_mapM_eq_ok {f : α → Except ε β} {l : List α}
    (h : ∀ a ∈ l, ∃ b, f a = .ok b) : ∃ r, l.mapM f = .ok r := by
  induction l with
  | nil => exact ⟨[], rfl⟩
  | cons a l ih =>
      obtain ⟨b, hb⟩ := h a List.mem_cons_self
      obtain ⟨r, hr⟩ := ih fun c hc => h c (List.mem_cons_of_mem a hc)
      rw [mapM_eq_ok] at hr
      exact ⟨b :: r, mapM_eq_ok.2 (.cons hb hr)⟩

/-- A row of steps that fails does so in one of them. -/
theorem mapM_eq_error {f : α → Except ε β} {l : List α} {e : ε}
    (h : l.mapM f = .error e) : ∃ a ∈ l, f a = .error e := by
  induction l with
  | nil => cases h
  | cons a l ih =>
      simp only [List.mapM_cons, bind_eq_error, pure_ne_error, and_false,
        exists_false, or_false] at h
      rcases h with ha | ⟨b, -, hl⟩
      · exact ⟨a, List.mem_cons_self, ha⟩
      · obtain ⟨c, hc, hfc⟩ := ih hl
        exact ⟨c, List.mem_cons_of_mem a hc, hfc⟩

/-- Tests that all give an answer are taken like tests that cannot
fail. -/
theorem allM_ok {f : α → Except ε Bool} {p : α → Bool} {l : List α}
    (h : ∀ a ∈ l, f a = .ok (p a)) :
    l.allM f = .ok (l.all p) := by
  induction l with
  | nil => rfl
  | cons a l ih =>
      have hrest := ih fun c hc => h c (List.mem_cons_of_mem a hc)
      rw [List.allM, h a List.mem_cons_self, ok_bind, List.all_cons]
      cases p a with
      | false => rfl
      | true => exact hrest

/-- What the steps keep holds of what they lead to. -/
theorem foldlM_induction {f : β → α → Except ε β} {l : List α}
    {b r : β} {p : β → Prop} (h : l.foldlM f b = .ok r) (hb : p b)
    (hstep : ∀ a ∈ l, ∀ b b', p b → f b a = .ok b' → p b') : p r := by
  induction l generalizing b with
  | nil =>
      obtain rfl := Except.ok.inj h
      exact hb
  | cons a l ih =>
      rw [List.foldlM_cons, bind_eq_ok] at h
      obtain ⟨b', hb', hl⟩ := h
      exact ih hl (hstep a List.mem_cons_self b b' hb hb')
        fun c hc => hstep c (List.mem_cons_of_mem a hc)

/-- What is known of the steps taken so far, and kept by each further
step, is known of all of them in the end. -/
theorem foldlM_induction_taken {f : β → α → Except ε β} {l : List α}
    {b r : β} {p : List α → β → Prop} (h : l.foldlM f b = .ok r)
    (hb : p [] b)
    (hstep : ∀ taken a b b', p taken b → f b a = .ok b' →
      p (taken ++ [a]) b') : p l r := by
  have hfrom : ∀ l taken b, p taken b → l.foldlM f b = .ok r →
      p (taken ++ l) r := by
    intro l
    induction l with
    | nil =>
        intro taken b hp hr
        obtain rfl := Except.ok.inj hr
        rwa [List.append_nil]
    | cons a l ih =>
        intro taken b hp hr
        rw [List.foldlM_cons, bind_eq_ok] at hr
        obtain ⟨b', hb', hr⟩ := hr
        have hl := ih (taken ++ [a]) b' (hstep taken a b b' hp hb') hr
        rwa [List.append_assoc, List.singleton_append] at hl
  exact hfrom l [] b hb h

/-- Steps that are taken one after the other fail in one of them. -/
theorem foldlM_eq_error {f : β → α → Except ε β} {b : β} {l : List α}
    {e : ε} (h : l.foldlM f b = .error e) :
    ∃ a ∈ l, ∃ b', f b' a = .error e := by
  induction l generalizing b with
  | nil => cases h
  | cons a l ih =>
      rw [List.foldlM_cons, bind_eq_error] at h
      rcases h with ha | ⟨b', -, hl⟩
      · exact ⟨a, List.mem_cons_self, b, ha⟩
      · obtain ⟨c, hc, hfc⟩ := ih hl
        exact ⟨c, List.mem_cons_of_mem a hc, hfc⟩

/-- Steps of which any two next to each other can be exchanged lead to
the same end in every order. `p` is what the steps keep. -/
theorem foldlM_perm {f : β → α → Except ε β} {l l' : List α} {b r : β}
    {p : β → Prop} (hperm : l.Perm l') (hb : p b)
    (hkeep : ∀ b a b', p b → f b a = .ok b' → p b')
    (hswap : ∀ b a a' b' b'', p b → f b a = .ok b' → f b' a' = .ok b'' →
      ∃ b₁, f b a' = .ok b₁ ∧ f b₁ a = .ok b'')
    (h : l.foldlM f b = .ok r) : l'.foldlM f b = .ok r := by
  induction hperm generalizing b with
  | nil => exact h
  | cons a _ ih =>
      rw [List.foldlM_cons, bind_eq_ok] at h ⊢
      obtain ⟨b', hb', hl⟩ := h
      exact ⟨b', hb', ih (hkeep b a b' hb hb') hl⟩
  | swap a a' l =>
      rw [List.foldlM_cons, bind_eq_ok] at h
      obtain ⟨b', hb', h⟩ := h
      rw [List.foldlM_cons, bind_eq_ok] at h
      obtain ⟨b'', hb'', hl⟩ := h
      obtain ⟨b₁, hb₁, hlast⟩ := hswap b a' a b' b'' hb hb' hb''
      rw [List.foldlM_cons, hb₁, ok_bind, List.foldlM_cons, hlast, ok_bind]
      exact hl
  | trans _ _ ih ih' => exact ih' hb (ih hb h)

end GamePack
