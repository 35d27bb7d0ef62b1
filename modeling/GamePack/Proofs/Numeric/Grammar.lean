import GamePack.Numeric
import GamePack.Proofs.Outcome
import Mathlib.Data.Nat.Digits.Defs
import Mathlib.Tactic

/-!
The grammar of numeric literals, stated beside the reader: one optional
sign, and one or more decimal digits or the mark `0x` with one or more
hexadecimal digits. What digits spell is a number of the library of
numbers, with no word of any width in it.

The reader takes one form more. The word behind the mark may have a sign
of its own (`IsSignedWord`), which the grammar does not know.
`magnitude?_eq_some_iff` says that these are all the words it reads
behind the sign in front, as long as they fit 64 bits.
-/
namespace GamePack.Numeric

variable {radix acc n : Nat} {c : Char} {d : Nat} {cs body : List Char}
  {factor word : Int}

-- ============================================================== digits

/-- A digit of a radix and the number it stands for, in lower or upper
case. -/
def IsDigit (radix : Nat) (c : Char) (d : Nat) : Prop :=
  d < radix ∧ (c = Nat.digitChar d ∨ c = (Nat.digitChar d).toUpper)

/-- One or more digits of a radix and the number they spell. -/
def Spells (radix : Nat) (cs : List Char) (n : Nat) : Prop :=
  ∃ ds, ds ≠ [] ∧ List.Forall₂ (IsDigit radix) cs ds ∧
    n = Nat.ofDigits radix ds.reverse

/-- The reader takes the characters of three ranges. -/
theorem digit?_eq_some_iff_ranges :
    digit? radix c = some d ↔ d < radix ∧
      (0x30 ≤ c.toNat ∧ c.toNat ≤ 0x39 ∧ d = c.toNat - 0x30 ∨
        0x61 ≤ c.toNat ∧ c.toNat ≤ 0x66 ∧ d = c.toNat - 0x61 + 10 ∨
        0x41 ≤ c.toNat ∧ c.toNat ≤ 0x46 ∧ d = c.toNat - 0x41 + 10) := by
  unfold digit?
  generalize c.toNat = k
  by_cases hdigit : 0x30 ≤ k ∧ k ≤ 0x39
  · simp only [if_pos hdigit, Option.ite_none_right_eq_some,
      Option.some.injEq]
    omega
  · by_cases hlower : 0x61 ≤ k ∧ k ≤ 0x66
    · simp only [if_neg hdigit, if_pos hlower,
        Option.ite_none_right_eq_some, Option.some.injEq]
      omega
    · by_cases hupper : 0x41 ≤ k ∧ k ≤ 0x46
      · simp only [if_neg hdigit, if_neg hlower, if_pos hupper,
          Option.ite_none_right_eq_some, Option.some.injEq]
        omega
      · simp only [if_neg hdigit, if_neg hlower, if_neg hupper,
          Option.ite_none_right_eq_some, Option.some.injEq]
        omega

/-- The reader takes exactly the digits. -/
theorem digit?_eq_some_iff (hradix : radix ≤ 16) :
    digit? radix c = some d ↔ IsDigit radix c d := by
  rw [digit?_eq_some_iff_ranges]
  unfold IsDigit
  constructor
  · rintro ⟨hd, h⟩
    refine ⟨hd, ?_⟩
    have hc : c = Char.ofNat c.toNat := (Char.ofNat_toNat c).symm
    generalize c.toNat = k at h hc
    rcases h with ⟨hlo, hhi, rfl⟩ | ⟨hlo, hhi, rfl⟩ | ⟨hlo, hhi, rfl⟩
    all_goals
      rw [hc]
      clear hd hc
      interval_cases k <;> decide
  · rintro ⟨hd, hc⟩
    refine ⟨hd, ?_⟩
    have hlt : d < 16 := by omega
    clear hd
    rcases hc with rfl | rfl
    all_goals interval_cases d <;> decide

/-- Digits are read to the number they spell, behind what was read
before. -/
theorem appendDigits?_eq_some_iff (hradix : radix ≤ 16) :
    appendDigits? radix acc cs = some n ↔
      ∃ ds, List.Forall₂ (IsDigit radix) cs ds ∧
        n = acc * radix ^ ds.length + Nat.ofDigits radix ds.reverse := by
  induction cs generalizing acc with
  | nil => simp [appendDigits?, eq_comm]
  | cons c cs ih =>
      unfold appendDigits?
      cases hc : digit? radix c with
      | none =>
          simp only [reduceCtorEq, false_iff]
          rintro ⟨ds, hds, -⟩
          cases hds with
          | cons hd _ =>
              rw [(digit?_eq_some_iff hradix).2 hd] at hc
              cases hc
      | some d =>
          show appendDigits? radix (acc * radix + d) cs = some n ↔ _
          rw [ih]
          have hdigit := (digit?_eq_some_iff hradix).1 hc
          have hstep : ∀ ds : List Nat,
              (acc * radix + d) * radix ^ ds.length +
                  Nat.ofDigits radix ds.reverse =
                acc * radix ^ (d :: ds).length +
                  Nat.ofDigits radix (d :: ds).reverse := by
            intro ds
            rw [List.reverse_cons, Nat.ofDigits_append,
              Nat.ofDigits_singleton, List.length_reverse,
              List.length_cons]
            ring
          constructor
          · rintro ⟨ds, hds, rfl⟩
            exact ⟨d :: ds, .cons hdigit hds, hstep ds⟩
          · rintro ⟨ds, hds, rfl⟩
            cases hds with
            | cons hd hds =>
                rw [← digit?_eq_some_iff hradix, hc] at hd
                obtain rfl := Option.some.inj hd
                exact ⟨_, hds, (hstep _).symm⟩

/-- The reader takes exactly the rows of one or more digits. -/
theorem digits?_eq_some_iff (hradix : radix ≤ 16) :
    digits? radix cs = some n ↔ Spells radix cs n := by
  unfold digits? Spells
  cases cs with
  | nil => simp
  | cons c cs =>
      show appendDigits? radix 0 (c :: cs) = some n ↔ _
      rw [appendDigits?_eq_some_iff hradix]
      constructor
      · rintro ⟨ds, hds, rfl⟩
        refine ⟨ds, ?_, hds, by omega⟩
        rintro rfl
        cases hds
      · rintro ⟨ds, -, hds, rfl⟩
        exact ⟨ds, hds, by omega⟩

theorem Spells.exists_cons (h : Spells radix cs n) :
    ∃ c d rest, cs = c :: rest ∧ IsDigit radix c d := by
  obtain ⟨ds, hne, hds, -⟩ := h
  cases hds with
  | nil => exact absurd rfl hne
  | cons hd hds => exact ⟨_, _, _, rfl, hd⟩

theorem Spells.exists_digit (h : Spells radix cs n) (hc : c ∈ cs) :
    ∃ d, IsDigit radix c d := by
  obtain ⟨ds, -, hds, -⟩ := h
  obtain ⟨d, -, hd⟩ := exists_mem_of_forall₂ hds hc
  exact ⟨d, hd⟩

/-- A digit is no blank, no sign and no mark. -/
theorem IsDigit.plain (h : IsDigit radix c d) (hradix : radix ≤ 16) :
    Text.isBlank c = false ∧ c ≠ '+' ∧ c ≠ '-' ∧ c ≠ 'x' ∧ c ≠ 'X' := by
  obtain ⟨hd, hc⟩ := h
  have hlt : d < 16 := by omega
  clear hd
  rcases hc with rfl | rfl
  all_goals interval_cases d <;> decide

-- ============================================================= grammar

/-- An optional sign and the factor it stands for. -/
inductive IsSign : List Char → Int → Prop where
  | none : IsSign [] 1
  | plus : IsSign ['+'] 1
  | minus : IsSign ['-'] (-1)

/-- What tells hexadecimal digits from decimal ones. -/
inductive IsMark : List Char → Prop where
  | lower : IsMark ['0', 'x']
  | upper : IsMark ['0', 'X']

/-- A literal behind its sign: decimal digits, or a mark and hexadecimal
digits. -/
inductive IsMagnitude : List Char → Nat → Prop where
  | decimal {digits : List Char} {n : Nat} (h : Spells 10 digits n) :
      IsMagnitude digits n
  | hexadecimal {mark digits : List Char} {n : Nat} (hmark : IsMark mark)
      (h : Spells 16 digits n) : IsMagnitude (mark ++ digits) n

/-- A hexadecimal word with a sign between the mark and its digits, which
the grammar does not know. -/
def IsSignedWord (cs : List Char) (word : Int) : Prop :=
  ∃ mark sign factor digits n, cs = mark ++ (sign ++ digits) ∧
    IsMark mark ∧ IsSign sign factor ∧ sign ≠ [] ∧
    Spells 16 digits n ∧ word = factor * n

-- ============================================================== reader

/-- The factor of the sign in front of characters. -/
def signOf (cs : List Char) : Int := if (splitSign cs).1 then -1 else 1

/-- A sign in front of characters that start with none is the one that
the reader splits off. -/
theorem splitSign_append {sign : List Char} (hsign : IsSign sign factor)
    (hplus : body.head? ≠ some '+') (hminus : body.head? ≠ some '-') :
    signOf (sign ++ body) = factor ∧
      (splitSign (sign ++ body)).2 = body := by
  cases hsign with
  | plus => exact ⟨rfl, rfl⟩
  | minus => exact ⟨rfl, rfl⟩
  | none =>
      have hsplit : splitSign body = (false, body) := by
        unfold splitSign
        split
        · exact absurd rfl hminus
        · exact absurd rfl hplus
        · rfl
      rw [List.nil_append, signOf, hsplit]
      exact ⟨rfl, rfl⟩

/-- What the reader splits off is a sign. -/
theorem exists_sign (cs : List Char) :
    ∃ sign, cs = sign ++ (splitSign cs).2 ∧ IsSign sign (signOf cs) := by
  unfold signOf splitSign
  split
  · exact ⟨['-'], rfl, .minus⟩
  · exact ⟨['+'], rfl, .plus⟩
  · exact ⟨[], rfl, .none⟩

theorem word?_eq_some_iff {value : Int} :
    word? value = some word ↔
      word = value ∧ wordMin ≤ word ∧ word ≤ wordMax := by
  unfold word?
  split
  next h =>
    rw [Option.some.injEq]
    constructor
    · rintro rfl
      exact ⟨rfl, h⟩
    · exact fun hword => hword.1.symm
  next h =>
    simp only [reduceCtorEq, false_iff]
    rintro ⟨rfl, hword⟩
    exact h hword

/-- A signed word is read as digits behind the sign that is split off. -/
theorem signedWord?_eq (radix : Nat) (cs : List Char) :
    signedWord? radix cs = (digits? radix (splitSign cs).2).bind fun n =>
      word? (signOf cs * n) := by
  unfold signedWord? signOf splitSign
  split
  · simp
  · simp
  · split
    · simp_all
    · simp_all
    · simp

theorem magnitude?_mark {mark : List Char} (hmark : IsMark mark)
    (cs : List Char) : magnitude? (mark ++ cs) = signedWord? 16 cs := by
  cases hmark <;> rfl

theorem magnitude?_of_unmarked
    (h : ∀ mark rest, IsMark mark → cs ≠ mark ++ rest) :
    magnitude? cs = (digits? 10 cs).bind fun n => word? n := by
  unfold magnitude?
  split
  · exact absurd rfl (h _ _ .lower)
  · exact absurd rfl (h _ _ .upper)
  · rfl

/-- Decimal digits start with no mark. -/
theorem Spells.unmarked (h : Spells 10 cs n) (mark rest : List Char)
    (hmark : IsMark mark) : cs ≠ mark ++ rest := by
  rintro rfl
  cases hmark with
  | lower =>
      obtain ⟨d, hd⟩ := h.exists_digit (c := 'x') (by simp)
      exact (hd.plain (by decide)).2.2.2.1 rfl
  | upper =>
      obtain ⟨d, hd⟩ := h.exists_digit (c := 'X') (by simp)
      exact (hd.plain (by decide)).2.2.2.2 rfl

/-- Digits start with no sign. -/
theorem Spells.head?_ne (h : Spells radix cs n) (hradix : radix ≤ 16) :
    cs.head? ≠ some '+' ∧ cs.head? ≠ some '-' := by
  obtain ⟨c, d, rest, rfl, hd⟩ := h.exists_cons
  obtain ⟨-, hplus, hminus, -⟩ := hd.plain hradix
  simp [hplus, hminus]

/-- What stands behind the outer sign is a magnitude of the grammar or a
signed word, and it is read when it fits a word of 64 bits. -/
def IsWord (cs : List Char) (word : Int) : Prop :=
  (∃ n, IsMagnitude cs n ∧ word = n) ∨ IsSignedWord cs word

/-- What is read behind a sign is a word of the grammar that the range of
words holds. -/
theorem magnitude?_eq_some_iff :
    magnitude? cs = some word ↔
      IsWord cs word ∧ wordMin ≤ word ∧ word ≤ wordMax := by
  constructor
  · intro h
    by_cases hmarked : ∃ mark rest, IsMark mark ∧ cs = mark ++ rest
    · obtain ⟨mark, rest, hmark, rfl⟩ := hmarked
      rw [magnitude?_mark hmark, signedWord?_eq,
        Option.bind_eq_some_iff] at h
      obtain ⟨n, hdigits, hword⟩ := h
      rw [digits?_eq_some_iff (by decide)] at hdigits
      obtain ⟨rfl, hfits⟩ := word?_eq_some_iff.1 hword
      refine ⟨?_, hfits⟩
      obtain ⟨sign, hrest, hsign⟩ := exists_sign rest
      by_cases hnone : sign = []
      · subst hnone
        rw [List.nil_append] at hrest
        rw [← hrest] at hdigits
        left
        refine ⟨n, .hexadecimal hmark hdigits, ?_⟩
        generalize signOf rest = factor at hsign ⊢
        cases hsign
        rw [one_mul]
      · right
        exact ⟨mark, sign, _, _, n, by rw [← hrest], hmark, hsign, hnone,
          hdigits, rfl⟩
    · have hunmarked : ∀ mark rest, IsMark mark → cs ≠ mark ++ rest :=
        fun mark rest hmark hcs => hmarked ⟨mark, rest, hmark, hcs⟩
      rw [magnitude?_of_unmarked hunmarked, Option.bind_eq_some_iff] at h
      obtain ⟨n, hdigits, hword⟩ := h
      rw [digits?_eq_some_iff (by decide)] at hdigits
      obtain ⟨rfl, hfits⟩ := word?_eq_some_iff.1 hword
      exact ⟨.inl ⟨n, .decimal hdigits, rfl⟩, hfits⟩
  · rintro ⟨⟨n, hmagnitude, rfl⟩ | hsigned, hfits⟩
    · cases hmagnitude with
      | decimal h =>
          rw [magnitude?_of_unmarked h.unmarked,
            (digits?_eq_some_iff (by decide)).2 h]
          exact word?_eq_some_iff.2 ⟨rfl, hfits⟩
      | hexadecimal hmark h =>
          obtain ⟨hplus, hminus⟩ := h.head?_ne (by decide)
          obtain ⟨hfactor, hdigits⟩ :=
            splitSign_append .none hplus hminus
          rw [List.nil_append] at hfactor hdigits
          rw [magnitude?_mark hmark, signedWord?_eq, hfactor, hdigits,
            (digits?_eq_some_iff (by decide)).2 h, Option.bind_some,
            one_mul]
          exact word?_eq_some_iff.2 ⟨rfl, hfits⟩
    · obtain ⟨mark, sign, factor, digits, n, rfl, hmark, hsign, -, h,
        rfl⟩ := hsigned
      obtain ⟨hplus, hminus⟩ := h.head?_ne (by decide)
      obtain ⟨hfactor, hdigits⟩ := splitSign_append hsign hplus hminus
      rw [magnitude?_mark hmark, signedWord?_eq, hfactor, hdigits,
        (digits?_eq_some_iff (by decide)).2 h, Option.bind_some]
      exact word?_eq_some_iff.2 ⟨rfl, hfits⟩

end GamePack.Numeric
