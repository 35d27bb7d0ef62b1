import GamePack.Proofs.Encoding
import GamePack.Proofs.Numeric.Grammar
import Mathlib.Data.List.TakeWhile

/-!
What reading a text makes of it. The characters between the blanks at the
ends of a text are a literal of the grammar (`IsLiteral`), or a signed
word in place of one (`IsResigned`): the sign in front then changes the
sign of a word that may be negative already, and for the least word this
is the one step of reading that leaves its word. `parse_literals` says
exactly which texts are read, as what, and where that step is reached.
-/
namespace GamePack

-- ============================================================== blanks

namespace Text

/-- Characters of a text with nothing but blanks around them. -/
def IsWithin (text : String) (cs : List Char) : Prop :=
  ∃ left right, text.toList = left ++ cs ++ right ∧
    (∀ c ∈ left, isBlank c = true) ∧ ∀ c ∈ right, isBlank c = true

theorem dropWhile_append_of_blank {left cs : List Char}
    (hleft : ∀ c ∈ left, isBlank c = true)
    (hcs : ∀ c ∈ cs, isBlank c = false) :
    (left ++ cs).dropWhile isBlank = cs := by
  rw [List.dropWhile_append_of_pos hleft]
  cases cs with
  | nil => rfl
  | cons c cs =>
      have hc := hcs c List.mem_cons_self
      rw [List.dropWhile_cons_of_neg (by simp [hc])]

/-- Trimming takes the blanks around characters away that are none. -/
theorem trimChars_of_isWithin {text : String} {cs : List Char}
    (h : IsWithin text cs) (hcs : ∀ c ∈ cs, isBlank c = false) :
    trimChars text.toList = cs := by
  obtain ⟨left, right, htext, hleft, hright⟩ := h
  unfold trimChars
  rw [htext, List.append_assoc, List.dropWhile_append_of_pos hleft]
  cases cs with
  | nil =>
      have hnil : right.dropWhile isBlank = [] :=
        List.dropWhile_eq_nil_iff.2 hright
      rw [List.nil_append, hnil]
      rfl
  | cons c cs =>
      have hc := hcs c List.mem_cons_self
      rw [List.cons_append, List.dropWhile_cons_of_neg (by simp [hc]),
        ← List.cons_append, List.reverse_append,
        dropWhile_append_of_blank
          (fun d hd => hright d (List.mem_reverse.1 hd))
          (fun d hd => hcs d (List.mem_reverse.1 hd)),
        List.reverse_reverse]

/-- Only blanks are trimmed away. -/
theorem isWithin_trimChars (text : String) :
    IsWithin text (trimChars text.toList) := by
  have hleft := List.takeWhile_append_dropWhile
    (p := isBlank) (l := text.toList)
  have hright := List.takeWhile_append_dropWhile (p := isBlank)
    (l := (text.toList.dropWhile isBlank).reverse)
  refine ⟨text.toList.takeWhile isBlank,
    ((text.toList.dropWhile isBlank).reverse.takeWhile isBlank).reverse,
    ?_, fun c hc => ?_, fun c hc => ?_⟩
  · unfold trimChars
    rw [List.append_assoc, ← List.reverse_append, hright,
      List.reverse_reverse, hleft]
  · exact List.mem_takeWhile_imp hc
  · exact List.mem_takeWhile_imp (List.mem_reverse.1 hc)

end Text

namespace Numeric

open Text

variable {radix n : Nat} {c : Char} {cs body : List Char}
  {factor word v : Int}

-- =============================================================== texts

/-- A text that is a literal of the grammar with blanks around it, and
the value of the literal. -/
def IsLiteral (text : String) (v : Int) : Prop :=
  ∃ sign factor body n, IsWithin text (sign ++ body) ∧
    IsSign sign factor ∧ IsMagnitude body n ∧ v = factor * n

/-- A text with a signed word in place of a literal, and the word with
the factor of the sign in front of it. -/
def IsResigned (text : String) (factor word : Int) : Prop :=
  ∃ sign body, IsWithin text (sign ++ body) ∧ IsSign sign factor ∧
    IsSignedWord body word

/-- A text whose characters between the blanks are a word behind an
optional sign. -/
def IsRead (text : String) (factor word : Int) : Prop :=
  ∃ sign body, IsWithin text (sign ++ body) ∧ IsSign sign factor ∧
    IsWord body word

theorem IsSign.plain {sign : List Char} (h : IsSign sign factor)
    (hc : c ∈ sign) : isBlank c = false := by
  cases h with
  | none => cases hc
  | plus =>
      obtain rfl := List.mem_singleton.1 hc
      rfl
  | minus =>
      obtain rfl := List.mem_singleton.1 hc
      rfl

theorem IsMark.plain {mark : List Char} (h : IsMark mark)
    (hc : c ∈ mark) : isBlank c = false := by
  cases h
  all_goals
    simp only [List.mem_cons, List.not_mem_nil, or_false] at hc
    rcases hc with rfl | rfl
    all_goals rfl

theorem Spells.plain (h : Spells radix cs n) (hradix : radix ≤ 16)
    (hc : c ∈ cs) : isBlank c = false := by
  obtain ⟨d, hd⟩ := h.exists_digit hc
  exact (hd.plain hradix).1

/-- There is no blank inside a word. -/
theorem IsWord.plain (h : IsWord cs word) (hc : c ∈ cs) :
    isBlank c = false := by
  rcases h with ⟨n, hmagnitude, -⟩ | hsigned
  · cases hmagnitude with
    | decimal h => exact h.plain (by decide) hc
    | hexadecimal hmark h =>
        rcases List.mem_append.1 hc with hc | hc
        · exact hmark.plain hc
        · exact h.plain (by decide) hc
  · obtain ⟨mark, sign, _, digits, _, rfl, hmark, hsign, -, h, -⟩ :=
      hsigned
    rcases List.mem_append.1 hc with hc | hc
    · exact hmark.plain hc
    · rcases List.mem_append.1 hc with hc | hc
      · exact hsign.plain hc
      · exact h.plain (by decide) hc

/-- No word starts with a sign. -/
theorem IsWord.head?_ne (h : IsWord cs word) :
    cs.head? ≠ some '+' ∧ cs.head? ≠ some '-' := by
  have hmarked : ∀ mark rest, IsMark mark →
      (mark ++ rest).head? ≠ some '+' ∧
        (mark ++ rest).head? ≠ some '-' := by
    intro mark rest hmark
    cases hmark <;> simp
  rcases h with ⟨n, hmagnitude, -⟩ | hsigned
  · cases hmagnitude with
    | decimal h => exact h.head?_ne (by decide)
    | hexadecimal hmark h => exact hmarked _ _ hmark
  · obtain ⟨mark, _, _, _, _, rfl, hmark, -⟩ := hsigned
    exact hmarked _ _ hmark

/-- What a text is read as is found where the reader looks for it. -/
theorem split_of_isWithin {text : String} {sign : List Char}
    (htext : IsWithin text (sign ++ body)) (hsign : IsSign sign factor)
    (hword : IsWord body word) :
    signOf (trimChars text.toList) = factor ∧
      (splitSign (trimChars text.toList)).2 = body := by
  have htrim : trimChars text.toList = sign ++ body := by
    apply trimChars_of_isWithin htext
    intro c hc
    rcases List.mem_append.1 hc with hc | hc
    · exact hsign.plain hc
    · exact hword.plain hc
  obtain ⟨hplus, hminus⟩ := hword.head?_ne
  rw [htrim]
  exact splitSign_append hsign hplus hminus

/-- A text is read as a sign and a word in one way. -/
theorem isRead_iff {text : String} :
    IsRead text factor word ↔
      factor = signOf (trimChars text.toList) ∧
        IsWord (splitSign (trimChars text.toList)).2 word := by
  constructor
  · rintro ⟨sign, body, htext, hsign, hword⟩
    obtain ⟨hfactor, hbody⟩ := split_of_isWithin htext hsign hword
    rw [hfactor, hbody]
    exact ⟨rfl, hword⟩
  · rintro ⟨rfl, hword⟩
    obtain ⟨sign, hcs, hsign⟩ := exists_sign (trimChars text.toList)
    refine ⟨sign, _, ?_, hsign, hword⟩
    rw [← hcs]
    exact isWithin_trimChars text

/-- A text is read as a literal or as a resigned word. -/
theorem isRead_cases {text : String} :
    IsRead text factor word ↔
      (∃ sign body n, IsWithin text (sign ++ body) ∧
        IsSign sign factor ∧ IsMagnitude body n ∧ word = n) ∨
      IsResigned text factor word := by
  constructor
  · rintro ⟨sign, body, htext, hsign, ⟨n, hmagnitude, hword⟩ | hsigned⟩
    · exact .inl ⟨sign, body, n, htext, hsign, hmagnitude, hword⟩
    · exact .inr ⟨sign, body, htext, hsign, hsigned⟩
  · rintro (⟨sign, body, n, htext, hsign, hmagnitude, hword⟩ |
      ⟨sign, body, htext, hsign, hsigned⟩)
    · exact ⟨sign, body, htext, hsign, .inl ⟨n, hmagnitude, hword⟩⟩
    · exact ⟨sign, body, htext, hsign, .inr hsigned⟩

-- ============================================================== values

/-- A text without a word is unreadable. -/
theorem parse_of_none {n : Numeric} {text : String}
    (h : magnitude? (splitSign (trimChars text.toList)).2 = none) :
    n.parse text = .error (.value (.unreadable text n.name)) := by
  unfold parse
  simp only [h]

/-- A text with a word is checked as the word with its sign; the sign in
front of the least word is a panic. -/
theorem parse_of_some {n : Numeric} {text : String}
    (h : magnitude? (splitSign (trimChars text.toList)).2 = some word) :
    n.parse text =
      if signOf (trimChars text.toList) = -1 ∧ word = wordMin then
        .error (.panic "negation")
      else (n.check (signOf (trimChars text.toList) * word)).mapError
        .value := by
  unfold parse signOf
  simp only [h]
  cases (splitSign (trimChars text.toList)).1 <;> simp

theorem signOf_eq (cs : List Char) : signOf cs = 1 ∨ signOf cs = -1 := by
  unfold signOf
  cases (splitSign cs).1 <;> simp

/-- A text has a value when what it is read as lies in range. -/
theorem parse_ok_iff {n : Numeric} {text : String} :
    n.parse text = .ok v ↔
      (∃ factor word, IsRead text factor word ∧ v = factor * word) ∧
        n.min ≤ v ∧ v ≤ n.max := by
  simp only [isRead_iff]
  constructor
  · intro h
    cases hword : magnitude? (splitSign (trimChars text.toList)).2 with
    | none =>
        rw [parse_of_none hword] at h
        cases h
    | some word =>
        rw [parse_of_some hword] at h
        split at h
        · cases h
        · obtain ⟨rfl, hrange⟩ := check_ok_iff.1 (mapError_ok_iff.1 h)
          exact ⟨⟨_, word, ⟨rfl, (magnitude?_eq_some_iff.1 hword).1⟩,
            rfl⟩, hrange⟩
  · rintro ⟨⟨_, word, ⟨rfl, hword⟩, rfl⟩, hrange⟩
    -- a value in range is far inside the words of 64 bits
    have hbounds := range_bounds n
    have hfits : wordMin < word ∧ word ≤ wordMax := by
      unfold wordMin wordMax
      rcases signOf_eq (trimChars text.toList) with hsign | hsign
      all_goals
        rw [hsign] at hrange
        omega
    have hsome := magnitude?_eq_some_iff.2
      ⟨hword, Int.le_of_lt hfits.1, hfits.2⟩
    rw [parse_of_some hsome, if_neg (by omega)]
    exact mapError_ok_iff.2 (check_ok_iff.2 ⟨rfl, hrange⟩)

/-- Reading panics exactly where the least word is negated. -/
theorem parse_panic_iff {n : Numeric} {text step : String} :
    n.parse text = .error (.panic step) ↔
      step = "negation" ∧ IsRead text (-1) wordMin := by
  rw [isRead_iff]
  constructor
  · intro h
    cases hword : magnitude? (splitSign (trimChars text.toList)).2 with
    | none =>
        rw [parse_of_none hword] at h
        cases h
    | some word =>
        rw [parse_of_some hword] at h
        split at h
        next hleast =>
          obtain ⟨hsign, rfl⟩ := hleast
          cases h
          exact ⟨rfl, hsign.symm, (magnitude?_eq_some_iff.1 hword).1⟩
        next =>
          obtain ⟨cause, -, hcause⟩ := mapError_error_iff.1 h
          cases hcause
  · rintro ⟨rfl, hsign, hword⟩
    have hsome := magnitude?_eq_some_iff.2
      ⟨hword, Int.le_refl _, by decide⟩
    rw [parse_of_some hsome, if_pos ⟨hsign.symm, rfl⟩]

/-- A text that is read as nothing is refused as unreadable. -/
theorem parse_unreadable {n : Numeric} {text : String}
    (h : ∀ factor word, ¬ IsRead text factor word) :
    n.parse text = .error (.value (.unreadable text n.name)) := by
  cases hword : magnitude? (splitSign (trimChars text.toList)).2 with
  | none => exact parse_of_none hword
  | some word =>
      have hread := isRead_iff.2 ⟨rfl, (magnitude?_eq_some_iff.1 hword).1⟩
      exact absurd hread (h _ _)

/-- What a text is read as has the value of a literal or of a resigned
word. -/
theorem exists_isRead_iff {text : String} :
    (∃ factor word, IsRead text factor word ∧ v = factor * word) ↔
      IsLiteral text v ∨
        ∃ factor word, IsResigned text factor word ∧ v = factor * word := by
  simp only [isRead_cases]
  constructor
  · rintro ⟨factor, word, ⟨sign, body, n, htext, hsign, hn, rfl⟩ | h, rfl⟩
    · exact .inl ⟨sign, factor, body, n, htext, hsign, hn, rfl⟩
    · exact .inr ⟨factor, word, h, rfl⟩
  · rintro (⟨sign, factor, body, n, htext, hsign, hn, rfl⟩ |
      ⟨factor, word, h, rfl⟩)
    · exact ⟨factor, n, .inl ⟨sign, body, n, htext, hsign, hn, rfl⟩, rfl⟩
    · exact ⟨factor, word, .inr h, rfl⟩

/-- A text has the value `v` exactly when it is a literal of the grammar
or a resigned word, of this value, and the value lies in range; every
other text is refused. The least word behind a minus sign is the only
place where reading panics, and only a resigned word can be that. So a
text without a sign behind its mark is read by the grammar alone, without
a panic, and refused as unreadable when it is no literal. -/
theorem parse_literals (n : Numeric) (text : String) :
    (∀ v, n.parse text = .ok v ↔
      (IsLiteral text v ∨
        ∃ factor word, IsResigned text factor word ∧ v = factor * word) ∧
      n.min ≤ v ∧ v ≤ n.max) ∧
    (∀ step, n.parse text = .error (.panic step) ↔
      step = "negation" ∧ IsResigned text (-1) wordMin) ∧
    ((∀ factor word, ¬ IsResigned text factor word) →
      (∀ v, n.parse text = .ok v ↔
        IsLiteral text v ∧ n.min ≤ v ∧ v ≤ n.max) ∧
      (∀ step, n.parse text ≠ .error (.panic step)) ∧
      ((∀ v, ¬ IsLiteral text v) →
        n.parse text = .error (.value (.unreadable text n.name)))) := by
  have hok : ∀ v, n.parse text = .ok v ↔
      (IsLiteral text v ∨
        ∃ factor word, IsResigned text factor word ∧ v = factor * word) ∧
      n.min ≤ v ∧ v ≤ n.max := by
    intro v
    rw [parse_ok_iff, exists_isRead_iff]
  have hpanic : ∀ step, n.parse text = .error (.panic step) ↔
      step = "negation" ∧ IsResigned text (-1) wordMin := by
    intro step
    rw [parse_panic_iff, isRead_cases]
    constructor
    · rintro ⟨hstep, ⟨_, _, n, _, _, _, hleast⟩ | h⟩
      · -- what the grammar knows behind a sign is never negative
        unfold wordMin at hleast
        omega
      · exact ⟨hstep, h⟩
    · exact fun h => ⟨h.1, .inr h.2⟩
  refine ⟨hok, hpanic, fun hplain => ⟨fun v => ?_, fun step => ?_,
    fun hnone => ?_⟩⟩
  · rw [hok]
    constructor
    · rintro ⟨h | ⟨factor, word, h, -⟩, hrange⟩
      · exact ⟨h, hrange⟩
      · exact absurd h (hplain factor word)
    · exact fun h => ⟨.inl h.1, h.2⟩
  · rw [ne_eq, hpanic]
    exact fun h => hplain _ _ h.2
  · apply parse_unreadable
    intro factor word hread
    rcases exists_isRead_iff.1 ⟨factor, word, hread, rfl⟩ with h | h
    · exact hnone _ h
    · obtain ⟨factor, word, h, -⟩ := h
      exact hplain _ _ h

theorem isLiteral_padded : IsLiteral "\t-0X1f " (-31) := by
  refine ⟨['-'], -1, ['0', 'X', '1', 'f'], 31, ?_, .minus, ?_, rfl⟩
  · exact ⟨['\t'], [' '], by decide, List.forall_mem_singleton.2 rfl,
      List.forall_mem_singleton.2 rfl⟩
  · exact .hexadecimal .upper ((digits?_eq_some_iff (by decide)).1 rfl)

theorem not_isResigned_padded (factor word : Int) :
    ¬ IsResigned "\t-0X1f " factor word := by
  rintro ⟨sign, body, htext, hsign, hsigned⟩
  obtain ⟨-, hbody⟩ := split_of_isWithin htext hsign (.inr hsigned)
  obtain ⟨mark, inner, _, digits, _, rfl, hmark, hinner, hne, -, -⟩ :=
    hsigned
  have hchars : ['0', 'X', '1', 'f'] = mark ++ (inner ++ digits) := hbody
  cases hmark
  all_goals cases hinner <;> simp at hchars hne

/-- A literal with blanks, a sign and a mark is read by the grammar, and
ends in no panic for a type that does not hold its number. -/
theorem parse_literals_padded :
    (∀ factor word, ¬ IsResigned "\t-0X1f " factor word) ∧
      IsLiteral "\t-0X1f " (-31) ∧
      int8.parse "\t-0X1f " = .ok (-31) ∧
      ∀ step, uint8.parse "\t-0X1f " ≠ .error (.panic step) := by
  obtain ⟨hok, -, -⟩ :=
    (parse_literals int8 "\t-0X1f ").2.2 not_isResigned_padded
  obtain ⟨-, hpanic, -⟩ :=
    (parse_literals uint8 "\t-0X1f ").2.2 not_isResigned_padded
  exact ⟨not_isResigned_padded, isLiteral_padded,
    (hok (-31)).2 ⟨isLiteral_padded, by decide, by decide⟩, hpanic⟩

/-- A sign behind the mark is taken, and with a minus sign in front of the
least word it makes reading panic, though neither text is a literal of
the grammar. -/
theorem parse_resigned :
    int16.parse "0x-10" = .ok (-16) ∧ (∀ v, ¬ IsLiteral "0x-10" v) ∧
      int16.parse "-0x-8000000000000000" =
        .error (.panic "negation") := by
  refine ⟨by decide, ?_, by decide⟩
  rintro v ⟨sign, factor, body, n, htext, hsign, hn, -⟩
  obtain ⟨-, hbody⟩ :=
    split_of_isWithin htext hsign (.inl ⟨n, hn, rfl⟩)
  have hchars : ['0', 'x', '-', '1', '0'] = body := hbody
  cases hn with
  | decimal h =>
      have hnone : digits? 10 ['0', 'x', '-', '1', '0'] = none := rfl
      rw [← hchars, ← digits?_eq_some_iff (by decide), hnone] at h
      cases h
  | hexadecimal hmark h =>
      cases hmark with
      | upper => simp at hchars
      | lower =>
          have hnone : digits? 16 ['-', '1', '0'] = none := rfl
          have hdigits := List.append_cancel_left
            (show ['0', 'x'] ++ ['-', '1', '0'] = ['0', 'x'] ++ _ from
              hchars)
          rw [← hdigits, ← digits?_eq_some_iff (by decide), hnone] at h
          cases h

end Numeric
end GamePack
