import GamePack.Error
import GamePack.Sprite.Region
import Mathlib.Tactic

/-!
Steps in machine words. A sum, difference, product or shift of words is
taken in numbers first; where that does not fit the word, the step panics
under its own name, and else its result is the word of this number. What
is computed in words can so be proved equal to what is computed in
numbers, and where it is not, the failing step is named.
-/
namespace GamePack

/-- The sum of two words, when it fits a word. -/
def addWords (step : String) (a b : UInt32) : Except Error UInt32 :=
  if 0x100000000 ≤ a.toNat + b.toNat then .error (.panic step)
  else .ok (a + b)

/-- The difference of two words, when it is not negative. -/
def subWords (step : String) (a b : UInt32) : Except Error UInt32 :=
  if a.toNat < b.toNat then .error (.panic step) else .ok (a - b)

/-- The product of two words, when it fits a word. -/
def mulWords (step : String) (a b : UInt32) : Except Error UInt32 :=
  if 0x100000000 ≤ a.toNat * b.toNat then .error (.panic step)
  else .ok (a * b)

/-- The quotient of two words, when the divisor is not zero. -/
def divWords (step : String) (a b : UInt32) : Except Error UInt32 :=
  if b.toNat = 0 then .error (.panic step) else .ok (a / b)

/-- The remainder of two words, when the divisor is not zero. -/
def modWords (step : String) (a b : UInt32) : Except Error UInt32 :=
  if b.toNat = 0 then .error (.panic step) else .ok (a % b)

/-- The sum of two signed words, when it fits a signed word. -/
def addSigned (step : String) (a b : Int32) : Except Error Int32 :=
  if Sprite.Region.fitsWord (a.toInt + b.toInt) then .ok (a + b)
  else .error (.panic step)

/-- A word shifted to the left, by less than its width and when it loses
no bit. -/
def shiftWord (step : String) (word : UInt64) (amount : UInt32) :
    Except Error UInt64 :=
  if 64 ≤ amount.toNat then .error (.panic step)
  else if 0x10000000000000000 ≤ word.toNat <<< amount.toNat then
    .error (.panic step)
  else .ok (word <<< amount.toUInt64)

theorem addWords_ok (step : String) {a b : UInt32}
    (h : a.toNat + b.toNat < 0x100000000) :
    ∃ c, addWords step a b = .ok c ∧ c.toNat = a.toNat + b.toNat := by
  refine ⟨a + b, if_neg (by omega), ?_⟩
  rw [UInt32.toNat_add]
  exact Nat.mod_eq_of_lt h

theorem subWords_ok (step : String) {a b : UInt32}
    (h : b.toNat ≤ a.toNat) :
    ∃ c, subWords step a b = .ok c ∧ c.toNat = a.toNat - b.toNat := by
  refine ⟨a - b, if_neg (by omega), ?_⟩
  exact UInt32.toNat_sub_of_le _ _ (UInt32.le_iff_toNat_le.2 h)

theorem mulWords_ok (step : String) {a b : UInt32}
    (h : a.toNat * b.toNat < 0x100000000) :
    ∃ c, mulWords step a b = .ok c ∧ c.toNat = a.toNat * b.toNat := by
  refine ⟨a * b, if_neg (by omega), ?_⟩
  rw [UInt32.toNat_mul]
  exact Nat.mod_eq_of_lt h

/-- A product that is no word ends in a panic. -/
theorem mulWords_error (step : String) {a b : UInt32}
    (h : 0x100000000 ≤ a.toNat * b.toNat) :
    mulWords step a b = .error (.panic step) :=
  if_pos h

theorem divWords_ok (step : String) (a : UInt32) {b : UInt32}
    (h : b.toNat ≠ 0) :
    ∃ c, divWords step a b = .ok c ∧ c.toNat = a.toNat / b.toNat :=
  ⟨a / b, if_neg h, UInt32.toNat_div a b⟩

theorem modWords_ok (step : String) (a : UInt32) {b : UInt32}
    (h : b.toNat ≠ 0) :
    ∃ c, modWords step a b = .ok c ∧ c.toNat = a.toNat % b.toNat :=
  ⟨a % b, if_neg h, UInt32.toNat_mod a b⟩

theorem addSigned_ok (step : String) {a b : Int32}
    (h : Sprite.Region.fitsWord (a.toInt + b.toInt) = true) :
    ∃ c, addSigned step a b = .ok c ∧ c.toInt = a.toInt + b.toInt := by
  refine ⟨a + b, if_pos h, ?_⟩
  simp only [Sprite.Region.fitsWord, Bool.and_eq_true,
    decide_eq_true_eq] at h
  rw [Int32.toInt_add]
  exact Int.bmod_eq_of_le (by omega) (by omega)

/-- Shifting a word by less than its bits is exact while no bit falls
out. -/
theorem shiftWord_ok (step : String) (word : UInt64) {amount : UInt32}
    {k : Nat} (hamount : amount.toNat = k) (hk : k < 64)
    (h : word.toNat <<< k < 0x10000000000000000) :
    ∃ w, shiftWord step word amount = .ok w ∧
      w.toNat = word.toNat <<< k := by
  subst hamount
  refine ⟨word <<< amount.toUInt64, ?_, ?_⟩
  · unfold shiftWord
    rw [if_neg (by omega), if_neg (by omega)]
  · rw [UInt64.toNat_shiftLeft, UInt32.toNat_toUInt64,
      Nat.mod_eq_of_lt hk]
    exact Nat.mod_eq_of_lt h

end GamePack
