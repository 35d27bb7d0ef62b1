import GamePack.Bytes
import GamePack.Error
import GamePack.Text.Blank

/-!
The six integer encodings. A number type has a width in bytes and a
range; a value inside the range is stored as an unsigned or two's
complement word, and a literal is read by a small grammar: white space
around it, a sign, then decimal digits, or `0x` and a hexadecimal word.
-/
namespace GamePack

/-- One of the six fixed-width integer encodings. -/
inductive Numeric where
  | int8 | uint8 | int16 | uint16 | int32 | uint32
  deriving DecidableEq, Repr, Inhabited

namespace Numeric

/-- All number types, in the order they are registered. -/
def all : List Numeric := [int8, uint8, int16, uint16, int32, uint32]

/-- The name of a number type in a schema. -/
def name : Numeric → String
  | int8 => "int8"
  | uint8 => "uint8"
  | int16 => "int16"
  | uint16 => "uint16"
  | int32 => "int32"
  | uint32 => "uint32"

/-- The number type of a name. -/
def ofName? (name : String) : Option Numeric :=
  all.find? fun n => n.name == name

/-- Width in bytes. -/
def size : Numeric → Nat
  | int8 | uint8 => 1
  | int16 | uint16 => 2
  | int32 | uint32 => 4

/-- Width in bits. -/
def bits (n : Numeric) : Nat := n.size * 8

/-- Whether the highest bit is a sign. -/
def isSigned : Numeric → Bool
  | int8 | int16 | int32 => true
  | uint8 | uint16 | uint32 => false

/-- The least value. -/
def min (n : Numeric) : Int :=
  if n.isSigned then -((wordCount n.size / 2 : Nat) : Int) else 0

/-- The greatest value. -/
def max (n : Numeric) : Int :=
  if n.isSigned then ((wordCount n.size / 2 : Nat) : Int) - 1
  else (wordCount n.size : Int) - 1

/-- The value itself when it is in range. -/
def check (n : Numeric) (value : Int) : Except ValueError Int :=
  if value < n.min ∨ n.max < value then
    .error (.outOfRange value n.name n.min n.max)
  else .ok value

-- ========================================================== literals

/-- The value of a digit in a radix of at most sixteen. -/
def digit? (radix : Nat) (c : Char) : Option Nat :=
  let n := c.toNat
  let value :=
    if 0x30 ≤ n ∧ n ≤ 0x39 then n - 0x30
    else if 0x61 ≤ n ∧ n ≤ 0x66 then n - 0x61 + 10
    else if 0x41 ≤ n ∧ n ≤ 0x46 then n - 0x41 + 10
    else radix
  if value < radix then some value else none

/-- The number that follows `acc` when digits are appended to it. -/
def appendDigits? (radix acc : Nat) : List Char → Option Nat
  | [] => some acc
  | c :: rest =>
    match digit? radix c with
    | none => none
    | some d => appendDigits? radix (acc * radix + d) rest

/-- The number that one or more digits spell. -/
def digits? (radix : Nat) (cs : List Char) : Option Nat :=
  if cs.isEmpty then none else appendDigits? radix 0 cs

/-- The least number of a signed 64 bit word. -/
def wordMin : Int := -0x8000000000000000

/-- The greatest number of a signed 64 bit word. -/
def wordMax : Int := 0x7fffffffffffffff

/-- A number that fits a signed 64 bit word. -/
def word? (value : Int) : Option Int :=
  if wordMin ≤ value ∧ value ≤ wordMax then some value else none

/-- A signed 64 bit word in a radix: digits, which may have a sign. -/
def signedWord? (radix : Nat) : List Char → Option Int
  | '+' :: rest => (digits? radix rest).bind fun n => word? n
  | '-' :: rest => (digits? radix rest).bind fun n => word? (-n)
  | rest => (digits? radix rest).bind fun n => word? n

/-- The word after the outer sign of a literal. -/
def magnitude? : List Char → Option Int
  | '0' :: 'x' :: hex => signedWord? 16 hex
  | '0' :: 'X' :: hex => signedWord? 16 hex
  | cs => (digits? 10 cs).bind fun n => word? n

/-- The outer sign of a literal, and what follows it. -/
def splitSign : List Char → Bool × List Char
  | '-' :: rest => (true, rest)
  | '+' :: rest => (false, rest)
  | rest => (false, rest)

/-- The value of a literal, when it is one and lies in range. The least
word cannot be negated. -/
def parse (n : Numeric) (text : String) : Except Error Int :=
  let (negative, cs) := splitSign (Text.trimChars text.toList)
  match magnitude? cs with
  | none => .error (.value (.unreadable text n.name))
  | some magnitude =>
    if negative then
      if magnitude = wordMin then .error (.panic "negation")
      else (n.check (-magnitude)).mapError .value
    else (n.check magnitude).mapError .value

-- ========================================================== encoding

/-- The bytes of a value; one out of range is refused. -/
def encode (n : Numeric) (value : Int) : Except ValueError Bytes :=
  match n.check value with
  | .error cause => .error cause
  | .ok value => .ok (leBytes n.size (wordOfInt n.size value))

/-- The value that a word of this type stands for. -/
def ofWord (n : Numeric) (word : Nat) : Int :=
  if n.isSigned then intOfWord n.size word else word

theorem check_ok_iff {n : Numeric} {value result : Int} :
    n.check value = .ok result ↔
      result = value ∧ n.min ≤ value ∧ value ≤ n.max := by
  unfold check
  split
  · simp only [reduceCtorEq, false_iff]
    omega
  · simp only [Except.ok.injEq]
    constructor
    · intro h
      exact ⟨h.symm, by omega, by omega⟩
    · intro h
      exact h.1.symm

end Numeric

end GamePack
