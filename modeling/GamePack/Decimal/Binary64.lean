/-!
Binary floating point numbers of 64 bits, and their decimal text. A
finite number is a whole significand of at most 53 bits times a power of
two. A decimal is read as the nearest such number, ties going to the
even significand; a number is written with the fewest digits that read
back as the same number, and of those with the digits nearest to it.
-/
namespace GamePack.Decimal

/-- A binary floating point number. -/
inductive Binary64 where
  | finite (negative : Bool) (significand : Nat) (exponent : Int)
  | infinite (negative : Bool)
  | nan
  deriving DecidableEq, Repr, Inhabited

namespace Binary64

/-- The least exponent of a finite number. -/
def minExponent : Int := -1074

/-- The greatest exponent of a finite number. -/
def maxExponent : Int := 971

/-- The least number that has more than 53 bits. -/
def significandLimit : Nat := 0x20000000000000

/-- The least significand of a number that is not close to zero. -/
def significandStart : Nat := 0x10000000000000

/-- Zero, with a sign. -/
def zero (negative : Bool) : Binary64 := .finite negative 0 minExponent

/-- The numerator and the denominator of a power. -/
def powerRatio (base : Nat) (e : Int) : Nat × Nat :=
  if 0 ≤ e then (Nat.pow base e.toNat, 1) else (1, Nat.pow base (-e).toNat)

-- =========================================================== reading

/-- A quotient rounded to the nearest whole number, ties to even. -/
def roundDiv (num den : Nat) : Nat :=
  let q := num / den
  let r := num % den
  if 2 * r < den then q
  else if den < 2 * r then q + 1
  else if q % 2 = 0 then q else q + 1

/-- A quotient in units of two to the power of an exponent, before it is
rounded. -/
def inUnits (num den : Nat) (e : Int) : Nat × Nat :=
  let (p, q) := powerRatio 2 e
  (num * q, den * p)

/-- The exponent that leaves 53 bits before the point, or the least. -/
def exponentOf (num den : Nat) : Int :=
  let guess := max minExponent ((num.log2 : Int) - den.log2 - 53)
  let (n, d) := inUnits num den guess
  if significandLimit ≤ n / d then guess + 1 else guess

/-- The number nearest to a quotient, when it is not too large. -/
def ofRatio? (negative : Bool) (num den : Nat) : Option Binary64 :=
  if num = 0 then some (zero negative)
  else
    let e := exponentOf num den
    let (n, d) := inUnits num den e
    let m := roundDiv n d
    let (m, e) :=
      if m = significandLimit then (significandStart, e + 1) else (m, e)
    if maxExponent < e then none else some (.finite negative m e)

/-- The number nearest to a decimal. Powers of ten far outside the range
are not computed. -/
def ofDecimal? (negative : Bool) (digits : Nat) (e : Int) :
    Option Binary64 :=
  let size : Int := (Nat.toDigits 10 digits).length
  if digits = 0 then some (zero negative)
  else if 310 < e + size then none
  else if e + size < -330 then some (zero negative)
  else
    let (p, q) := powerRatio 10 e
    ofRatio? negative (digits * p) q

/-- Whether a character is a decimal digit. -/
def isDigit (c : Char) : Bool := '0' ≤ c && c ≤ '9'

/-- The number that decimal digits spell. -/
def digitsValue (cs : List Char) : Nat :=
  cs.foldl (fun n c => 10 * n + (c.toNat - 0x30)) 0

/-- A sign in front of a text, and the text after it. -/
def splitSign : List Char → Bool × List Char
  | '-' :: rest => (true, rest)
  | '+' :: rest => (false, rest)
  | rest => (false, rest)

/-- The exponent at the end of a decimal, if what is there is one. -/
def exponentPart? : List Char → Option Int
  | [] => some 0
  | c :: rest =>
    if c = 'e' ∨ c = 'E' then
      let (negative, digits) := splitSign rest
      if digits.isEmpty || !digits.all isDigit then none
      else
        let n : Int := digitsValue digits
        some (if negative then -n else n)
    else none

/-- The finite number that a text spells: a sign, digits with a point
among or beside them, and an exponent. -/
def ofChars? (cs : List Char) : Option Binary64 := do
  let (negative, cs) := splitSign cs
  let whole := cs.takeWhile isDigit
  let (part, rest) := match cs.dropWhile isDigit with
    | '.' :: more => (more.takeWhile isDigit, more.dropWhile isDigit)
    | more => ([], more)
  if whole.isEmpty && part.isEmpty then none
  let e ← exponentPart? rest
  ofDecimal? negative (digitsValue (whole ++ part)) (e - part.length)

-- =========================================================== writing

/-- The numbers that read as a finite number, between two bounds in
units of a quarter of its last place; whether the bounds belong to
them. -/
structure Interval where
  low : Nat
  middle : Nat
  high : Nat
  closed : Bool

/-- The numbers that read as a significand and an exponent. Below a
power of two numbers lie twice as close. -/
def interval (m : Nat) (e : Int) : Interval :=
  { low :=
      if m = significandStart ∧ e ≠ minExponent then 4 * m - 1
      else 4 * m - 2
    middle := 4 * m
    high := 4 * m + 2
    closed := m % 2 = 0 }

/-- Whether a decimal, scaled like the bounds, lies in an interval. -/
def Interval.holds (i : Interval) (unit : Nat) (x : Nat) : Bool :=
  if i.closed then i.low * unit ≤ x && x ≤ i.high * unit
  else i.low * unit < x && x < i.high * unit

/-- The decimal of a number of digits that reads back, if there is one,
with its power of ten. `point` is the power of ten of the first digit. -/
def shortestAt? (i : Interval) (e point : Int) (count : Nat) :
    Option (Nat × Int) :=
  let k := point - count + 1
  let (un, ud) := powerRatio 2 (e - 2)
  let (dn, dd) := powerRatio 10 k
  let unit := un * dd
  let step := dn * ud
  let below := i.middle * unit / step
  let lower := i.holds unit (below * step)
  let upper := i.holds unit ((below + 1) * step)
  if lower && upper then
    let toLower := i.middle * unit - below * step
    let toUpper := (below + 1) * step - i.middle * unit
    if toLower < toUpper || (toLower == toUpper && below % 2 == 0) then
      some (below, k)
    else some (below + 1, k)
  else if lower then some (below, k)
  else if upper then some (below + 1, k)
  else none

/-- The power of ten of the first digit of a positive quotient; `fuel`
bounds how small it may be. -/
def firstPlace (fuel num den : Nat) : Int :=
  if den ≤ num then ((Nat.toDigits 10 (num / den)).length : Int) - 1
  else match fuel with
    | 0 => 0
    | fuel + 1 => firstPlace fuel (num * 10) den - 1

/-- The fewest digits that read back as a positive number, and the power
of ten of the last of them. Seventeen digits always read back. -/
def shortest (m : Nat) (e : Int) : Nat × Int :=
  let (p, q) := powerRatio 2 e
  let point := firstPlace 400 (m * p) q
  match (List.range' 1 17).findSome? (shortestAt? (interval m e) e point) with
  | some (digits, k) => strip 20 digits k
  | none => (0, 0)
where
  /-- Take zeros off the end. -/
  strip : Nat → Nat → Int → Nat × Int
    | 0, digits, k => (digits, k)
    | fuel + 1, digits, k =>
      if digits ≠ 0 ∧ digits % 10 = 0 then strip fuel (digits / 10) (k + 1)
      else (digits, k)

/-- How decimals are laid out: the powers of ten of the point that keep
a number without an exponent. -/
structure Layout where
  /-- A number below one may have this many places from the point to its
  first digit. -/
  leadingZeros : Int
  /-- Digits in front of the point, at most. -/
  wholeDigits : Int

/-- Up to sixteen digits stand in front of the point, and up to four
zeros behind it. -/
def layout : Layout := ⟨4, 16⟩

/-- The text of digits whose last has a power of ten. -/
def place (digits : List Char) (k : Int) : List Char :=
  let count : Int := digits.length
  let point := count + k
  if 0 ≤ k ∧ point ≤ layout.wholeDigits then
    digits ++ List.replicate k.toNat '0' ++ ['.', '0']
  else if 0 < point ∧ point ≤ layout.wholeDigits then
    digits.take point.toNat ++ '.' :: digits.drop point.toNat
  else if -layout.leadingZeros ≤ point ∧ point ≤ 0 then
    ['0', '.'] ++ List.replicate (-point).toNat '0' ++ digits
  else
    let exponent := 'e' :: (toString (point - 1)).toList
    match digits with
    | [] => exponent
    | [d] => d :: exponent
    | d :: more => d :: '.' :: (more ++ exponent)

/-- The text of a number. -/
def text : Binary64 → String
  | .nan => ".nan"
  | .infinite negative => if negative then "-.inf" else ".inf"
  | .finite negative m e =>
    let digits :=
      if m = 0 then ['0', '.', '0']
      else
        let (n, k) := shortest m e
        place (Nat.toDigits 10 n) k
    String.ofList (if negative then '-' :: digits else digits)

/-- Whether two numbers count as equal: the zeros do, and no number
differs from itself. -/
def same : Binary64 → Binary64 → Bool
  | .finite _ 0 _, .finite _ 0 _ => true
  | a, b => a == b

end Binary64

end GamePack.Decimal
