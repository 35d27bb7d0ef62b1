import GamePack.Decimal.Binary64
import GamePack.Text.Quoted
import GamePack.Yaml.Node

/-!
Values of YAML documents whose shape is not known in advance. A plain
scalar is null, a boolean, a whole number or a floating point number
when it is written like one, and a string otherwise; other scalars are
strings. A decimal with a leading zero is a string.

A value is read in one of two ways. `Node.value` keeps local tags and
refuses a key that occurs twice; `Node.choice` is for places that accept
several shapes: it refuses local tags and keeps all keys, as the shape
that is chosen decides about them.
-/
namespace GamePack.Yaml

open Decimal

/-- A value. Entries are kept in the order of the document. -/
inductive Value where
  | null
  | bool (b : Bool)
  | int (n : Int)
  | float (f : Binary64)
  | string (s : String)
  | sequence (items : List Value)
  | mapping (entries : List (Value × Value))
  /-- A value under a local tag. -/
  | tagged (tag : String) (value : Value)
  deriving Repr, Inhabited

-- ====================================================== plain scalars

/-- Whether a text is written like null. -/
def isNull (s : String) : Bool := ["~", "null", "Null", "NULL"].contains s

/-- The boolean that a text is written like. -/
def bool? (s : String) : Option Bool :=
  if ["true", "True", "TRUE"].contains s then some true
  else if ["false", "False", "FALSE"].contains s then some false
  else none

/-- The value of a digit in a radix of at most sixteen. -/
def digit? (radix : Nat) (c : Char) : Option Nat :=
  (Cursor.hexDigit? c).filter (· < radix)

/-- The number that one or more digits spell. -/
def digits? (radix : Nat) (cs : List Char) : Option Nat :=
  if cs.isEmpty then none
  else cs.foldlM (fun n c => (digit? radix c).map (radix * n + ·)) 0

/-- The number after a mark of its radix. -/
def marked? : List Char → Option Nat
  | '0' :: 'x' :: cs => digits? 16 cs
  | '0' :: 'o' :: cs => digits? 8 cs
  | '0' :: 'b' :: cs => digits? 2 cs
  | _ => none

/-- A text without one sign in front. -/
def unsigned : List Char → List Char
  | '-' :: cs => cs
  | '+' :: cs => cs
  | cs => cs

/-- Whether a text, after a sign, is several digits of which the first
is zero. -/
def hasLeadingZero (cs : List Char) : Bool :=
  match unsigned cs with
  | '0' :: c :: more => (c :: more).all Binary64.isDigit
  | _ => false

/-- The whole number that a text without a minus is written like. -/
def natural? (cs : List Char) : Option Nat :=
  let body := match cs with
    | '+' :: rest => rest
    | _ => cs
  match marked? body with
  | some n => some n
  | none => if hasLeadingZero cs then none else digits? 10 body

/-- The number after a minus that a text is written like. -/
def negated? : List Char → Option Nat
  | '-' :: body =>
    match marked? body with
    | some n => some n
    | none => if hasLeadingZero body then none else digits? 10 body
  | _ => none

/-- How many values a word of 64 bits has. -/
def wideCount : Nat := 0x10000000000000000

/-- A whole number of at most 64 bits, with a sign if it is negative. -/
def int? (cs : List Char) : Option Int :=
  match natural? cs, negated? cs with
  | some n, _ => if n < wideCount then some n else none
  | none, some n => if n ≤ wideCount / 2 then some (-(n : Int)) else none
  | none, none => none

/-- Whether a text is a whole number that needs more than 64 bits but
not more than 128. -/
def isWideInt (cs : List Char) : Bool :=
  match natural? cs, negated? cs with
  | some n, _ => wideCount ≤ n && n < wideCount * wideCount
  | none, some n => wideCount / 2 < n && n ≤ wideCount * wideCount / 2
  | none, none => false

/-- The floating point number that a text is written like. -/
def float? (s : String) : Option Binary64 :=
  let cs := s.toList
  let body := match cs with
    | '+' :: rest => rest
    | _ => cs
  if body.length < cs.length && body.head?.any ['+', '-'].contains then none
  else if [".inf", ".Inf", ".INF"].contains (String.ofList body) then
    some (.infinite false)
  else if ["-.inf", "-.Inf", "-.INF"].contains s then some (.infinite true)
  else if [".nan", ".NaN", ".NAN"].contains s then some .nan
  else Binary64.ofChars? body

/-- The value of a plain scalar without a tag. -/
def plainValue (s : String) : Except Fault Value :=
  let cs := s.toList
  if s.isEmpty || isNull s then .ok .null
  else match bool? s, int? cs with
    | some b, _ => .ok (.bool b)
    | none, some n => .ok (.int n)
    | none, none =>
      if isWideInt cs then .error (.unexpected "a number of 64 bits")
      else match if hasLeadingZero cs then none else float? s with
        | some f => .ok (.float f)
        | none => .ok (.string s)

-- ============================================================== tags

/-- The name of a local tag. -/
def localTag? (tag : Option Tag) : Option String := tag.bind Tag.name?

/-- A value that must be there. -/
def need {α : Type} (wanted : String) : Option α → Except Fault α
  | some a => .ok a
  | none => .error (.unexpected wanted)

/-- The value of a scalar without a tag. -/
def bareValue (style : Style) (s : String) : Except Fault Value :=
  if style = .plain then plainValue s else .ok (.string s)

/-- The value of a scalar; a local tag makes no difference to it. -/
def scalarValue (tag : Option Tag) (style : Style) (s : String) :
    Except Fault Value :=
  match tag with
  | none | some (.named _) | some .illegible => bareValue style s
  | some (.core type) =>
    match type with
    | .bool => .bool <$> need "a boolean" (bool? s)
    | .int => .int <$> need "an integer" (int? s.toList)
    | .float => .float <$> need "a float" (float? s)
    | .null => if isNull s then .ok .null else .error (.unexpected "null")
  | some .other => .ok (.string s)

/-- A value under a local tag, where there is one. -/
def tagWith (tag : Option Tag) (value : Value) : Value :=
  match localTag? tag with
  | none => value
  | some name => .tagged (Tag.bareName name) value

-- ========================================================== equality

mutual

/-- Whether two values count as the same key. The order of the entries
of a mapping makes no difference. -/
def Value.same : Value → Value → Bool
  | .null, .null => true
  | .bool a, .bool b => a == b
  | .int m, .int n => m == n
  | .float f, .float g => Binary64.same f g
  | .string s, .string t => s == t
  | .sequence xs, .sequence ys => Value.sameItems xs ys
  | .mapping xs, .mapping ys =>
    xs.length == ys.length && Value.sameEntries xs ys
  | .tagged s a, .tagged t b => s == t && Value.same a b
  | _, _ => false

/-- Whether two rows hold the same values. -/
def Value.sameItems : List Value → List Value → Bool
  | [], [] => true
  | x :: xs, y :: ys => Value.same x y && Value.sameItems xs ys
  | _, _ => false

/-- Whether every entry of one mapping is one of another. -/
def Value.sameEntries :
    List (Value × Value) → List (Value × Value) → Bool
  | [], _ => true
  | (key, value) :: rest, ys =>
    ys.any (fun (k, v) => Value.same key k && Value.same value v)
      && Value.sameEntries rest ys

end

namespace Value

/-- Whether a key occurs twice. -/
def hasRepeatedKey : List (Value × Value) → Bool
  | [] => false
  | (key, _) :: rest =>
    rest.any (fun entry => same key entry.1) || hasRepeatedKey rest

/-- The value under a name. -/
def get? (entries : List (Value × Value)) (name : String) :
    Option Value :=
  (entries.find? fun entry => same entry.1 (.string name)).map Prod.snd

mutual

/-- Whether no mapping in a value has a key twice. -/
def isDistinct : Value → Bool
  | .sequence items => areDistinct items
  | .mapping entries => !hasRepeatedKey entries && entriesDistinct entries
  | .tagged _ value => isDistinct value
  | _ => true

/-- Whether no mapping in a row of values has a key twice. -/
def areDistinct : List Value → Bool
  | [] => true
  | item :: items => isDistinct item && areDistinct items

/-- Whether no mapping below the entries of one has a key twice. -/
def entriesDistinct : List (Value × Value) → Bool
  | [] => true
  | (key, value) :: rest =>
    isDistinct key && isDistinct value && entriesDistinct rest

end

end Value

-- =========================================================== reading

mutual

/-- The value of a node. -/
def Node.value : Node → Except Fault Value
  | .scalar tag style text => do
    return tagWith tag (← scalarValue tag style text)
  | .sequence tag items => do
    return tagWith tag (.sequence (← itemValues items))
  | .mapping tag entries => do
    let entries ← entryValues entries
    if Value.hasRepeatedKey entries then throw (.repeatedKey "")
    return tagWith tag (.mapping entries)

/-- The values of nodes. -/
def itemValues : List Node → Except Fault (List Value)
  | [] => .ok []
  | item :: items => do
    let item ← item.value
    return item :: (← itemValues items)

/-- The values of the entries of a node. -/
def entryValues : List (Node × Node) → Except Fault (List (Value × Value))
  | [] => .ok []
  | (key, value) :: rest => do
    let key ← key.value
    let value ← value.value
    return (key, value) :: (← entryValues rest)

end

mutual

/-- The value of a node in a place that accepts several shapes. -/
def Node.choice : Node → Except Fault Value
  | .scalar tag style text =>
    if (localTag? tag).isSome then .error (.unexpected "no tag")
    else scalarValue tag style text
  | .sequence tag items =>
    if (localTag? tag).isSome then .error (.unexpected "no tag")
    else do return .sequence (← itemChoices items)
  | .mapping tag entries =>
    if (localTag? tag).isSome then .error (.unexpected "no tag")
    else do return .mapping (← entryChoices entries)

/-- The values of nodes below such a place. -/
def itemChoices : List Node → Except Fault (List Value)
  | [] => .ok []
  | item :: items => do
    let item ← item.choice
    return item :: (← itemChoices items)

/-- The values of the entries of a node below such a place. -/
def entryChoices :
    List (Node × Node) → Except Fault (List (Value × Value))
  | [] => .ok []
  | (key, value) :: rest => do
    let key ← key.choice
    let value ← value.choice
    return (key, value) :: (← entryChoices rest)

end

-- =========================================================== showing

namespace Value

mutual

/-- A value as messages show it. -/
def shown : Value → String
  | .null => "Null"
  | .bool b => s!"Bool({b})"
  | .int n => s!"Number({n})"
  | .float f => s!"Number({f.text})"
  | .string s => s!"String({Text.quoted s})"
  | .sequence items =>
    "Sequence [" ++ String.intercalate ", " (shownItems items) ++ "]"
  | .mapping entries =>
    "Mapping \x7b" ++ String.intercalate ", " (shownEntries entries) ++
      "\x7d"
  | .tagged tag value =>
    "TaggedValue \x7b tag: !" ++ tag ++ ", value: " ++ shown value ++ " \x7d"

/-- The values of a row as messages show them. -/
def shownItems : List Value → List String
  | [] => []
  | item :: items => shown item :: shownItems items

/-- The entries of a mapping as messages show them; scalar keys stand
without their kind. -/
def shownEntries : List (Value × Value) → List String
  | [] => []
  | (key, value) :: rest =>
    (shownKey key ++ ": " ++ shown value) :: shownEntries rest

/-- A key as messages show it. -/
def shownKey : Value → String
  | .bool b => toString b
  | .int n => toString n
  | .float f => f.text
  | .string s => Text.quoted s
  | key => shown key

end

end Value

/-- The value that a text holds. -/
def Value.parse (text : String) : Except Fault Value := do
  (← Node.parse text).value

end GamePack.Yaml
