import GamePack.BitSet

/-!
The types of fields. A type decides which values a field takes and how
many bytes they need; lists, structures and bitsets are built from other
types and enumerations. Whether two types are equal can be decided.
-/
namespace GamePack

/-- Which blocks a reference may name. -/
inductive RefKind where
  /-- A sprite block. -/
  | sprite
  /-- Any block. -/
  | block
  deriving DecidableEq, Repr

/-- The type of a field. -/
inductive DataType where
  | numeric (n : Numeric)
  | enumeration (e : Enumeration)
  | reference (kind : RefKind)
  | text
  | imageData
  /-- Elements of one type after their count. -/
  | list (count : Numeric) (element : DataType)
  /-- Named sub-fields in a fixed order. -/
  | struct (name : String) (fields : List (String × DataType))
  | bitSet (b : BitSet)
  /-- Bytes that are encoded already; only generated blocks have it. -/
  | raw
  deriving Repr, Inhabited

namespace DataType

/-- The name of a type, as messages show it. -/
def name : DataType → String
  | numeric n => n.name
  | enumeration e => e.name
  | reference .sprite => "sprite"
  | reference .block => "block"
  | text => "text"
  | imageData => "image_data"
  | list count element => s!"list<{element.name}; {count.name}>"
  | struct name _ => name
  | bitSet b => b.name
  | raw => "raw"

/-- The number a scalar type is stored in. -/
def storage? : DataType → Option Numeric
  | numeric n => some n
  | enumeration e => some e.base
  | bitSet b => some b.storage
  | reference _ | text => some .uint32
  | _ => none

/-- Whether a type is a reference to a block. -/
def isReference : DataType → Bool
  | reference _ => true
  | _ => false

-- ========================================================== equality

mutual
/-- Whether two types are equal. -/
def decEq : (a b : DataType) → Decidable (a = b)
  | numeric m, other => match other with
    | numeric n =>
      if h : m = n then isTrue (by rw [h])
      else isFalse fun e => h (by cases e; rfl)
    | enumeration _ | reference _ | text | imageData | list _ _
    | struct _ _ | bitSet _ | raw => isFalse nofun
  | enumeration d, other => match other with
    | enumeration e =>
      if h : d = e then isTrue (by rw [h])
      else isFalse fun e => h (by cases e; rfl)
    | numeric _ | reference _ | text | imageData | list _ _
    | struct _ _ | bitSet _ | raw => isFalse nofun
  | reference j, other => match other with
    | reference k =>
      if h : j = k then isTrue (by rw [h])
      else isFalse fun e => h (by cases e; rfl)
    | numeric _ | enumeration _ | text | imageData | list _ _
    | struct _ _ | bitSet _ | raw => isFalse nofun
  | text, other => match other with
    | text => isTrue rfl
    | numeric _ | enumeration _ | reference _ | imageData | list _ _
    | struct _ _ | bitSet _ | raw => isFalse nofun
  | imageData, other => match other with
    | imageData => isTrue rfl
    | numeric _ | enumeration _ | reference _ | text | list _ _
    | struct _ _ | bitSet _ | raw => isFalse nofun
  | list m d, other => match other with
    | list n e =>
      if hn : m = n then
        match decEq d e with
        | isTrue he => isTrue (by rw [hn, he])
        | isFalse he => isFalse fun h => he (by cases h; rfl)
      else isFalse fun h => hn (by cases h; rfl)
    | numeric _ | enumeration _ | reference _ | text | imageData
    | struct _ _ | bitSet _ | raw => isFalse nofun
  | struct m fs, other => match other with
    | struct n gs =>
      if hn : m = n then
        match decEqFields fs gs with
        | isTrue hf => isTrue (by rw [hn, hf])
        | isFalse hf => isFalse fun h => hf (by cases h; rfl)
      else isFalse fun h => hn (by cases h; rfl)
    | numeric _ | enumeration _ | reference _ | text | imageData
    | list _ _ | bitSet _ | raw => isFalse nofun
  | bitSet a, other => match other with
    | bitSet b =>
      if h : a = b then isTrue (by rw [h])
      else isFalse fun e => h (by cases e; rfl)
    | numeric _ | enumeration _ | reference _ | text | imageData
    | list _ _ | struct _ _ | raw => isFalse nofun
  | raw, other => match other with
    | raw => isTrue rfl
    | numeric _ | enumeration _ | reference _ | text | imageData
    | list _ _ | struct _ _ | bitSet _ => isFalse nofun

/-- Whether two rows of named types are equal. -/
def decEqFields : (a b : List (String × DataType)) → Decidable (a = b)
  | [], other => match other with
    | [] => isTrue rfl
    | _ :: _ => isFalse nofun
  | (m, d) :: fs, other => match other with
    | [] => isFalse nofun
    | (n, e) :: gs =>
      if hn : m = n then
        match decEq d e, decEqFields fs gs with
        | isTrue he, isTrue hf => isTrue (by rw [hn, he, hf])
        | isFalse he, _ => isFalse fun h => he (by cases h; rfl)
        | _, isFalse hf => isFalse fun h => hf (by cases h; rfl)
      else isFalse fun h => hn (by cases h; rfl)
end

instance : DecidableEq DataType := decEq

end DataType

end GamePack
