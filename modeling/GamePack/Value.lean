import GamePack.Bytes

/-!
Values that can be stored: what a field holds once its data has been
converted, and the references that one block makes to another.
-/
namespace GamePack

/-- The number of a block in its file, counted from one. -/
structure BlockRef where
  number : Nat
  pos : 0 < number
  lt : number < 0x100000000
  deriving DecidableEq, Repr

namespace BlockRef

/-- The reference of a block number; zero and numbers that do not fit a
32 bit word name no block. -/
def ofNumber? (number : Nat) : Option BlockRef :=
  if h : 0 < number ∧ number < 0x100000000 then some ⟨number, h.1, h.2⟩
  else none

/-- The stored number of a reference, zero for none. -/
def encode : Option BlockRef → Nat
  | none => 0
  | some r => r.number

/-- A reference as messages show it. -/
def text (r : BlockRef) : String := s!"#{r.number}"

theorem ofNumber?_number (r : BlockRef) : ofNumber? r.number = some r := by
  exact dif_pos ⟨r.pos, r.lt⟩

end BlockRef

/-- The lines of an encoded sprite; a line without opaque pixels has no
data. -/
abbrev ImageLines := List (Option Bytes)

/-- A value that can be stored in a field. -/
inductive Value where
  | int (n : Int)
  | ref (r : Option BlockRef)
  | image (lines : ImageLines)
  | list (items : List Value)
  | struct (items : List Value)
  | raw (bytes : Bytes)
  deriving Repr, Inhabited

namespace Value

mutual
/-- Whether two values are equal. -/
def decEq : (a b : Value) → Decidable (a = b)
  | int m, other => match other with
    | int n =>
      if h : m = n then isTrue (by rw [h])
      else isFalse fun e => h (by cases e; rfl)
    | ref _ | image _ | list _ | struct _ | raw _ => isFalse nofun
  | ref q, other => match other with
    | ref r =>
      if h : q = r then isTrue (by rw [h])
      else isFalse fun e => h (by cases e; rfl)
    | int _ | image _ | list _ | struct _ | raw _ => isFalse nofun
  | image k, other => match other with
    | image l =>
      if h : k = l then isTrue (by rw [h])
      else isFalse fun e => h (by cases e; rfl)
    | int _ | ref _ | list _ | struct _ | raw _ => isFalse nofun
  | list xs, other => match other with
    | list ys =>
      match decEqList xs ys with
      | isTrue h => isTrue (by rw [h])
      | isFalse h => isFalse fun e => h (by cases e; rfl)
    | int _ | ref _ | image _ | struct _ | raw _ => isFalse nofun
  | struct xs, other => match other with
    | struct ys =>
      match decEqList xs ys with
      | isTrue h => isTrue (by rw [h])
      | isFalse h => isFalse fun e => h (by cases e; rfl)
    | int _ | ref _ | image _ | list _ | raw _ => isFalse nofun
  | raw a, other => match other with
    | raw b =>
      if h : a = b then isTrue (by rw [h])
      else isFalse fun e => h (by cases e; rfl)
    | int _ | ref _ | image _ | list _ | struct _ => isFalse nofun

/-- Whether two rows of values are equal. -/
def decEqList : (a b : List Value) → Decidable (a = b)
  | [], other => match other with
    | [] => isTrue rfl
    | _ :: _ => isFalse nofun
  | x :: xs, other => match other with
    | [] => isFalse nofun
    | y :: ys =>
      match decEq x y, decEqList xs ys with
      | isTrue hx, isTrue hxs => isTrue (by rw [hx, hxs])
      | isFalse hx, _ => isFalse fun h => hx (by cases h; rfl)
      | _, isFalse hxs => isFalse fun h => hxs (by cases h; rfl)
end

instance : DecidableEq Value := decEq

end Value

end GamePack
