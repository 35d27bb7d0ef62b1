import GamePack.Proofs.Sizing

/-!
Values of a type. `Holds` says that a value has the shape of a type and
that its numbers are in range; such a value has a size, and writing it
gives as many bytes or finds an offset that is too large for its word.
`Writes` says so of a size and of bytes, and is kept when parts are put
into a row, so lists and structures need one argument. Of any value the
size and the bytes agree; here both are there unless something is too
large.
-/
namespace GamePack

-- ============================================== sizes against bytes

/-- What is written has the size that is announced, is written whenever
the size fits a word, and else is refused for its size only. -/
structure Writes (size : Except ConsistencyError Nat)
    (bytes : Except Error Bytes) : Prop where
  sized : ∃ n, size = .ok n
  agrees : ∀ b, bytes = .ok b → size = .ok b.length
  written : ∀ n, size = .ok n → n < 0x100000000 → ∃ b, bytes = .ok b
  refused : ∀ e, bytes = .error e → e.IsTooLarge

namespace Writes

variable {α : Type} {size : Except ConsistencyError Nat}
  {bytes : Except Error Bytes}

/-- What is written has the size that is announced. -/
theorem toAnnounces (h : Writes size bytes) : Announces size bytes where
  sized := h.agrees
  refused := fun _ e _ he => .inr (h.refused e he)
  unfit := by
    intro cause hcause
    obtain ⟨n, hn⟩ := h.sized
    rw [hcause] at hn
    cases hn

theorem ok (b : Bytes) : Writes (.ok b.length) (.ok b) where
  sized := ⟨_, rfl⟩
  agrees := (Announces.ok b).sized
  written := fun _ _ _ => ⟨b, rfl⟩
  refused := by simp

/-- No part of a row is larger than the row. -/
theorem le_total {n : Nat} {counts : List Nat} (h : n ∈ counts) :
    n ≤ total counts :=
  List.le_sum_of_mem h

/-- Parts that are written make a row that is written. -/
theorem mapM {l : List α} (size : α → Except ConsistencyError Nat)
    (bytes : α → Except Error Bytes)
    (h : ∀ a ∈ l, Writes (size a) (bytes a)) :
    Writes (total <$> l.mapM size) (List.flatten <$> l.mapM bytes) where
  sized := by
    obtain ⟨sizes, hsizes⟩ := exists_mapM_eq_ok fun a ha => (h a ha).sized
    exact ⟨total sizes, map_eq_ok.2 ⟨sizes, hsizes, rfl⟩⟩
  agrees := (Announces.mapM fun a ha => (h a ha).toAnnounces).sized
  written := by
    intro n hn hlt
    obtain ⟨sizes, hsizes, rfl⟩ := map_eq_ok.1 hn
    rw [mapM_eq_ok] at hsizes
    -- no part is larger than the row, so each fits where the row does
    obtain ⟨parts, hparts⟩ := exists_mapM_eq_ok fun a ha => by
      obtain ⟨m, hm, hsize⟩ := exists_mem_of_forall₂ hsizes ha
      exact (h a ha).written m hsize
        (Nat.lt_of_le_of_lt (le_total hm) hlt)
    exact ⟨parts.flatten, map_eq_ok.2 ⟨parts, hparts, rfl⟩⟩
  refused := by
    intro e he
    rw [map_eq_error] at he
    obtain ⟨a, ha, hbytes⟩ := mapM_eq_error he
    exact (h a ha).refused e hbytes

/-- Bytes in front that are there change nothing of it but the size. -/
theorem append (front : Bytes) (h : Writes size bytes) :
    Writes ((front.length + ·) <$> size) ((front ++ ·) <$> bytes) where
  sized := by
    obtain ⟨n, hn⟩ := h.sized
    exact ⟨_, map_eq_ok.2 ⟨n, hn, rfl⟩⟩
  agrees := ((Announces.ok front).append h.toAnnounces).sized
  written := by
    intro n hn hlt
    obtain ⟨m, hm, rfl⟩ := map_eq_ok.1 hn
    obtain ⟨rest, hrest⟩ := h.written m hm (by omega)
    exact ⟨_, map_eq_ok.2 ⟨rest, hrest, rfl⟩⟩
  refused := by
    intro e he
    rw [map_eq_error] at he
    exact h.refused e he

/-- A number in the range of its type is written in the bytes of the
type. -/
theorem numeric {n : Numeric} {v : Int} (h : n.check v = .ok v) :
    Writes (.ok n.size) ((n.encode v).mapError .value) := by
  rw [Numeric.encode_ok_iff.2 ⟨h, rfl⟩]
  have hlen : (leBytes n.size (wordOfInt n.size v)).length = n.size :=
    length_leBytes _ _
  have hwrites := Writes.ok (leBytes n.size (wordOfInt n.size v))
  rw [hlen] at hwrites
  exact hwrites

/-- Image data is written unless a line lies too far from its table. -/
theorem imageData (lines : ImageLines) :
    Writes (.ok (linesSize lines))
      ((encodeLines lines).mapError .consistency) where
  sized := ⟨_, rfl⟩
  agrees := (Announces.imageData lines).sized
  written := by
    intro n hn hlt
    obtain rfl := Except.ok.inj hn
    rw [linesSize_eq] at hlt
    obtain ⟨offsets, hoffsets⟩ := exists_lineOffsets hlt
    exact ⟨_, mapError_ok_iff.2
      (encodeLines_ok_iff.2 ⟨offsets, hoffsets, rfl⟩)⟩
  refused := by
    intro e he
    obtain ⟨cause, hcause, rfl⟩ := mapError_error_iff.1 he
    obtain ⟨place, rfl, hlarge⟩ := encodeLines_error hcause
    exact ⟨_, place, rfl, hlarge⟩

end Writes

namespace DataType

-- ==================================================== values of types

mutual
/-- A value has the shape of a type, and its numbers are in range. -/
def Holds : DataType → Value → Prop
  | numeric n, .int v => n.check v = .ok v
  | enumeration e, .int v => e.base.check v = .ok v
  | bitSet b, .int v => b.storage.check v = .ok v
  | reference _, .ref _ => True
  | text, .ref _ => True
  | imageData, .image _ => True
  | list count element, .list items =>
    count.check items.length = .ok (items.length : Int) ∧
      ∀ item ∈ items, element.Holds item
  | struct _ fields, .struct items => HoldsFields fields items
  | raw, .raw _ => True
  | _, _ => False

/-- Values have the shapes of a row of sub-fields. -/
def HoldsFields : List (String × DataType) → List Value → Prop
  | [], [] => True
  | (_, t) :: fields, item :: items =>
    t.Holds item ∧ HoldsFields fields items
  | _, _ => False
end

section Shapes

variable {v : Value} {n count : Numeric} {e : Enumeration} {b : BitSet}
  {kind : RefKind} {element : DataType} {name : String}
  {fields : List (String × DataType)} {items : List Value}

attribute [local simp] Holds HoldsFields

/-- A number type holds the numbers in its range. -/
theorem holds_numeric :
    (numeric n).Holds v ↔ ∃ k, v = .int k ∧ n.check k = .ok k := by
  cases v <;> simp

/-- An enumeration holds the numbers in the range of its base, those of
no symbol included. -/
theorem holds_enumeration :
    (enumeration e).Holds v ↔
      ∃ k, v = .int k ∧ e.base.check k = .ok k := by
  cases v <;> simp

theorem holds_bitSet :
    (bitSet b).Holds v ↔
      ∃ k, v = .int k ∧ b.storage.check k = .ok k := by
  cases v <;> simp

theorem holds_reference : (reference kind).Holds v ↔ ∃ r, v = .ref r := by
  cases v <;> simp

theorem holds_text : text.Holds v ↔ ∃ r, v = .ref r := by
  cases v <;> simp

theorem holds_imageData :
    imageData.Holds v ↔ ∃ lines, v = .image lines := by
  cases v <;> simp

/-- A list type holds lists whose length its count can give, of items its
element type holds. -/
theorem holds_list :
    (list count element).Holds v ↔ ∃ items, v = .list items ∧
      count.check items.length = .ok (items.length : Int) ∧
        ∀ item ∈ items, element.Holds item := by
  cases v <;> simp

/-- A row of sub-fields holds a row of values, one each and in the same
order. -/
theorem holdsFields_iff :
    HoldsFields fields items ↔
      List.Forall₂ (fun (f : String × DataType) item => f.2.Holds item)
        fields items := by
  induction fields generalizing items with
  | nil => cases items <;> simp
  | cons f fields ih => cases items <;> simp [ih]

/-- A structure type holds structures with one value for each sub-field,
in the same order. -/
theorem holds_struct :
    (struct name fields).Holds v ↔ ∃ items, v = .struct items ∧
      List.Forall₂ (fun (f : String × DataType) item => f.2.Holds item)
        fields items := by
  cases v <;> simp [holdsFields_iff]

theorem holds_raw : raw.Holds v ↔ ∃ bytes, v = .raw bytes := by
  cases v <;> simp

end Shapes

/-- A value of a type is written with the announced size, or refused
because it is too large. -/
theorem Holds.writes {t : DataType} {v : Value} (h : t.Holds v) :
    Writes (t.size v) (t.encode v) := by
  induction t using DataType.induction generalizing v with
  | numeric n =>
      obtain ⟨k, rfl, hk⟩ := holds_numeric.1 h
      exact Writes.numeric hk
  | enumeration e =>
      obtain ⟨k, rfl, hk⟩ := holds_enumeration.1 h
      exact Writes.numeric hk
  | bitSet b =>
      obtain ⟨k, rfl, hk⟩ := holds_bitSet.1 h
      exact Writes.numeric hk
  | reference kind =>
      obtain ⟨r, rfl⟩ := holds_reference.1 h
      exact Writes.ok (leBytes 4 (BlockRef.encode r))
  | text =>
      obtain ⟨r, rfl⟩ := holds_text.1 h
      exact Writes.ok (leBytes 4 (BlockRef.encode r))
  | imageData =>
      obtain ⟨lines, rfl⟩ := holds_imageData.1 h
      exact Writes.imageData lines
  | list count element ih =>
      obtain ⟨items, rfl, hcount, hitems⟩ := holds_list.1 h
      have hrow := Writes.mapM element.size element.encode
        fun item hitem => ih (hitems item hitem)
      have hhead := Numeric.encode_ok_iff.2 ⟨hcount, rfl⟩
      -- a list is its count in front of the row of its items
      have hlist := Writes.append
        (leBytes count.size (wordOfInt count.size items.length)) hrow
      simp only [length_leBytes, map_eq_pure_bind, bind_assoc,
        pure_bind] at hlist
      simp only [size, encode, hhead]
      exact hlist
  | struct name fields ih =>
      obtain ⟨items, rfl, hitems⟩ := holds_struct.1 h
      have hlen := hitems.length_eq.symm
      have hrow := Writes.mapM (l := fields.zip items)
        (fun pair => pair.1.2.size pair.2)
        (fun pair => pair.1.2.encode pair.2)
        fun pair hpair => ih pair.1 (List.of_mem_zip hpair).1
          (List.forall₂_zip hitems hpair)
      rw [← fieldSizes_eq_mapM, ← encodeFields_eq_mapM] at hrow
      simp only [map_eq_pure_bind] at hrow
      simp only [size, encode, if_pos hlen]
      exact hrow
  | raw =>
      obtain ⟨bytes, rfl⟩ := holds_raw.1 h
      exact Writes.ok bytes

end DataType

end GamePack
