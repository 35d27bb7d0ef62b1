import GamePack.Proofs.Block
import GamePack.Proofs.Typing

/-!
Where the bytes of a value end. Numbers are words of a fixed width, a
list says how many items follow, and a structure has as many sub-fields
as its type; so the bytes of a value show where they end, and no other
value of the type begins with them. `SetsApart` says so of two values and
goes through rows part by part, whatever follows the row, which is what
the induction over a type needs.

Image data and raw bytes do not show where they end and are left out.
-/
namespace GamePack

-- ================================================================ rows

/-- Two things are told apart by what is written for them, whatever
follows it. -/
def SetsApart {α : Type} (writes : α → Bytes → Prop) (a a' : α) : Prop :=
  ∀ b b' rest rest', writes a b → writes a' b' →
    b ++ rest = b' ++ rest' → a = a' ∧ rest = rest'

/-- What is told apart by more ways to write it is by fewer. -/
theorem SetsApart.of_imp {α : Type} {writes writes' : α → Bytes → Prop}
    {a a' : α} (h : SetsApart writes' a a')
    (himp : ∀ a b, writes a b → writes' a b) : SetsApart writes a a' :=
  fun b b' rest rest' ha ha' heq =>
    h b b' rest rest' (himp a b ha) (himp a' b' ha') heq

/-- Rows are told apart when their members are, one by one. -/
theorem SetsApart.row {α : Type} {writes : α → Bytes → Prop}
    {l l' : List α} (h : List.Forall₂ (SetsApart writes) l l')
    {parts parts' : List Bytes} {rest rest' : Bytes}
    (hl : List.Forall₂ writes l parts)
    (hl' : List.Forall₂ writes l' parts')
    (heq : parts.flatten ++ rest = parts'.flatten ++ rest') :
    l = l' ∧ rest = rest' := by
  induction h generalizing parts parts' with
  | nil =>
      cases hl
      cases hl'
      exact ⟨rfl, heq⟩
  | cons hmember _ ih =>
      cases hl with
      | cons hfirst hrest =>
      cases hl' with
      | cons hfirst' hrest' =>
      rw [List.flatten_cons, List.flatten_cons, List.append_assoc,
        List.append_assoc] at heq
      obtain ⟨rfl, htail⟩ := hmember _ _ _ _ hfirst hfirst' heq
      obtain ⟨rfl, hafter⟩ := ih hrest hrest' htail
      exact ⟨rfl, hafter⟩

/-- Words of one width are told apart. -/
theorem leBytes_append_inj {width m n : Nat} {rest rest' : Bytes}
    (hm : m < wordCount width) (hn : n < wordCount width)
    (h : leBytes width m ++ rest = leBytes width n ++ rest') :
    m = n ∧ rest = rest' := by
  have hlen : (leBytes width m).length = (leBytes width n).length := by
    rw [length_leBytes, length_leBytes]
  obtain ⟨hword, hrest⟩ := List.append_inj h hlen
  refine ⟨?_, hrest⟩
  rw [← ofLE_leBytes hm, hword, ofLE_leBytes hn]

-- ============================================================= numbers

namespace Numeric

variable {n : Numeric} {v w : Int}

/-- A number in range is what its word stands for. -/
theorem ofWord_wordOfInt (h : n.check v = .ok v) :
    n.ofWord (wordOfInt n.size v) = v := by
  obtain ⟨-, hmin, hmax⟩ := check_ok_iff.1 h
  unfold ofWord
  unfold Numeric.min at hmin
  unfold Numeric.max at hmax
  have heven : 2 * (wordCount n.size / 2) = wordCount n.size := by
    cases n <;> rfl
  split
  next hsigned =>
    rw [if_pos hsigned] at hmin hmax
    exact intOfWord_wordOfInt (by omega) (by omega)
  next hunsigned =>
    rw [if_neg hunsigned] at hmin hmax
    have hword : v % (wordCount n.size : Int) = v :=
      Int.emod_eq_of_lt hmin (by omega)
    rw [wordOfInt, hword, Int.toNat_of_nonneg hmin]

/-- Numbers of one type are told apart. -/
theorem setsApart_encode (n : Numeric) (v w : Int) :
    SetsApart (fun v b => n.encode v = .ok b) v w := by
  intro b b' rest rest' hv hw heq
  obtain ⟨hin, rfl⟩ := encode_ok_iff.1 hv
  obtain ⟨hin', rfl⟩ := encode_ok_iff.1 hw
  obtain ⟨hword, hrest⟩ := leBytes_append_inj
    (wordOfInt_lt n.size v) (wordOfInt_lt n.size w) heq
  refine ⟨?_, hrest⟩
  rw [← ofWord_wordOfInt hin, hword, ofWord_wordOfInt hin']

end Numeric

namespace BlockRef

theorem encode_lt (r : Option BlockRef) : encode r < wordCount 4 := by
  cases r with
  | none => exact wordCount_pos 4
  | some r => exact r.lt

/-- Different references, the one to no block included, are written as
different words. -/
theorem encode_inj {r r' : Option BlockRef} (h : encode r = encode r') :
    r = r' := by
  cases r with
  | none =>
      cases r' with
      | none => rfl
      | some r' => exact absurd h (Nat.ne_of_lt r'.pos)
  | some r =>
      cases r' with
      | none => exact absurd h.symm (Nat.ne_of_lt r.pos)
      | some r' =>
          obtain ⟨number, hpos, hlt⟩ := r
          obtain rfl : number = r'.number := h
          rfl

end BlockRef

-- =============================================================== types

namespace DataType

/-- The types whose bytes show where they end: all that are built without
image data and raw bytes. -/
inductive IsDelimited : DataType → Prop where
  | numeric (n : Numeric) : IsDelimited (.numeric n)
  | enumeration (e : Enumeration) : IsDelimited (.enumeration e)
  | bitSet (b : BitSet) : IsDelimited (.bitSet b)
  | reference (kind : RefKind) : IsDelimited (.reference kind)
  | text : IsDelimited .text
  | list (count : Numeric) {element : DataType}
      (h : IsDelimited element) : IsDelimited (.list count element)
  | struct (name : String) {fields : List (String × DataType)}
      (h : ∀ f ∈ fields, IsDelimited f.2) :
      IsDelimited (.struct name fields)

section Shapes

variable {v : Value} {bytes : Bytes} {n count : Numeric} {e : Enumeration}
  {b : BitSet} {kind : RefKind} {element : DataType} {name : String}
  {fields : List (String × DataType)}

attribute [local simp] encode

theorem encode_numeric_ok_iff :
    (numeric n).encode v = .ok bytes ↔
      ∃ k, v = .int k ∧ n.encode k = .ok bytes := by
  cases v <;> simp [mapError_ok_iff]

theorem encode_enumeration_ok_iff :
    (enumeration e).encode v = .ok bytes ↔
      ∃ k, v = .int k ∧ e.base.encode k = .ok bytes := by
  cases v <;> simp [mapError_ok_iff]

theorem encode_bitSet_ok_iff :
    (bitSet b).encode v = .ok bytes ↔
      ∃ k, v = .int k ∧ b.storage.encode k = .ok bytes := by
  cases v <;> simp [mapError_ok_iff]

theorem encode_reference_ok_iff :
    (reference kind).encode v = .ok bytes ↔
      ∃ r, v = .ref r ∧ bytes = leBytes 4 (BlockRef.encode r) := by
  cases v <;> simp [eq_comm]

theorem encode_text_ok_iff :
    text.encode v = .ok bytes ↔
      ∃ r, v = .ref r ∧ bytes = leBytes 4 (BlockRef.encode r) := by
  cases v <;> simp [eq_comm]

/-- A list is written as its count and its items. -/
theorem encode_list_ok_iff :
    (list count element).encode v = .ok bytes ↔
      ∃ items head parts, v = .list items ∧
        count.encode items.length = .ok head ∧
        List.Forall₂ (fun item part => element.encode item = .ok part)
          items parts ∧ bytes = head ++ parts.flatten := by
  cases v <;>
    simp [bind_eq_ok, map_eq_ok, mapError_ok_iff, mapM_eq_ok,
      @eq_comm _ bytes]

/-- A structure is written as its sub-fields, one item for each. -/
theorem encode_struct_ok_iff :
    (struct name fields).encode v = .ok bytes ↔
      ∃ items parts, v = .struct items ∧
        items.length = fields.length ∧
        List.Forall₂ (fun (pair : (String × DataType) × Value) part =>
          pair.1.2.encode pair.2 = .ok part) (fields.zip items) parts ∧
        bytes = parts.flatten := by
  cases v with
  | struct items =>
      by_cases hlen : items.length = fields.length
      · simp [hlen, map_eq_ok, encodeFields_eq_mapM, mapM_eq_ok,
          @eq_comm _ bytes]
      · simp [hlen]
  | _ => simp

end Shapes

/-- Values that are written as numbers of one type are told apart. -/
theorem setsApart_int (n : Numeric) (v w : Value) :
    SetsApart (fun v bytes => ∃ k, v = .int k ∧ n.encode k = .ok bytes)
      v w := by
  rintro b b' rest rest' ⟨k, rfl, hk⟩ ⟨m, rfl, hm⟩ heq
  obtain ⟨rfl, hrest⟩ := n.setsApart_encode k m _ _ _ _ hk hm heq
  exact ⟨rfl, hrest⟩

/-- Values that are written as references are told apart. -/
theorem setsApart_ref (v w : Value) :
    SetsApart (fun v bytes => ∃ r, v = .ref r ∧
      bytes = leBytes 4 (BlockRef.encode r)) v w := by
  rintro _ _ rest rest' ⟨r, rfl, rfl⟩ ⟨r', rfl, rfl⟩ heq
  obtain ⟨hnumber, hrest⟩ := leBytes_append_inj (BlockRef.encode_lt r)
    (BlockRef.encode_lt r') heq
  exact ⟨by rw [BlockRef.encode_inj hnumber], hrest⟩

/-- Items for the same sub-fields are told apart when they are in each of
them. -/
theorem setsApart_zip {fields : List (String × DataType)}
    {items items' : List Value} (hlen : items.length = fields.length)
    (hlen' : items'.length = fields.length)
    (h : ∀ f ∈ fields, ∀ v w,
      SetsApart (fun v bytes => f.2.encode v = .ok bytes) v w) :
    List.Forall₂ (SetsApart fun (pair : (String × DataType) × Value) part =>
      pair.1.2.encode pair.2 = .ok part)
      (fields.zip items) (fields.zip items') := by
  induction fields generalizing items items' with
  | nil => exact .nil
  | cons f fields ih =>
      obtain ⟨item, items, rfl⟩ := List.exists_cons_of_length_eq_add_one hlen
      obtain ⟨item', items', rfl⟩ :=
        List.exists_cons_of_length_eq_add_one hlen'
      obtain ⟨hfirst, hrest⟩ := List.forall_mem_cons.1 h
      refine .cons ?_ (ih (by simpa using hlen) (by simpa using hlen') hrest)
      intro b b' rest rest' hitem hitem' heq
      obtain ⟨rfl, hafter⟩ :=
        hfirst item item' b b' rest rest' hitem hitem' heq
      exact ⟨rfl, hafter⟩

/-- Values of a type that shows where it ends are told apart. -/
theorem IsDelimited.setsApart {t : DataType} (ht : t.IsDelimited)
    (v w : Value) :
    SetsApart (fun v bytes => t.encode v = .ok bytes) v w := by
  induction ht generalizing v w with
  | numeric n =>
      exact (setsApart_int n v w).of_imp fun _ _ => encode_numeric_ok_iff.1
  | enumeration e =>
      exact (setsApart_int e.base v w).of_imp fun _ _ =>
        encode_enumeration_ok_iff.1
  | bitSet b =>
      exact (setsApart_int b.storage v w).of_imp fun _ _ =>
        encode_bitSet_ok_iff.1
  | reference kind =>
      exact (setsApart_ref v w).of_imp fun _ _ => encode_reference_ok_iff.1
  | text =>
      exact (setsApart_ref v w).of_imp fun _ _ => encode_text_ok_iff.1
  | list count _ ih =>
      intro b b' rest rest' hv hw heq
      obtain ⟨items, head, parts, rfl, hcount, hparts, rfl⟩ :=
        encode_list_ok_iff.1 hv
      obtain ⟨items', head', parts', rfl, hcount', hparts', rfl⟩ :=
        encode_list_ok_iff.1 hw
      rw [List.append_assoc, List.append_assoc] at heq
      -- the counts are told apart first, so the rows have one length
      obtain ⟨hlen, hrow⟩ := count.setsApart_encode items.length
        items'.length _ _ _ _ hcount hcount' heq
      have hlen : items.length = items'.length := Int.ofNat.inj hlen
      have hitems : List.Forall₂ (SetsApart fun item part =>
          encode _ item = .ok part) items items' :=
        List.forall₂_iff_get.2 ⟨hlen, fun i _ _ => ih _ _⟩
      obtain ⟨rfl, hafter⟩ := SetsApart.row hitems hparts hparts' hrow
      exact ⟨rfl, hafter⟩
  | struct name _ ih =>
      intro b b' rest rest' hv hw heq
      obtain ⟨items, parts, rfl, hlen, hparts, rfl⟩ :=
        encode_struct_ok_iff.1 hv
      obtain ⟨items', parts', rfl, hlen', hparts', rfl⟩ :=
        encode_struct_ok_iff.1 hw
      obtain ⟨hzip, hafter⟩ := SetsApart.row
        (setsApart_zip hlen hlen' ih) hparts hparts' heq
      have hitems := congrArg (List.map Prod.snd) hzip
      rw [List.map_snd_zip hlen.le, List.map_snd_zip hlen'.le] at hitems
      exact ⟨by rw [hitems], hafter⟩

end DataType

-- ============================================================== blocks

/-- What a block writes for a field, with the value that it writes
there. -/
theorem Block.forall₂_of_encodeFields {b : Block} {bytes : Bytes}
    (h : b.encodeFields = .ok bytes) :
    ∃ parts, bytes = parts.flatten ∧
      List.Forall₂ (fun (pair : (String × DataType) × Option Value) part =>
          ∃ value, pair.2 = some value ∧ pair.1.2.encode value = .ok part)
        (b.fields.map fun f => (f, b.get? f.1)) parts := by
  obtain ⟨parts, hparts, rfl⟩ := Block.encodeFields_ok_iff.1 h
  exact ⟨parts, rfl, List.forall₂_map_left_iff.2 hparts⟩

/-- In a type that is built without image data and raw bytes, bytes that
begin with what is written for two values are only equal when the values
are, and what follows. So the bytes that are written for the fields of a
block determine the values of its fields, for given fields of such
types, and it is seen where they end. -/
theorem DataType.encode_determines :
    (∀ t : DataType, t.IsDelimited → ∀ v w b b' rest rest',
      t.encode v = .ok b → t.encode w = .ok b' →
        b ++ rest = b' ++ rest' → v = w ∧ rest = rest') ∧
    ∀ block block' : Block, block.fields = block'.fields →
      (∀ f ∈ block.fields, f.2.IsDelimited) → ∀ b b' rest rest',
        block.encodeFields = .ok b → block'.encodeFields = .ok b' →
          b ++ rest = b' ++ rest' →
            (∀ f ∈ block.fields, block.get? f.1 = block'.get? f.1) ∧
              rest = rest' := by
  refine ⟨fun t ht v w => ht.setsApart v w, ?_⟩
  intro block block' hfields hdelimited b b' rest rest' hb hb' heq
  obtain ⟨parts, rfl, hparts⟩ := Block.forall₂_of_encodeFields hb
  obtain ⟨parts', rfl, hparts'⟩ := Block.forall₂_of_encodeFields hb'
  rw [← hfields] at hparts'
  have hrow : List.Forall₂
      (SetsApart fun (pair : (String × DataType) × Option Value) part =>
        ∃ value, pair.2 = some value ∧ pair.1.2.encode value = .ok part)
      (block.fields.map fun f => (f, block.get? f.1))
      (block.fields.map fun f => (f, block'.get? f.1)) := by
    rw [List.forall₂_map_left_iff, List.forall₂_map_right_iff,
      List.forall₂_same]
    rintro f hf c c' after after' ⟨v, hv, hc⟩ ⟨w, hw, hc'⟩ hsame
    obtain ⟨rfl, hafter⟩ :=
      (hdelimited f hf).setsApart v w c c' after after' hc hc' hsame
    exact ⟨Prod.ext rfl (hv.trans hw.symm), hafter⟩
  obtain ⟨hvalues, hafter⟩ := SetsApart.row hrow hparts hparts' heq
  refine ⟨fun f hf => ?_, hafter⟩
  exact congrArg Prod.snd (List.map_inj_left.1 hvalues f hf)

/-- Lists of pairs of a number and a text. -/
def DataType.pairs : DataType :=
  .list .uint8 (.struct "pair" [("at", .numeric .int16), ("name", .text)])

/-- A list of one pair. -/
def Value.onePair : Value :=
  .list [.struct [.int (-2), .ref (BlockRef.ofNumber? 3)]]

/-- A block of pairs, with further values of fields that it does not
declare. -/
def Block.ofPairs (others : Dictionary Value) : Block where
  magic := .strings
  version := 1
  fields := [("pairs", .pairs)]
  values := ("pairs", .onePair) :: others

/-- Two blocks that are not equal, of which the same is written, hold the
same in the field that they declare. -/
theorem DataType.encode_determines_pairs :
    DataType.pairs.IsDelimited ∧
    DataType.pairs.encode .onePair = .ok [1, 254, 255, 3, 0, 0, 0] ∧
    (Value.onePair = .onePair ∧ ([7] : Bytes) = [7]) ∧
    (Block.ofPairs []).encodeFields = .ok [1, 254, 255, 3, 0, 0, 0] ∧
    (Block.ofPairs [("spare", .int 5)]).encodeFields =
      .ok [1, 254, 255, 3, 0, 0, 0] ∧
    (Block.ofPairs []).get? "pairs" =
      (Block.ofPairs [("spare", .int 5)]).get? "pairs" := by
  have hdelimited : DataType.pairs.IsDelimited := by
    refine .list _ (.struct _ fun f hf => ?_)
    simp only [List.mem_cons, List.not_mem_nil, or_false] at hf
    rcases hf with rfl | rfl
    · exact .numeric _
    · exact .text
  obtain ⟨htypes, hblocks⟩ := DataType.encode_determines
  have hvalues := htypes _ hdelimited .onePair .onePair _ _ [7] [7]
    rfl rfl rfl
  obtain ⟨hfields, -⟩ := hblocks (Block.ofPairs [])
    (Block.ofPairs [("spare", .int 5)]) rfl
    (List.forall_mem_singleton.2 hdelimited) _ _ [7] [7] rfl rfl rfl
  exact ⟨hdelimited, rfl, hvalues, rfl, rfl,
    hfields _ (List.mem_singleton.2 rfl)⟩

end GamePack
