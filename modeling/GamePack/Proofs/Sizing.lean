import GamePack.Proofs.Block

/-!
Sizes against bytes, of any value written as any type. The size and the
bytes of a value are found by two recursions over its type, which refuse
the same shapes; the bytes can be refused further, for a number or a
count out of its range and for an offset that is too large. `Announces`
says so of a size and of bytes and is kept when parts are put into a row,
so that lists, structures and the fields of a block need one argument.
-/
namespace GamePack

-- ========================================================== failures

/-- A failure because something is too large for a 32 bit word. -/
def Error.IsTooLarge (e : Error) : Prop :=
  ∃ what size, e = .consistency (.tooLarge what size) ∧
    0x100000000 ≤ size

/-- A failure because a number is not in the range of its type. -/
def Error.IsOutOfRange (e : Error) : Prop :=
  ∃ (n : Numeric) (v : Int), (v < n.min ∨ n.max < v) ∧
    e = .value (.outOfRange v n.name n.min n.max)

/-- A failure because a value is not there or has not the shape of its
type. -/
def ConsistencyError.IsUnfit (cause : ConsistencyError) : Prop :=
  (∃ type, cause = .valueShape type) ∨
    ∃ magic field, cause = .missingValue magic field

theorem Numeric.encode_error {n : Numeric} {v : Int} {cause : ValueError}
    (h : n.encode v = .error cause) : (Error.value cause).IsOutOfRange := by
  unfold encode check at h
  split at h
  next cause' hcheck =>
    cases h
    split at hcheck
    next hout =>
      cases hcheck
      exact ⟨n, v, hout, rfl⟩
    next => cases hcheck
  next => cases h

-- =================================================== announced sizes

/-- What is written has the announced size; where there is a size,
nothing but a number out of range or something too large is refused; and
where there is none, the value is unfit. -/
structure Announces (size : Except ConsistencyError Nat)
    (bytes : Except Error Bytes) : Prop where
  sized : ∀ b, bytes = .ok b → size = .ok b.length
  refused : ∀ n e, size = .ok n → bytes = .error e →
    e.IsOutOfRange ∨ e.IsTooLarge
  unfit : ∀ cause, size = .error cause → cause.IsUnfit

namespace Announces

variable {α : Type} {size : Except ConsistencyError Nat}
  {bytes head : Except Error Bytes} {cause : ConsistencyError}

theorem ok (b : Bytes) : Announces (.ok b.length) (.ok b) where
  sized := fun b' h => by rw [Except.ok.inj h]
  refused := fun n e _ h => by cases h
  unfit := fun cause h => by cases h

theorem error (h : cause.IsUnfit) :
    Announces (.error cause) (.error (.consistency cause)) where
  sized := fun b h => by cases h
  refused := fun n e h => by cases h
  unfit := fun cause' h' => by
    cases h'
    exact h

theorem numeric (n : Numeric) (v : Int) :
    Announces (.ok n.size) ((n.encode v).mapError .value) where
  sized := by
    intro b hb
    rw [mapError_ok_iff, Numeric.encode_ok_iff] at hb
    rw [hb.2, length_leBytes]
  refused := by
    intro _ e _ he
    obtain ⟨cause, hcause, rfl⟩ := mapError_error_iff.1 he
    exact .inl (Numeric.encode_error hcause)
  unfit := fun cause h => by cases h

theorem imageData (lines : ImageLines) :
    Announces (.ok (linesSize lines))
      ((encodeLines lines).mapError .consistency) where
  sized := by
    intro b hb
    rw [mapError_ok_iff] at hb
    rw [length_of_encodeLines hb]
  refused := by
    intro _ e _ he
    obtain ⟨cause, hcause, rfl⟩ := mapError_error_iff.1 he
    obtain ⟨place, rfl, hlarge⟩ := encodeLines_error hcause
    exact .inr ⟨_, place, rfl, hlarge⟩
  unfit := fun cause h => by cases h

/-- The sum of the sizes of a row announces the bytes of the row. -/
theorem mapM {l : List α} {size : α → Except ConsistencyError Nat}
    {bytes : α → Except Error Bytes}
    (h : ∀ a ∈ l, Announces (size a) (bytes a)) :
    Announces (total <$> l.mapM size) (List.flatten <$> l.mapM bytes) where
  sized := by
    intro b hb
    obtain ⟨parts, hparts, rfl⟩ := map_eq_ok.1 hb
    rw [mapM_eq_ok] at hparts
    refine map_eq_ok.2 ⟨parts.map List.length, ?_, ?_⟩
    · rw [mapM_eq_ok, List.forall₂_map_right_iff]
      have hboth := (List.forall₂_and_left _ _).2 ⟨h, hparts⟩
      exact hboth.imp fun a part hpart => hpart.1.sized part hpart.2
    · rw [List.length_flatten]
      rfl
  refused := by
    intro n e hn he
    obtain ⟨sizes, hsizes, rfl⟩ := map_eq_ok.1 hn
    rw [mapM_eq_ok] at hsizes
    obtain ⟨a, ha, hbytes⟩ := mapM_eq_error (map_eq_error.1 he)
    -- the part that is refused has a size, as every part has
    obtain ⟨m, -, hm⟩ := exists_mem_of_forall₂ hsizes ha
    exact (h a ha).refused m e hm hbytes
  unfit := by
    intro cause hcause
    obtain ⟨a, ha, hsize⟩ := mapM_eq_error (map_eq_error.1 hcause)
    exact (h a ha).unfit cause hsize

/-- A part in front of a row, of which only the bytes can be refused. -/
theorem append {n : Nat} (hhead : Announces (.ok n) head)
    (h : Announces size bytes) :
    Announces ((n + ·) <$> size)
      (head >>= fun front => (front ++ ·) <$> bytes) where
  sized := by
    intro b hb
    obtain ⟨front, hfront, hrest⟩ := bind_eq_ok.1 hb
    obtain ⟨rest, hok, rfl⟩ := map_eq_ok.1 hrest
    refine map_eq_ok.2 ⟨_, h.sized rest hok, ?_⟩
    rw [List.length_append, Except.ok.inj (hhead.sized front hfront)]
  refused := by
    intro m e hm he
    obtain ⟨k, hk, -⟩ := map_eq_ok.1 hm
    rcases bind_eq_error.1 he with hfront | ⟨front, -, hrest⟩
    · exact hhead.refused n e rfl hfront
    · exact h.refused k e hk (map_eq_error.1 hrest)
  unfit := by
    intro cause hcause
    exact h.unfit cause (map_eq_error.1 hcause)

end Announces

-- =============================================================== types

namespace DataType

/-- Induction over types, with the types of all sub-fields at hand for a
structure. -/
@[elab_as_elim]
theorem induction {motive : DataType → Prop}
    (numeric : ∀ n, motive (.numeric n))
    (enumeration : ∀ e, motive (.enumeration e))
    (reference : ∀ kind, motive (.reference kind))
    (text : motive .text) (imageData : motive .imageData)
    (list : ∀ count element, motive element →
      motive (.list count element))
    (struct : ∀ name fields, (∀ f ∈ fields, motive f.2) →
      motive (.struct name fields))
    (bitSet : ∀ b, motive (.bitSet b)) (raw : motive .raw)
    (t : DataType) : motive t :=
  @DataType.rec motive (fun fields => ∀ f ∈ fields, motive f.2)
    (fun f => motive f.2) numeric enumeration reference text imageData
    list struct bitSet raw (fun _ hf => absurd hf List.not_mem_nil)
    (fun _ _ head tail => List.forall_mem_cons.2 ⟨head, tail⟩)
    (fun _ _ h => h) t

variable {fields : List (String × DataType)} {items : List Value}

theorem fieldSizes_eq_mapM :
    fieldSizes fields items =
      (fields.zip items).mapM fun pair => pair.1.2.size pair.2 := by
  induction fields generalizing items with
  | nil => rfl
  | cons f fields ih =>
      cases items with
      | nil => rfl
      | cons item items =>
          rw [List.zip_cons_cons, List.mapM_cons, fieldSizes, ih]

theorem encodeFields_eq_mapM :
    encodeFields fields items =
      (fields.zip items).mapM fun pair => pair.1.2.encode pair.2 := by
  induction fields generalizing items with
  | nil => rfl
  | cons f fields ih =>
      cases items with
      | nil => rfl
      | cons item items =>
          rw [List.zip_cons_cons, List.mapM_cons, encodeFields, ih]

/-- A value without the shape of the type has neither size nor bytes. -/
theorem announces_of_shapeError {t : DataType} {v : Value}
    (hsize : t.size v = .error t.shapeError)
    (hencode : t.encode v = .error (.consistency t.shapeError)) :
    Announces (t.size v) (t.encode v) := by
  rw [hsize, hencode]
  exact .error (.inl ⟨_, rfl⟩)

/-- The size of a value announces its bytes, whatever its type. -/
theorem announces (t : DataType) (v : Value) :
    Announces (t.size v) (t.encode v) := by
  induction t using DataType.induction generalizing v with
  | numeric n =>
      cases v with
      | int k => exact .numeric n k
      | _ => exact announces_of_shapeError rfl rfl
  | enumeration e =>
      cases v with
      | int k => exact .numeric e.base k
      | _ => exact announces_of_shapeError rfl rfl
  | bitSet b =>
      cases v with
      | int k => exact .numeric b.storage k
      | _ => exact announces_of_shapeError rfl rfl
  | reference kind =>
      cases v with
      | ref r => exact .ok (leBytes 4 (BlockRef.encode r))
      | _ => exact announces_of_shapeError rfl rfl
  | text =>
      cases v with
      | ref r => exact .ok (leBytes 4 (BlockRef.encode r))
      | _ => exact announces_of_shapeError rfl rfl
  | imageData =>
      cases v with
      | image lines => exact .imageData lines
      | _ => exact announces_of_shapeError rfl rfl
  | list count element ih =>
      cases v with
      | list items =>
          have hrow := Announces.mapM fun item (_ : item ∈ items) => ih item
          have hlist := (Announces.numeric count items.length).append hrow
          simp only [map_eq_pure_bind, bind_assoc, pure_bind] at hlist
          exact hlist
      | _ => exact announces_of_shapeError rfl rfl
  | struct name fields ih =>
      cases v with
      | struct items =>
          simp only [size, encode]
          by_cases hlen : items.length = fields.length
          · have hrow := Announces.mapM fun pair
              (hpair : pair ∈ fields.zip items) =>
                ih pair.1 (List.of_mem_zip hpair).1 pair.2
            rw [← fieldSizes_eq_mapM, ← encodeFields_eq_mapM] at hrow
            simp only [map_eq_pure_bind] at hrow
            rw [if_pos hlen, if_pos hlen]
            exact hrow
          · rw [if_neg hlen, if_neg hlen]
            exact .error (.inl ⟨_, rfl⟩)
      | _ => exact announces_of_shapeError rfl rfl
  | raw =>
      cases v with
      | raw bytes => exact .ok bytes
      | _ => exact announces_of_shapeError rfl rfl

end DataType

-- ============================================================== blocks

namespace Block

variable {b : Block}

/-- The size of a block announces what its fields write. -/
theorem announces (b : Block) : Announces b.payloadSize b.encodeFields := by
  have hrow : Announces
      (total <$> b.fields.mapM fun f => do f.2.size (← b.value f.1))
      (List.flatten <$> b.fields.mapM fun f => do
        f.2.encode (← (b.value f.1).mapError .consistency)) := by
    apply Announces.mapM
    intro f _
    unfold Block.value
    cases b.get? f.1 with
    | none => exact .error (.inr ⟨_, _, rfl⟩)
    | some v => exact f.2.announces v
  simp only [map_eq_pure_bind] at hrow
  exact hrow

/-- The length of what the fields write is never refused: a payload is
what they write, for a block that has a size. -/
theorem payload_eq (b : Block) :
    b.payload = b.payloadSize.mapError .consistency >>= fun _ =>
      b.encodeFields := by
  unfold payload
  cases hsize : b.payloadSize with
  | error cause => rfl
  | ok n =>
      cases hbytes : b.encodeFields with
      | error e => rfl
      | ok bytes =>
          have hlen := b.announces.sized bytes hbytes
          rw [hsize, Except.ok.injEq] at hlen
          show (if bytes.length = n then _ else _) = _
          rw [if_pos hlen.symm]
          rfl

/-- A payload is refused for a value that is unfit or out of range, or
for something too large. -/
theorem payload_error {e : Error} (h : b.payload = .error e) :
    (∃ cause, e = .consistency cause ∧ cause.IsUnfit) ∨
      e.IsOutOfRange ∨ e.IsTooLarge := by
  rw [payload_eq] at h
  rcases bind_eq_error.1 h with hsize | ⟨n, hsize, hbytes⟩
  · obtain ⟨cause, hcause, rfl⟩ := mapError_error_iff.1 hsize
    exact .inl ⟨cause, rfl, b.announces.unfit cause hcause⟩
  · rw [mapError_ok_iff] at hsize
    exact .inr (b.announces.refused n e hsize hbytes)

end Block

/-- The bytes of a value are as many as its size says; a value without
size is not written; one with a size is refused only for a number out of
range or something too large; so no block is refused because its payload
has not the declared length. -/
theorem DataType.size_agrees :
    (∀ (t : DataType) (v : Value),
      (∀ bytes, t.encode v = .ok bytes → t.size v = .ok bytes.length) ∧
      (∀ cause, t.size v = .error cause → ∃ e, t.encode v = .error e) ∧
      ∀ n e, t.size v = .ok n → t.encode v = .error e →
        e.IsOutOfRange ∨ e.IsTooLarge) ∧
    ∀ (b : Block) magic declared written, b.payload ≠
      .error (.consistency (.lengthMismatch magic declared written)) := by
  constructor
  · intro t v
    have hagrees := t.announces v
    refine ⟨hagrees.sized, ?_, hagrees.refused⟩
    intro cause hsize
    cases hbytes : t.encode v with
    | error e => exact ⟨e, rfl⟩
    | ok bytes =>
        have hsized := hagrees.sized bytes hbytes
        rw [hsize] at hsized
        cases hsized
  · intro b magic declared written h
    rcases Block.payload_error h with
      ⟨cause, hcause, ⟨type, rfl⟩ | ⟨magic', field, rfl⟩⟩ |
        ⟨n, v, -, hvalue⟩ | ⟨what, size, hlarge, -⟩
    · cases hcause
    · cases hcause
    · cases hvalue
    · cases hlarge

namespace DataType

/-- A list of pictures, each with a number. -/
def framesType : DataType :=
  .list .uint8 (.struct "frame"
    [("picture", .imageData), ("delay", .numeric .int16)])

/-- One picture, whose first line has no data, and its number. -/
def frame (delay : Int) : Value :=
  .list [.struct [.image [none, some [128, 1, 9]], .int delay]]

/-- A list of frames with an image has the size it announces; one of
another shape has none, and one with an offset out of range is announced
and then refused. -/
theorem size_agrees_frames :
    framesType.encode (frame (-2)) =
        .ok [1, 0, 0, 0, 0, 8, 0, 0, 0, 128, 1, 9, 254, 255] ∧
      framesType.size (frame (-2)) = .ok 14 ∧
      framesType.size (.list [.struct [.int 0]]) =
        .error (.valueShape "frame") ∧
      (∃ e, framesType.encode (.list [.struct [.int 0]]) = .error e) ∧
      framesType.size (frame 40000) = .ok 14 ∧
      ∃ e, framesType.encode (frame 40000) = .error e ∧
        (e.IsOutOfRange ∨ e.IsTooLarge) := by
  have hbytes : framesType.encode (frame (-2)) =
      .ok [1, 0, 0, 0, 0, 8, 0, 0, 0, 128, 1, 9, 254, 255] := by
    decide +kernel
  have hunfit : framesType.size (.list [.struct [.int 0]]) =
      .error (.valueShape "frame") := by
    decide +kernel
  have hsize : framesType.size (frame 40000) = .ok 14 := by
    decide +kernel
  have hwide : framesType.encode (frame 40000) =
      .error (.value (.outOfRange 40000 "int16" (-32768) 32767)) := by
    decide +kernel
  obtain ⟨hagrees, -⟩ := size_agrees
  exact ⟨hbytes, (hagrees _ _).1 _ hbytes, hunfit,
    (hagrees _ _).2.1 _ hunfit, hsize, _, hwide,
    (hagrees _ _).2.2 _ _ hsize hwide⟩

end DataType

end GamePack
