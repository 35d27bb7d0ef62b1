import GamePack.Proofs.Container.Reading

/-!
Reading by places. Where the reader of stored files cuts bytes off the
front, this one keeps the bytes whole and moves a place through them: it
takes ranges, and once subtracts a place from the length. A range or a
difference that does not exist would be `outOfRange`, which is told apart
from a refusal of the bytes.

A record that is read from a place inside the bytes ends at a place
inside the bytes, so places stay inside, and both readers agree on all
bytes: nothing is ever out of range.
-/
namespace GamePack

/-- Why a reader by places stops. -/
inductive CursorStop where
  | refused (cause : ReadError)
  /-- A range or a difference of places that does not exist. -/
  | outOfRange
  deriving DecidableEq, Repr

namespace Cursor

-- ========================================================== the reader

/-- The bytes from one place to another, if there are such. -/
def slice? (bytes : Bytes) (start stop : Nat) : Option Bytes :=
  if start ≤ stop ∧ stop ≤ bytes.length then
    some ((bytes.take stop).drop start)
  else none

/-- So many bytes from a place on. -/
def readExact (bytes : Bytes) (place count : Nat) :
    Except CursorStop Bytes :=
  match slice? bytes place (place + count) with
  | some result => .ok result
  | none => .error (.refused .endOfBytes)

/-- The word of four bytes at a place. -/
def readWord (bytes : Bytes) (place : Nat) : Except CursorStop Nat :=
  ofLE <$> readExact bytes place 4

/-- How many bytes there are from a place on. -/
def bytesLeft (bytes : Bytes) (place : Nat) : Except CursorStop Nat :=
  if place ≤ bytes.length then .ok (bytes.length - place)
  else .error .outOfRange

/-- The record at a place, as the block of a number, and the place behind
it. -/
def readRecord (bytes : Bytes) (number place : Nat) :
    Except CursorStop (StoredBlock × Nat) := do
  let some magic := Magic.ofBytes? (← readExact bytes place 4)
    | throw (.refused (.corrupt (.blockMagic number)))
  let version ← readWord bytes (place + 4)
  let length ← readWord bytes (place + 8)
  let start := place + 12
  match slice? bytes start (start + length) with
  | some payload => return (⟨magic, version, payload⟩, start + length)
  | none =>
    let left ← bytesLeft bytes start
    throw (.refused (.corrupt (.blockLength number length left)))

/-- The records from a place to the end, as the blocks from a number
on. -/
def readRecords (bytes : Bytes) (fuel number place : Nat) :
    Except CursorStop (List StoredBlock) :=
  if place < bytes.length then
    match fuel with
    | 0 => .error .outOfRange
    | fuel + 1 => do
      let (block, next) ← readRecord bytes number place
      return block :: (← readRecords bytes fuel (number + 1) next)
  else .ok []

/-- The file that bytes hold. -/
def parse (bytes : Bytes) : Except CursorStop StoredFile := do
  let magic ← readExact bytes 0 4
  if magic ≠ fileMagic then throw (.refused (.invalidMagic magic))
  let version ← readWord bytes 4
  if version ≠ fileVersion then
    throw (.refused (.unsupportedVersion version))
  return ⟨← readRecords bytes (bytes.length - 8) 1 8⟩

-- ================================================ places and what is left

variable {bytes : Bytes} {place count number : Nat}

theorem slice?_of_lt (h : bytes.length < place + count) :
    slice? bytes place (place + count) = none := by
  unfold slice?
  rw [if_neg (by omega)]

theorem slice?_of_le (h : place + count ≤ bytes.length) :
    slice? bytes place (place + count) =
      some ((bytes.drop place).take count) := by
  unfold slice?
  rw [if_pos ⟨Nat.le_add_right _ _, h⟩, List.drop_take,
    Nat.add_sub_cancel_left]

/-- Reading more bytes than are left is refused, without a slice out of
range. -/
theorem readExact_of_lt (h : bytes.length < place + count) :
    readExact bytes place count = .error (.refused .endOfBytes) := by
  unfold readExact
  rw [slice?_of_lt h]

/-- Reading bytes that are left gives them. -/
theorem readExact_of_le (h : place + count ≤ bytes.length) :
    readExact bytes place count = .ok ((bytes.drop place).take count) := by
  unfold readExact
  rw [slice?_of_le h]

/-- Reading a word of which a byte is missing is refused. -/
theorem readWord_of_lt (h : bytes.length < place + 4) :
    readWord bytes place = .error (.refused .endOfBytes) := by
  unfold readWord
  rw [readExact_of_lt h]
  rfl

/-- Reading a word gives its four bytes, the lowest first. -/
theorem readWord_of_le (h : place + 4 ≤ bytes.length) :
    readWord bytes place = .ok (ofLE ((bytes.drop place).take 4)) := by
  unfold readWord
  rw [readExact_of_le h]
  rfl

theorem bytesLeft_of_le (h : place ≤ bytes.length) :
    bytesLeft bytes place = .ok (bytes.drop place).length := by
  unfold bytesLeft
  rw [if_pos h, List.length_drop]

-- ===================================================== the two readers

/-- A record that starts inside the bytes is read as the record in front
of what is left there, and ends where the rest begins. -/
theorem readRecord_eq (h : place ≤ bytes.length) :
    readRecord bytes number place =
      ((fun r => (r.1, bytes.length - r.2.length)) <$>
        StoredBlock.read number (bytes.drop place)).mapError
          .refused := by
  have hleft (n : Nat) : (bytes.drop n).length = bytes.length - n :=
    List.length_drop
  unfold readRecord StoredBlock.read
  -- at each cut the bytes end for both readers or for neither
  by_cases hmagic : bytes.length < place + 4
  · rw [readExact_of_lt hmagic, if_pos (by rw [hleft]; omega)]
    rfl
  rw [readExact_of_le (by omega), if_neg (by rw [hleft]; omega), ok_bind]
  cases Magic.ofBytes? ((bytes.drop place).take 4) with
  | none => rfl
  | some magic =>
      dsimp only
      rw [List.drop_drop]
      by_cases hversion : bytes.length < place + 4 + 4
      · rw [readWord_of_lt hversion,
          StoredBlock.readWord_of_lt (by rw [hleft]; omega)]
        rfl
      rw [readWord_of_le (by omega),
        StoredBlock.readWord_of_le (by rw [hleft]; omega), ok_bind, ok_bind]
      dsimp only
      rw [List.drop_drop]
      by_cases hlength : bytes.length < place + 8 + 4
      · rw [readWord_of_lt hlength,
          StoredBlock.readWord_of_lt (by rw [hleft]; omega)]
        rfl
      rw [readWord_of_le (by omega),
        StoredBlock.readWord_of_le (by rw [hleft]; omega), ok_bind, ok_bind]
      dsimp only
      rw [List.drop_drop]
      generalize ofLE ((bytes.drop (place + 8)).take 4) = length
      by_cases hpayload : bytes.length < place + 12 + length
      · rw [slice?_of_lt hpayload, bytesLeft_of_le (by omega),
          if_pos (by rw [hleft]; omega)]
        rfl
      · rw [slice?_of_le (by omega), if_neg (by rw [hleft]; omega)]
        have hnext : bytes.length -
            ((bytes.drop (place + 4 + 4 + 4)).drop length).length =
              place + 12 + length := by
          rw [List.length_drop, hleft]
          omega
        show _ = Except.ok (_, _)
        rw [hnext]
        rfl

/-- Behind a record there is the rest, and it lies inside the bytes. -/
theorem of_read {s : StoredBlock} {rest : Bytes}
    (h : StoredBlock.read number (bytes.drop place) = .ok (s, rest)) :
    bytes.drop (bytes.length - rest.length) = rest ∧
      rest.length < (bytes.drop place).length := by
  obtain ⟨-, hbytes⟩ := StoredBlock.read_ok_iff.1 h
  have hsuffix : rest <:+ bytes :=
    (List.suffix_append_of_suffix (List.suffix_refl rest)).trans
      (hbytes ▸ List.drop_suffix place bytes)
  refine ⟨(List.suffix_iff_eq_drop.1 hsuffix).symm, ?_⟩
  rw [hbytes, List.length_append, StoredBlock.length_record]
  omega

/-- From a place inside the bytes on, the same records are read as from
what is left there, in as many steps. -/
theorem readRecords_eq {fuel : Nat} (h : place ≤ bytes.length)
    (hfuel : bytes.length - place ≤ fuel) :
    readRecords bytes fuel number place =
      (StoredBlock.readAll fuel number (bytes.drop place)).mapError
        .refused := by
  induction fuel generalizing number place with
  | zero =>
      have hend : bytes.drop place = [] :=
        List.drop_eq_nil_of_le (by omega)
      rw [hend, readRecords, if_neg (by omega)]
      rfl
  | succ fuel ih =>
      rw [readRecords]
      by_cases hmore : place < bytes.length
      · rw [if_pos hmore, readRecord_eq h]
        have hne : bytes.drop place ≠ [] := by
          rw [Ne, List.drop_eq_nil_iff]
          omega
        rw [StoredBlock.readAll]
        · cases hread : StoredBlock.read number (bytes.drop place) with
          | error e => rfl
          | ok r =>
              obtain ⟨s, rest⟩ := r
              obtain ⟨hrest, hshorter⟩ := of_read hread
              rw [List.length_drop] at hshorter
              -- the rest is shorter, so the steps that are left suffice
              have hlater : readRecords bytes fuel (number + 1)
                  (bytes.length - rest.length) = _ :=
                ih (Nat.sub_le _ _) (by omega)
              rw [hrest] at hlater
              show (readRecords bytes fuel (number + 1)
                (bytes.length - rest.length) >>= _) = _
              rw [hlater, ok_bind]
              dsimp only
              cases StoredBlock.readAll fuel (number + 1) rest with
              | error e => rfl
              | ok blocks => rfl
        · exact hne
      · have hend : bytes.drop place = [] :=
          List.drop_eq_nil_of_le (by omega)
        rw [if_neg hmore, hend]
        rfl

/-- Reading by places gives what reading off the front gives: no range
and no difference is ever missing. -/
theorem parse_eq (bytes : Bytes) :
    parse bytes = (StoredFile.parse bytes).mapError .refused := by
  unfold parse StoredFile.parse
  by_cases hmagic : bytes.length < 4
  · rw [readExact_of_lt (by omega), if_pos hmagic]
    rfl
  rw [readExact_of_le (by omega), if_neg hmagic, ok_bind, List.drop_zero]
  by_cases hfile : bytes.take 4 ≠ fileMagic
  · rw [if_pos hfile, if_pos hfile]
    rfl
  rw [if_neg hfile, if_neg hfile]
  by_cases hversion : bytes.length < 4 + 4
  · rw [readWord_of_lt hversion,
      StoredBlock.readWord_of_lt (by rw [List.length_drop]; omega)]
    rfl
  rw [readWord_of_le (by omega),
    StoredBlock.readWord_of_le (by rw [List.length_drop]; omega), ok_bind,
    ok_bind]
  dsimp only
  by_cases hnumber : ofLE ((bytes.drop 4).take 4) ≠ fileVersion
  · rw [if_pos hnumber, if_pos hnumber]
    rfl
  rw [if_neg hnumber, if_neg hnumber, List.drop_drop, List.length_drop,
    readRecords_eq (by omega) (Nat.le_refl _)]
  cases StoredBlock.readAll (bytes.length - (4 + 4)) 1
      (bytes.drop (4 + 4)) with
  | error e => rfl
  | ok blocks => rfl

/-- No range of bytes that is asked for is missing, and no place lies
behind the end. -/
theorem parse_ne_outOfRange (bytes : Bytes) :
    parse bytes ≠ .error .outOfRange := by
  rw [parse_eq]
  intro h
  obtain ⟨e, -, he⟩ := mapError_error_iff.1 h
  cases he

end Cursor

-- ============================================ writing and reading back

/-- What a container writes is parsed, into the magic, the version and
the payload of every block in order. Bytes are parsed only as the file
that writes them back, and reading them by places refuses the same bytes
for the same causes, without a range that does not exist. -/
theorem StoredFile.parse_faithful :
    (∀ c : Container, (∀ b ∈ c.blocks, b.version < 0x100000000) →
      ∀ bytes, c.toBytes = .ok bytes →
        ∃ file, parse bytes = .ok file ∧
          List.Forall₂ Block.IsStoredAs c.blocks file.blocks) ∧
    (∀ bytes file, parse bytes = .ok file ↔
      bytes = file.toBytes ∧ ∀ s ∈ file.blocks, s.Fits) ∧
    ∀ bytes, Cursor.parse bytes = (parse bytes).mapError .refused ∧
      Cursor.parse bytes ≠ .error .outOfRange := by
  refine ⟨?_, fun bytes file => parse_ok_iff, fun bytes =>
    ⟨Cursor.parse_eq bytes, Cursor.parse_ne_outOfRange bytes⟩⟩
  intro c hwords bytes hbytes
  exact Container.exists_parse_of_words hwords hbytes

/-- The container of one number is read back, and so are its bytes. -/
theorem StoredFile.parse_faithful_word :
    ∃ bytes file, (⟨[Block.ofWord 7]⟩ : Container).toBytes = .ok bytes ∧
      parse bytes = .ok file ∧ bytes = file.toBytes ∧
      file.blocks.map (fun s => (s.magic, s.version, s.payload)) =
        [(Magic.strings, 1, [7, 0])] := by
  obtain ⟨hwritten, hread, -⟩ := parse_faithful
  have hbytes : (⟨[Block.ofWord 7]⟩ : Container).toBytes = .ok
      (fileHeader ++ [0x54, 0x45, 0x58, 0x54, 1, 0, 0, 0, 2, 0, 0, 0, 7, 0])
      := by rfl
  obtain ⟨file, hfile, hblocks⟩ := hwritten _ (by decide) _ hbytes
  refine ⟨_, file, hbytes, hfile, ((hread _ _).1 hfile).1, ?_⟩
  obtain ⟨s, rest, ⟨hmagic, hversion, hpayload⟩, hnil, hfile⟩ :=
    List.forall₂_cons_left_iff.1 hblocks
  rw [List.forall₂_nil_left_iff] at hnil
  rw [hfile, hnil]
  have hseven : (Block.ofWord 7).payload = .ok [7, 0] := by rfl
  rw [hseven, Except.ok.injEq] at hpayload
  simp [hmagic, hversion, ← hpayload, Block.ofWord]

end GamePack
