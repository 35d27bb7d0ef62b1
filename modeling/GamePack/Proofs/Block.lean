import GamePack.Block
import GamePack.Proofs.Encoding

/-!
What writing a block succeeds with: the payload is the written values of
the declared fields in order, and its length is the declared size; the
record puts the magic, the version and the length in front of it.
-/
namespace GamePack.Block

variable {b : Block} {bytes : Bytes}

theorem value_ok_iff {name : String} {value : Value} :
    b.value name = .ok value ↔ b.get? name = some value := by
  unfold Block.value
  cases b.get? name <;> simp

/-- A declared field is assigned its value, and nothing else changes. -/
theorem set_ok_iff {b' : Block} {name : String} {value : Value} :
    b.set name value = .ok b' ↔ b.declares name = true ∧
      b' = { b with values := b.values.insert name value } := by
  unfold Block.set
  by_cases h : b.declares name = true
  · rw [if_pos h]
    constructor
    · intro hset
      exact ⟨h, (Except.ok.inj hset).symm⟩
    · rintro ⟨-, rfl⟩
      rfl
  · rw [if_neg h]
    constructor
    · intro hset
      cases hset
    · exact fun hset => absurd hset.1 h

/-- The values of the declared fields are written one after the
other. -/
theorem encodeFields_ok_iff :
    b.encodeFields = .ok bytes ↔
      ∃ parts, List.Forall₂ (fun (f : String × DataType) part =>
          ∃ value, b.get? f.1 = some value ∧ f.2.encode value = .ok part)
        b.fields parts ∧ bytes = parts.flatten := by
  simp only [Block.encodeFields, bind_eq_ok, mapM_eq_ok, pure_ok_iff,
    mapError_ok_iff, value_ok_iff]

/-- A payload is what the fields write, when that is as long as their
sizes say. -/
theorem payload_ok_iff :
    b.payload = .ok bytes ↔
      b.payloadSize = .ok bytes.length ∧ b.encodeFields = .ok bytes := by
  simp only [Block.payload, bind_eq_ok, mapError_ok_iff]
  constructor
  · rintro ⟨declared, hsize, written, hwritten, h⟩
    split at h
    next hlen =>
      obtain rfl := pure_ok_iff.1 h
      exact ⟨hlen ▸ hsize, hwritten⟩
    next => exact absurd h throw_ne_ok
  · rintro ⟨hsize, hwritten⟩
    exact ⟨_, hsize, _, hwritten, by simp⟩

/-- A record is a payload of a length that fits its word, behind its
magic, version and length. -/
theorem record_ok_iff :
    b.record = .ok bytes ↔
      ∃ payload, b.payload = .ok payload ∧ payload.length < 0x100000000 ∧
        bytes = b.magic.bytes ++ leBytes 4 b.version ++
          leBytes 4 payload.length ++ payload := by
  simp only [Block.record, bind_eq_ok, guard_eq_ok, pure_ok_iff,
    Nat.not_le]

/-- A block of one number. -/
def ofWord (n : Int) : Block where
  magic := .strings
  version := 1
  fields := [("value", .numeric .uint16)]
  values := [("value", .int n)]

end GamePack.Block
