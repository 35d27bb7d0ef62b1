import GamePack.Container
import GamePack.Proofs.Block
import GamePack.Proofs.Typing

/-!
Blocks whose declared fields all have values of their types. Such a
block is written unless it is too large, and so is a container of such
blocks: its bytes exist exactly when every payload has a length that
fits its word.
-/
namespace GamePack

/-- Every declared field has a value of its type. -/
def Block.IsComplete (b : Block) : Prop :=
  ∀ f ∈ b.fields, ∃ v, b.get? f.1 = some v ∧ f.2.Holds v

namespace Block.IsComplete

variable {b : Block}

/-- The fields of a complete block are written, or refused because they
are too large. -/
theorem writes (h : b.IsComplete) : Writes b.payloadSize b.encodeFields := by
  have hrow := Writes.mapM (l := b.fields)
    (fun f => do f.2.size (← b.value f.1))
    (fun f => do
      f.2.encode (← (b.value f.1).mapError .consistency))
    fun f hf => by
      obtain ⟨v, hv, hholds⟩ := h f hf
      rw [Block.value_ok_iff.2 hv]
      exact hholds.writes
  simp only [map_eq_pure_bind] at hrow
  exact hrow

/-- The payload of a complete block is what its fields write: the
declared size never differs from the length. -/
theorem payload_eq (h : b.IsComplete) : b.payload = b.encodeFields := by
  obtain ⟨n, hn⟩ := h.writes.sized
  rw [Block.payload_eq, hn]
  rfl

/-- A complete block has a record exactly when its size fits a word. -/
theorem exists_record_iff (h : b.IsComplete) :
    (∃ bytes, b.record = .ok bytes) ↔
      ∃ size, b.payloadSize = .ok size ∧ size < 0x100000000 := by
  constructor
  · rintro ⟨bytes, hbytes⟩
    obtain ⟨payload, hpayload, hlt, -⟩ := Block.record_ok_iff.1 hbytes
    exact ⟨_, (Block.payload_ok_iff.1 hpayload).1, hlt⟩
  · rintro ⟨size, hsize, hlt⟩
    obtain ⟨payload, hpayload⟩ := h.writes.written size hsize hlt
    have hagree := h.writes.agrees payload hpayload
    -- the size that is announced is that of what is written
    obtain rfl : size = payload.length :=
      Except.ok.inj (hsize.symm.trans hagree)
    rw [← h.payload_eq] at hpayload
    exact ⟨_, Block.record_ok_iff.2 ⟨payload, hpayload, hlt, rfl⟩⟩

/-- A complete block is refused for its size only. -/
theorem record_error (h : b.IsComplete) {e : Error}
    (he : b.record = .error e) : e.IsTooLarge := by
  simp only [Block.record, h.payload_eq, bind_eq_error, guard_eq_error,
    pure_ne_error, and_false, or_false] at he
  rcases he with hbytes | ⟨bytes, -, hlarge, rfl⟩
  · exact h.writes.refused e hbytes
  · exact ⟨_, bytes.length, rfl, hlarge⟩

end Block.IsComplete

namespace Container

variable {c : Container}

/-- A container of complete blocks is refused only because a block is too
large. -/
theorem toBytes_error (h : ∀ b ∈ c.blocks, b.IsComplete) {e : Error}
    (he : c.toBytes = .error e) : e.IsTooLarge := by
  simp only [Container.toBytes, bind_eq_error, pure_ne_error, and_false,
    exists_false, or_false] at he
  obtain ⟨b, hb, hrecord⟩ := mapM_eq_error he
  exact (h b hb).record_error hrecord

/-- A container of complete blocks is written exactly when the size of
every block fits a word. -/
theorem exists_toBytes_iff (h : ∀ b ∈ c.blocks, b.IsComplete) :
    (∃ bytes, c.toBytes = .ok bytes) ↔ ∀ b ∈ c.blocks,
      ∃ size, b.payloadSize = .ok size ∧ size < 0x100000000 := by
  simp only [Container.toBytes, bind_eq_ok, pure_ok_iff]
  constructor
  · rintro ⟨_, records, hrecords, -⟩ b hb
    rw [mapM_eq_ok] at hrecords
    obtain ⟨record, -, hrecord⟩ := exists_mem_of_forall₂ hrecords hb
    exact (h b hb).exists_record_iff.1 ⟨record, hrecord⟩
  · intro hsizes
    obtain ⟨records, hrecords⟩ := exists_mapM_eq_ok fun b hb =>
      (h b hb).exists_record_iff.2 (hsizes b hb)
    exact ⟨_, records, hrecords, rfl⟩

end Container

end GamePack
