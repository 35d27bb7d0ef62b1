import GamePack.Proofs.Container.Reading
import GamePack.Proofs.References
import GamePack.Summary

/-!
What a listing of a stored file says. A block is listed with its magic,
its version and the length of its payload; one that holds a sprite also
with the four numbers at the front of its payload. A file is listed when
the payloads of all its sprites can be read, and for no other reason is
it not; so whether the file of a container is listed is known from the
sprites of the container.
-/
namespace GamePack

-- ============================================================= sprites

/-- The size and place at the front of a payload. -/
def SpriteSummary.ofHeader (payload : Bytes) : SpriteSummary where
  width := ofLE (payload.take 2)
  height := ofLE ((payload.drop 2).take 2)
  xOffset := intOfWord 2 (ofLE ((payload.drop 4).take 2))
  yOffset := intOfWord 2 (ofLE ((payload.drop 6).take 2))

namespace SpriteImage

variable {payload : Bytes} {image : SpriteImage}

/-- A word that is read is that of the bytes in front. -/
theorem of_readWord {width n : Nat} {bytes rest : Bytes}
    (h : readWord width bytes = .ok (n, rest)) :
    n = ofLE (bytes.take width) ∧ rest = bytes.drop width := by
  unfold readWord readLE at h
  split at h
  next result hresult =>
    obtain rfl := Except.ok.inj h
    split at hresult
    · cases hresult
    · cases hresult
      exact ⟨rfl, rfl⟩
  next => cases h

/-- The size and place of a sprite that is read stand at the front of its
payload. -/
theorem summary_of_fromPayload (h : fromPayload payload = .ok image) :
    image.summary = .ofHeader payload := by
  simp only [fromPayload, bind_eq_ok, pure_ok_iff] at h
  obtain ⟨⟨width, rest⟩, hwidth, h⟩ := h
  obtain ⟨⟨height, rest'⟩, hheight, h⟩ := h
  obtain ⟨⟨xWord, rest''⟩, hx, h⟩ := h
  obtain ⟨⟨yWord, table⟩, hy, offsets, -, lines, -, rfl⟩ := h
  obtain ⟨rfl, rfl⟩ := of_readWord hwidth
  obtain ⟨rfl, rfl⟩ := of_readWord hheight
  obtain ⟨rfl, rfl⟩ := of_readWord hx
  obtain ⟨rfl, -⟩ := of_readWord hy
  simp only [summary, SpriteSummary.ofHeader, List.drop_drop]

end SpriteImage

-- ============================================================== blocks

namespace StoredBlock

/-- The payload of a sprite can be read; other blocks are left as they
are. -/
def IsReadable (s : StoredBlock) : Prop :=
  s.isSprite = true →
    ∃ image, SpriteImage.fromPayload s.payload = .ok image

/-- How a block is listed under its number. -/
def listed (s : StoredBlock) (index : Nat) : BlockSummary where
  index := index
  magic := s.magic
  version := s.version
  length := s.payload.length
  sprite := if s.isSprite then some (.ofHeader s.payload) else none

/-- A block is listed when it can be read. -/
theorem summarize_ok_iff {s : StoredBlock} {index : Nat}
    {summary : BlockSummary} :
    s.summarize index = .ok summary ↔
      s.IsReadable ∧ summary = s.listed index := by
  unfold summarize IsReadable listed
  cases hsprite : s.isSprite with
  | false =>
      simp only [Bool.false_eq_true, if_false, bind_eq_ok, pure_ok_iff]
      constructor
      · rintro ⟨_, rfl, rfl⟩
        refine ⟨?_, rfl⟩
        intro h
        cases h
      · rintro ⟨-, rfl⟩
        exact ⟨_, rfl, rfl⟩
  | true =>
      simp only [if_true, bind_eq_ok, map_eq_ok, pure_ok_iff,
        forall_const]
      constructor
      · rintro ⟨_, ⟨_, ⟨image, himage, rfl⟩, rfl⟩, rfl⟩
        exact ⟨⟨image, himage⟩, by
          rw [SpriteImage.summary_of_fromPayload himage]⟩
      · rintro ⟨⟨image, himage⟩, rfl⟩
        exact ⟨_, ⟨_, ⟨image, himage, rfl⟩, rfl⟩, by
          rw [SpriteImage.summary_of_fromPayload himage]⟩

end StoredBlock

-- =============================================================== files

namespace StoredFile

/-- How the blocks of a file are listed, in order and numbered from
one. -/
def listed (f : StoredFile) : List BlockSummary :=
  f.blocks.zipIdx.map fun entry => entry.1.listed (entry.2 + 1)

/-- A file is listed when all its blocks can be read. -/
theorem summarize_ok_iff {f : StoredFile} {summaries : List BlockSummary} :
    f.summarize = .ok summaries ↔
      (∀ s ∈ f.blocks, s.IsReadable) ∧ summaries = f.listed := by
  -- the numbers are part of what is listed, but not of whether it is
  have hrow : ∀ (l : List (StoredBlock × Nat)) {r : List BlockSummary},
      List.Forall₂ (fun entry summary =>
          entry.1.summarize (entry.2 + 1) = .ok summary) l r ↔
        (∀ entry ∈ l, entry.1.IsReadable) ∧
          r = l.map fun entry => entry.1.listed (entry.2 + 1) := by
    intro l
    induction l with
    | nil =>
        intro r
        simp
    | cons entry l ih =>
        intro r
        rw [List.forall₂_cons_left_iff, List.forall_mem_cons,
          List.map_cons]
        constructor
        · rintro ⟨_, _, hfirst, hlater, rfl⟩
          obtain ⟨hread, rfl⟩ := StoredBlock.summarize_ok_iff.1 hfirst
          obtain ⟨hall, rfl⟩ := ih.1 hlater
          exact ⟨⟨hread, hall⟩, rfl⟩
        · rintro ⟨⟨hread, hall⟩, rfl⟩
          exact ⟨_, _, StoredBlock.summarize_ok_iff.2 ⟨hread, rfl⟩,
            ih.2 ⟨hall, rfl⟩, rfl⟩
  have hblocks : f.blocks.zipIdx.map Prod.fst = f.blocks :=
    List.zipIdx_map_fst 0 f.blocks
  unfold summarize listed
  rw [mapM_eq_ok, hrow]
  refine and_congr_left fun _ => ?_
  constructor
  · intro hall s hs
    rw [← hblocks] at hs
    obtain ⟨entry, hentry, rfl⟩ := List.mem_map.1 hs
    exact hall entry hentry
  · intro hall entry hentry
    apply hall
    rw [← hblocks]
    exact List.mem_map_of_mem hentry

end StoredFile

-- ========================================================== containers

namespace Block

/-- The payload of the block is that of a sprite. -/
def HoldsImage (b : Block) : Prop :=
  ∃ payload image, b.payload = .ok payload ∧
    SpriteImage.fromPayload payload = .ok image

variable {b : Block} {s : StoredBlock}

/-- A sprite is stored as one, and no other block is. -/
theorem IsStoredAs.isSprite_iff (h : b.IsStoredAs s) :
    s.isSprite = true ↔ b.IsSprite := by
  unfold StoredBlock.isSprite Block.IsSprite
  rw [h.magic, h.version, Bool.and_eq_true, beq_iff_eq, beq_iff_eq]

/-- A stored block can be listed when it is no sprite or holds an image.
-/
theorem IsStoredAs.isReadable_iff (h : b.IsStoredAs s) :
    s.IsReadable ↔ (b.IsSprite → b.HoldsImage) := by
  unfold StoredBlock.IsReadable HoldsImage
  rw [h.isSprite_iff, h.payload]
  simp only [Except.ok.injEq, exists_and_left, exists_eq_left']

end Block

/-- The file of a container is listed when every sprite of the container
holds an image. -/
theorem StoredFile.exists_summarize_iff {f : StoredFile}
    {blocks : List Block}
    (h : List.Forall₂ Block.IsStoredAs blocks f.blocks) :
    (∃ summaries, f.summarize = .ok summaries) ↔
      ∀ b ∈ blocks, b.IsSprite → b.HoldsImage := by
  simp only [summarize_ok_iff, exists_and_left, exists_eq, and_true]
  constructor
  · intro hall b hb
    obtain ⟨s, hs, hstored⟩ := exists_mem_of_forall₂ h hb
    exact hstored.isReadable_iff.1 (hall s hs)
  · intro hall s hs
    obtain ⟨b, hb, hstored⟩ := exists_mem_of_forall₂ h.flip hs
    exact hstored.isReadable_iff.2 (hall b hb)

end GamePack
