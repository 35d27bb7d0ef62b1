import GamePack.Proofs.Schema.Check
import GamePack.Proofs.Yaml.Records
import GamePack.Schema.Loading

/-!
What is known of a schema that was loaded from a text. It was made by
adding one kind of block after the other, and the versions of a kind of
block are words of four bytes, since they are read as such.
-/
namespace GamePack

open Yaml

-- ========================================================== documents

/-- The versions of a kind of block are read as words. -/
theorem BlockDefSpec.isWord_of_ofNode {n : Node} {b : BlockDefSpec}
    (h : BlockDefSpec.ofNode n = .ok b) : b.maxVersion < 0x100000000 := by
  simp only [BlockDefSpec.ofNode, bind_eq_ok, pure_ok_iff] at h
  obtain ⟨r, -, magic, -, first, -, last, hlast, fields, -, rfl⟩ := h
  obtain ⟨n, hn⟩ := Record.exists_of_need hlast
  exact Nat.lt_succ_of_le (Node.le_of_natural hn)

/-- The last versions in a document that is read are words of four bytes.
-/
theorem SchemaDocument.isWord_of_parse {text : String} {d : SchemaDocument}
    (h : SchemaDocument.parse text = .ok d) :
    ∀ b ∈ d.blocks, b.maxVersion < 0x100000000 := by
  simp only [SchemaDocument.parse, SchemaDocument.ofNode, bind_eq_ok,
    pure_ok_iff] at h
  obtain ⟨_, -, r, -, _, -, _, -, _, -, blocks, hblocks, rfl⟩ := h
  intro b hb
  rcases Record.of_withDefault hblocks with rfl | ⟨n, hn⟩
  · exact absurd hb List.not_mem_nil
  · obtain ⟨n, hn⟩ := Node.exists_of_mem_items hn hb
    exact BlockDefSpec.isWord_of_ofNode hn

-- ============================================================ schemas

/-- The kind of block that is built has the magic and the versions that
are written. -/
theorem BlockDefSpec.of_build {b : BlockDefSpec} {registry : Registry}
    {d : BlockDef} (h : b.build registry = .ok d) :
    d.magic = b.magic ∧ d.minVersion = b.minVersion ∧
      d.maxVersion = b.maxVersion ∧ b.minVersion ≤ b.maxVersion := by
  simp only [BlockDefSpec.build, guard_eq_ok, bind_eq_ok,
    pure_ok_iff] at h
  obtain ⟨hle, fields, -, rfl⟩ := h
  exact ⟨rfl, rfl, rfl, Nat.not_lt.1 hle⟩

namespace Schema

/-- A schema of which every kind of block has versions that are words,
made by adding one after the other. -/
structure IsLoaded (s : Schema) : Prop where
  made : s.IsMade
  isWord : ∀ entry ∈ s.blocks, entry.2.maxVersion < 0x100000000

/-- Adding a kind of block whose versions are words keeps a schema
loaded. -/
theorem IsLoaded.addBlock {s s' : Schema} {b : BlockDef}
    (h : s.IsLoaded) (hb : b.maxVersion < 0x100000000)
    (hadd : s.addBlock b = .ok s') : s'.IsLoaded where
  made := h.made.addBlock hadd
  isWord := by
    obtain ⟨-, rfl⟩ := addBlock_ok_iff.1 hadd
    intro entry hentry
    rcases Dictionary.mem_insert hentry with rfl | hentry
    · exact hb
    · exact h.isWord entry hentry

/-- A schema that is built from versions that are words is loaded. -/
theorem isLoaded_of_build {d : SchemaDocument} {s : Schema}
    (hd : ∀ b ∈ d.blocks, b.maxVersion < 0x100000000)
    (h : d.build = .ok s) : s.IsLoaded := by
  simp only [SchemaDocument.build, bind_eq_ok, mapError_ok_iff] at h
  obtain ⟨registry, -, h⟩ := h
  have hnew : ({ registry } : Schema).IsLoaded :=
    ⟨.new registry, fun entry hentry => absurd hentry List.not_mem_nil⟩
  refine foldlM_induction h hnew fun b hb s s' hs hadd => ?_
  obtain ⟨def', hbuild, hadd⟩ := bind_eq_ok.1 hadd
  obtain ⟨-, -, hlast, -⟩ := BlockDefSpec.of_build hbuild
  exact hs.addBlock (by rw [hlast]; exact hd b hb) hadd

/-- A schema is known by its types and its kinds of blocks. -/
theorem parse_eq_of_parts {text : String} {s : Schema}
    (h : (Schema.parse text).toOption.map
        (fun s => (s.registry.types, s.blocks)) =
      some (s.registry.types, s.blocks)) :
    Schema.parse text = .ok s := by
  cases hparse : Schema.parse text with
  | error e =>
      rw [hparse] at h
      cases h
  | ok s' =>
      rw [hparse] at h
      obtain ⟨⟨types⟩, blocks⟩ := s
      obtain ⟨⟨types'⟩, blocks'⟩ := s'
      cases h
      rfl

/-- What is loaded from a text is made block by block, with versions
that are words. -/
theorem isLoaded_of_parse {text : String} {s : Schema}
    (h : Schema.parse text = .ok s) : s.IsLoaded := by
  simp only [Schema.parse, bind_eq_ok, mapError_ok_iff] at h
  obtain ⟨d, hd, hbuild⟩ := h
  exact isLoaded_of_build (SchemaDocument.isWord_of_parse hd) hbuild

/-- A version that resolves in a loaded schema is supported and a
word. -/
theorem IsLoaded.of_resolve {s : Schema} (h : s.IsLoaded) {magic : Magic}
    {version : Nat} {fields : List Field}
    (hresolve : s.resolve magic version = .ok fields) :
    version < 0x100000000 ∧ ∃ b, s.block? magic = some b ∧
      b.supports version = true := by
  unfold resolve at hresolve
  split at hresolve
  · cases hresolve
  next b hb =>
    obtain ⟨hsupports, -, -⟩ := BlockDef.fieldsFor_ok_iff.1 hresolve
    obtain ⟨-, hle⟩ := BlockDef.supports_iff.1 hsupports
    have hword := h.isWord _ (Dictionary.mem_of_find? hb)
    exact ⟨Nat.lt_of_le_of_lt hle hword, b, hb, hsupports⟩

end Schema

end GamePack
