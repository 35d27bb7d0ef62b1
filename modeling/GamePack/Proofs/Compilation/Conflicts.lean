import GamePack.Png.Image
import GamePack.Proofs.Compilation.Frame
import GamePack.Proofs.Schema.Check

/-!
What the check of a schema is good for. It decides whether every
supported version of every kind of block resolves, and since compiling
fails in no other step with two fields of one name, no data file compiled
with a checked schema fails for that.
-/
namespace GamePack

-- ============================================================ failures

/-- The failure inside all fields. -/
def Error.root : Error → Error
  | .field _ _ source => source.root
  | e => e

/-- A failure that is not about two fields of one name, in any field. -/
def Error.IsNoConflict (e : Error) : Prop :=
  ∀ magic version name,
    e.root ≠ .schema (.duplicateField magic version name)

/-- A failure to bind is one of a value or a document and never of a
schema. -/
theorem Error.IsOfBinding.isNoConflict {e : Error} (h : e.IsOfBinding) :
    e.IsNoConflict := by
  induction h with
  | value cause =>
      intro magic version name hroot
      cases hroot
  | document cause =>
      intro magic version name hroot
      cases hroot
  | field owner name _ ih => exact ih

/-- An image is refused as a document or as a value. -/
theorem Bitmap.isOfBinding_of_decodePng {bytes : Bytes} {e : Error}
    (h : decodePng bytes = .error e) : e.IsOfBinding := by
  simp only [decodePng, bind_eq_error, guard_eq_error,
    mapError_error_iff] at h
  rcases h with ⟨fault, -, rfl⟩ | ⟨raster, -, ⟨-, rfl⟩ | ⟨-, h⟩⟩
  · exact .document _
  · exact .value _
  · split at h
    · cases h
    · cases h
      exact .document _

/-- A sheet fails to load for its file or its contents. -/
theorem Bitmap.isNoConflict_of_load {disk : Disk} {path : Path} {e : Error}
    (h : Bitmap.load disk path = .error e) : e.IsNoConflict := by
  have hfile : ∀ cause, (Error.file path cause).IsNoConflict := by
    intro cause magic version name hroot
    cases hroot
  unfold Bitmap.load at h
  split at h
  · split at h
    · cases h
      exact hfile _
    · cases h
      exact hfile _
  · split at h
    · cases h
      exact hfile _
    · exact (isOfBinding_of_decodePng h).isNoConflict

-- ========================================================= compilation

namespace Compiler

/-- A compilation with a checked schema fails in no step for two fields
of one name. -/
theorem frame_of_check {schema : Schema} (h : schema.check = [])
    {asked : Block → Prop} {settings : ConversionSettings} {disk : Disk}
    (hload : settings.load = Bitmap.load disk) :
    Frame schema asked settings (fun _ _ => True) Error.IsNoConflict where
  -- only failures matter here, so any two states are related
  refl := fun _ => trivial
  trans := fun _ _ => trivial
  sheet := fun _ _ _ _ _ => trivial
  report := fun _ _ => trivial
  sprite := fun _ _ => trivial
  block := fun _ _ _ => trivial
  asks := fun _ _ _ => trivial
  load := by
    intro path e he
    rw [hload] at he
    exact Bitmap.isNoConflict_of_load he
  value := fun cause => (Error.IsOfBinding.value cause).isNoConflict
  panic := by
    intro step magic version name hroot
    cases hroot
  document := fun cause => (Error.IsOfBinding.document cause).isNoConflict
  field := fun _ _ _ he => he
  resolve := by
    intro magic version cause hcause text v name hroot
    obtain rfl := Error.schema.inj hroot
    exact Schema.resolve_ne_duplicateField h magic version text v name
      hcause
  consistency := by
    intro cause magic version name hroot
    cases hroot
  validation := by
    intro cause magic version name hroot
    cases hroot

/-- No data file fails for a conflict of the schema if the schema was
checked. -/
theorem isNoConflict_of_compileData {c : Compiler}
    (h : c.schema.check = []) {disk : Disk} {data : DataFile} {e : Error}
    (he : (c.compileData (Bitmap.load disk) data).1 = .error e) :
    e.IsNoConflict := by
  obtain ⟨c', hschema, output, he⟩ := exists_of_compileOutputs he
  rw [← hschema] at h
  have hframe : Frame c'.schema (Asks output.blocks)
      (c'.settingsOf (Bitmap.load disk) output) _ Error.IsNoConflict :=
    frame_of_check h rfl
  exact (hframe.keeps_compileBlocks data.baseDir _).2 e
    (error_of_compileOutput he)

end Compiler

-- ============================================================ schemas

namespace Schema

/-- The check of a schema finds nothing exactly when every supported
version of every kind of block resolves, and what it finds is what
resolving some supported version gives. It tries the edges that words of
four bytes hold, as long as the last version is one. With a schema in
which it finds nothing, no data file fails to compile for two fields of
one name. -/
theorem check_faithful {s : Schema} (h : s.IsMade) :
    (s.check = [] ↔ ∀ magic b, s.block? magic = some b →
      ∀ v, b.minVersion ≤ v → v ≤ b.maxVersion →
        ∃ fields, s.resolve magic v = .ok fields) ∧
    (∀ e ∈ s.check, ∃ magic b v, s.block? magic = some b ∧
      b.minVersion ≤ v ∧ v ≤ b.maxVersion ∧
        s.resolve magic v = .error e) ∧
    (∀ magic b, s.block? magic = some b → b.maxVersion < 0x100000000 →
      ∀ v, v ∈ b.edgeVersions ↔ b.supports v = true ∧
        (v = b.minVersion ∨ ∃ f ∈ b.fields, v ∈ BlockDef.wordEdges f)) ∧
    (s.check = [] → ∀ c : Compiler, c.schema = s →
      ∀ disk data e, (c.compileData (Bitmap.load disk) data).1 = .error e →
        ∀ magic version name,
          e.root ≠ .schema (.duplicateField magic version name)) := by
  refine ⟨h.check_eq_nil_iff_resolve,
    fun e he => h.exists_resolve_of_mem_check he,
    fun magic b _ hword v => BlockDef.mem_edgeVersions_iff_word hword, ?_⟩
  rintro hcheck c rfl disk data e he
  exact Compiler.isNoConflict_of_compileData hcheck he

/-- A kind of block of all versions, with a field that changes its type
at the last one. -/
def lateDef : BlockDef where
  magic := ⟨[0x4c, 0x41, 0x54, 0x45], rfl, by decide⟩
  minVersion := 0
  maxVersion := 0xffffffff
  fields := [
    { name := "size", type := .numeric .uint8
      maxVersion := some 0xfffffffe },
    { name := "size", type := .numeric .uint16
      minVersion := some 0xffffffff, maxVersion := some 0xffffffff }]

/-- The schema of this kind of block. -/
def lateSchema : Schema :=
  ⟨.builtin, [(lateDef.magic.text, lateDef)]⟩

/-- A data file that asks for a kind of block that is not defined. -/
def strayData : DataFile where
  baseDir := ⟨"."⟩
  outputs := [{ target := ⟨"a.rcd"⟩, blocks := [⟨.sprite, 2, []⟩] }]

/-- The field changes its type between two versions, so all of them
resolve, and a data file for another kind of block fails for the kind. -/
theorem check_faithful_late :
    ({ registry := .builtin } : Schema).addBlock lateDef = .ok lateSchema ∧
      lateSchema.check = [] ∧
      (∃ fields, lateSchema.resolve lateDef.magic 0x7fffffff =
        .ok fields) ∧
      ∃ e, (({ schema := lateSchema } : Compiler).compileData
          (Bitmap.load ⟨[], []⟩) strayData).1 = .error e ∧
        ∀ magic version name,
          e.root ≠ .schema (.duplicateField magic version name) := by
  have hmade : lateSchema.IsMade :=
    .addBlock (.new .builtin) (b := lateDef) rfl
  obtain ⟨hresolves, -, -, hcompiles⟩ := check_faithful hmade
  have hclean : lateSchema.check = [] := rfl
  refine ⟨rfl, hclean, ?_, .schema (.unknownMagic Magic.sprite.text), rfl,
    ?_⟩
  · exact hresolves.1 hclean lateDef.magic lateDef rfl _ (by decide)
      (by decide)
  · exact hcompiles hclean { schema := lateSchema } rfl ⟨[], []⟩ strayData
      _ rfl

end Schema

end GamePack
