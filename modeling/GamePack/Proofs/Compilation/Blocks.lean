import GamePack.Compiler
import GamePack.Proofs.Compilation.Binding

/-!
Compiling the blocks of an output. The fields of a resolved version have
distinct names, and the check of the bindings lets only blocks through
that bind all of them, so every field of a compiled block has the value
that its last binding turns into. Such a block is sound behind the
blocks that were there when it was added; by induction over the blocks
of an output, so is the whole container.
-/
namespace GamePack

variable {baseDir : Path} {schema : Schema} {spec : BlockSpec}
  {settings : ConversionSettings} {given : Int → Prop}
  {s s' : ConversionState} {fields : List Field} {block : Block}

-- ============================================================= fields

/-- Where the search for a repeated name finds none, the names are
distinct. -/
theorem nodup_of_repeatedName? {seen names : List String}
    (h : BlockDef.repeatedName? seen names = none) :
    names.Nodup ∧ ∀ name ∈ names, name ∉ seen := by
  induction names generalizing seen with
  | nil => simp
  | cons name names ih =>
      unfold BlockDef.repeatedName? at h
      split at h
      · cases h
      next hseen =>
        obtain ⟨hnodup, hnew⟩ := ih h
        refine ⟨List.nodup_cons.2 ⟨?_, hnodup⟩, ?_⟩
        · intro hmem
          exact hnew name hmem List.mem_cons_self
        · intro other hother
          rcases List.mem_cons.1 hother with rfl | hother
          · simpa using hseen
          · exact fun hmem =>
              hnew other hother (List.mem_cons_of_mem _ hmem)

/-- The fields of a resolved version have distinct names. -/
theorem Schema.nodup_of_resolve {magic : Magic} {version : Nat}
    (h : schema.resolve magic version = .ok fields) :
    (fields.map Field.name).Nodup := by
  unfold Schema.resolve at h
  split at h
  · cases h
  · unfold BlockDef.fieldsFor at h
    split at h
    · cases h
    · dsimp only at h
      split at h
      · cases h
      next hnone =>
        obtain rfl := Except.ok.inj h
        exact (nodup_of_repeatedName? hnone).1

namespace BlockSpec

/-- The bound value of a field: what its last binding means for its
type. -/
def bound? (baseDir : Path) (spec : BlockSpec) (f : Field) :
    Option FieldValue :=
  (spec.binding? f.name).bind fun binding =>
    (bind baseDir binding f.type).toOption

/-- The block numbers that a block gives for sprites. -/
def spriteNumbers (schema : Schema) (baseDir : Path)
    (spec : BlockSpec) : List Int :=
  match schema.resolve spec.magic spec.version with
  | .error _ => []
  | .ok fields => fields.flatMap fun f =>
    ((spec.bound? baseDir f).map f.type.spriteNumbers).getD []

/-- A name is bound when it has a last binding. -/
theorem contains_names {name : String} :
    spec.names.contains name = (spec.binding? name).isSome := by
  rw [Bool.eq_iff_iff, binding?, List.lookup_isSome_iff,
    List.contains_iff_mem]
  constructor
  · intro h
    obtain ⟨binding, hbinding, rfl⟩ := List.mem_map.1 h
    exact ⟨binding, List.mem_reverse.2 hbinding, by simp⟩
  · rintro ⟨binding, hbinding, hname⟩
    obtain rfl := beq_iff_eq.1 hname
    exact List.mem_map_of_mem (List.mem_reverse.1 hbinding)

/-- A name that an entry gives has a binding. -/
theorem isSome_binding? {name : String} (h : name ∈ spec.names) :
    (spec.binding? name).isSome := by
  rw [← contains_names]
  exact List.contains_iff_mem.2 h

end BlockSpec

namespace Compiler

open Conversion

/-- A value that the last binding of a field turns into. -/
def IsAssigned (given : Int → Prop) (baseDir : Path) (spec : BlockSpec)
    (blocks : List Block) (f : Field) (v : Value) : Prop :=
  ∃ bound, spec.bound? baseDir f = some bound ∧
    Converts given blocks f.type bound v

/-- What a field holds stays true when blocks are added behind the
others. -/
theorem IsAssigned.mono {blocks blocks' : List Block} {f : Field}
    {v : Value} (h : IsAssigned given baseDir spec blocks f v)
    (hext : blocks <+: blocks') :
    IsAssigned given baseDir spec blocks' f v := by
  obtain ⟨bound, hbound, hconverts⟩ := h
  exact ⟨bound, hbound, hconverts.mono hext⟩

/-- Fields get the values that their bindings turn into, and no other
value changes. -/
structure Assigns (given : Int → Prop) (baseDir : Path)
    (spec : BlockSpec) (blocks : List Block) (fields : List Field)
    (before after : Dictionary Value) : Prop where
  others : ∀ name, name ∉ fields.map Field.name →
    after.find? name = before.find? name
  assigned : ∀ f ∈ fields, (spec.binding? f.name).isSome →
    ∃ v, after.find? f.name = some v ∧
      IsAssigned given baseDir spec blocks f v
  origin : ∀ entry ∈ after, entry ∈ before ∨ ∃ f ∈ fields,
    f.name = entry.1 ∧ IsAssigned given baseDir spec blocks f entry.2

/-- A field without a binding keeps what it has. -/
theorem Assigns.skip {blocks : List Block} {f : Field}
    {before after : Dictionary Value}
    (hnone : spec.binding? f.name = none)
    (h : Assigns given baseDir spec blocks fields before after) :
    Assigns given baseDir spec blocks (f :: fields) before after where
  others := by
    intro name hname
    exact h.others name fun hmem => hname (List.mem_cons_of_mem _ hmem)
  assigned := by
    intro g hg hsome
    rcases List.mem_cons.1 hg with rfl | hg
    · simp [hnone] at hsome
    · exact h.assigned g hg hsome
  origin := by
    intro entry hentry
    rcases h.origin entry hentry with hold | ⟨g, hg, horigin⟩
    · exact .inl hold
    · exact .inr ⟨g, List.mem_cons_of_mem _ hg, horigin⟩

/-- A field gets its value, and the later ones, of other names, leave it
alone. -/
theorem Assigns.cons {blocks : List Block} {f : Field} {v : Value}
    {before after : Dictionary Value}
    (hfresh : f.name ∉ fields.map Field.name)
    (hv : IsAssigned given baseDir spec blocks f v)
    (h : Assigns given baseDir spec blocks fields
      (before.insert f.name v) after) :
    Assigns given baseDir spec blocks (f :: fields) before after where
  others := by
    intro name hname
    rw [List.map_cons, List.mem_cons, not_or] at hname
    rw [h.others name hname.2]
    exact Dictionary.find?_insert_of_ne hname.1 v before
  assigned := by
    intro g hg hsome
    rcases List.mem_cons.1 hg with rfl | hg
    · refine ⟨v, ?_, hv⟩
      rw [h.others _ hfresh]
      exact Dictionary.find?_insert_self _ v before
    · exact h.assigned g hg hsome
  origin := by
    intro entry hentry
    rcases h.origin entry hentry with hold | ⟨g, hg, horigin⟩
    · rcases Dictionary.mem_insert hold with rfl | hold
      · exact .inr ⟨f, List.mem_cons_self, rfl, hv⟩
      · exact .inl hold
    · exact .inr ⟨g, List.mem_cons_of_mem _ hg, horigin⟩

/-- Converting a binding gives a value that is assigned to its field. -/
theorem isAssigned_of_compileValue {f : Field} {binding : Yaml.Value}
    {v : Value} (hbinding : spec.binding? f.name = some binding)
    (hgiven : ∀ bound, spec.bound? baseDir f = some bound →
      ∀ n ∈ f.type.spriteNumbers bound, given n)
    (h : (compileValue settings baseDir f.type binding).Runs s v s') :
    s.container.Grows given s'.container ∧
      IsAssigned given baseDir spec s'.container.blocks f v := by
  simp only [compileValue, runs_bind, runs_ofExcept] at h
  obtain ⟨bound, _, ⟨hbind, rfl⟩, hconvert⟩ := h
  have hbound : spec.bound? baseDir f = some bound := by
    simp [BlockSpec.bound?, hbinding, hbind, Except.toOption]
  obtain ⟨hgrow, hconverts⟩ := isConverted settings given f.type
    ((binds_bind _ _).of_ok hbind) (hgiven bound hbound) hconvert
  exact ⟨hgrow, bound, hbound, hconverts⟩

/-- Giving fields of distinct names their values. -/
theorem assigns_of_compileFields {block' : Block}
    (hnodup : (fields.map Field.name).Nodup)
    (hgiven : ∀ f ∈ fields, ∀ bound, spec.bound? baseDir f = some bound →
      ∀ n ∈ f.type.spriteNumbers bound, given n)
    (h : (compileFields settings baseDir spec fields block).Runs s block'
      s') :
    s.container.Grows given s'.container ∧ ∃ values,
      block' = { block with values } ∧
        Assigns given baseDir spec s'.container.blocks fields block.values
          values := by
  induction fields generalizing block s with
  | nil =>
      obtain ⟨rfl, rfl⟩ := runs_pure.1 h
      refine ⟨Container.Grows.refl _, _, rfl, fun _ _ => rfl, ?_, ?_⟩
      · exact fun f hf => absurd hf List.not_mem_nil
      · exact fun entry hentry => .inl hentry
  | cons f fields ih =>
      obtain ⟨hfresh, hnodup⟩ := List.nodup_cons.1 hnodup
      have hgiven' := fun g hg => hgiven g (List.mem_cons_of_mem _ hg)
      unfold compileFields at h
      split at h
      next hnone =>
        obtain ⟨hgrow, values, rfl, hassigns⟩ := ih hnodup hgiven' h
        exact ⟨hgrow, values, rfl, hassigns.skip hnone⟩
      next binding hbinding =>
        simp only [runs_bind, runs_inField, runs_ofExcept,
          mapError_ok_iff] at h
        obtain ⟨v, s₁, hv, block₁, _, ⟨hset, rfl⟩, h⟩ := h
        obtain ⟨hgrow, hassigned⟩ := isAssigned_of_compileValue hbinding
          (hgiven f List.mem_cons_self) hv
        obtain ⟨-, rfl⟩ := Block.set_ok_iff.1 hset
        obtain ⟨hgrow', values, rfl, hassigns⟩ := ih hnodup hgiven' h
        exact ⟨hgrow.trans hgrow', values, rfl,
          .cons hfresh (hassigned.mono hgrow'.keeps) hassigns⟩

-- ============================================================= blocks

/-- The check of the bindings lets only blocks through that bind all
their fields. -/
theorem bound_of_checkBlock
    (h : (checkBlock spec fields).Runs s ⟨⟩ s') :
    s'.container = s.container ∧ ∀ f ∈ fields, f.name ∈ spec.names := by
  simp only [checkBlock, runs_bind, runs_modify] at h
  obtain ⟨_, _, rfl, h⟩ := h
  split at h
  · exact absurd h not_runs_throw
  next hzero =>
    obtain ⟨-, rfl⟩ := runs_pure.1 h
    refine ⟨rfl, fun f hf => ?_⟩
    -- an unbound field would be counted among the mistakes
    by_contra hmissing
    refine hzero (List.length_pos_of_mem
      (a := missingField spec.magic spec.version f) ?_)
    refine List.mem_filter.2 ⟨List.mem_append_left _ ?_, rfl⟩
    refine List.mem_map_of_mem (List.mem_filter.2 ⟨hf, ?_⟩)
    simpa using hmissing

/-- A compiled block is sound behind the blocks of the file, and the
numbers that its bindings give for sprites are among its references. -/
theorem sound_of_compileBlock
    (hgiven : ∀ n ∈ spec.spriteNumbers schema baseDir, given n)
    (h : (compileBlock schema settings baseDir spec).Runs s block s') :
    s.container.Grows given s'.container ∧
      block.IsSound given s'.container.blocks ∧
      ∀ n ∈ spec.spriteNumbers schema baseDir, n ≠ 0 →
        ∃ r, (.reference .sprite, r) ∈ block.refsIn ∧
          (r.number : Int) = n := by
  simp only [compileBlock, runs_bind, runs_ofExcept, mapError_ok_iff] at h
  obtain ⟨fields, _, ⟨hresolve, rfl⟩, _, s₁, hcheck, hfields⟩ := h
  obtain ⟨hsame, hbound⟩ := bound_of_checkBlock hcheck
  have hnodup := Schema.nodup_of_resolve hresolve
  have hnumbers : spec.spriteNumbers schema baseDir = fields.flatMap
      fun f => ((spec.bound? baseDir f).map f.type.spriteNumbers).getD []
      := by
    rw [BlockSpec.spriteNumbers, hresolve]
  rw [hnumbers] at hgiven ⊢
  obtain ⟨hgrow, values, rfl, hassigns⟩ := assigns_of_compileFields hnodup
    (fun f hf bound hbound n hn => hgiven n (List.mem_flatMap.2
      ⟨f, hf, by simpa [hbound] using hn⟩)) hfields
  rw [hsame] at hgrow
  have hassigned := fun f hf => hassigns.assigned f hf
    (BlockSpec.isSome_binding? (hbound f hf))
  refine ⟨hgrow, ⟨?_, ?_, ?_⟩, ?_⟩
  · intro field hfield
    obtain ⟨f, hf, rfl⟩ := List.mem_map.1 hfield
    obtain ⟨v, hv, bound, -, hconverts⟩ := hassigned f hf
    exact ⟨v, hv, hconverts.holds⟩
  · simpa [Function.comp_def] using hnodup
  · intro entry hentry
    rcases hassigns.origin entry hentry with hold | ⟨f, hf, hname, _, -,
      hconverts⟩
    · exact absurd hold List.not_mem_nil
    · refine ⟨f.type, ?_, hconverts.holds, hconverts.names⟩
      rw [← hname]
      exact List.mem_map_of_mem hf
  · intro n hn hne
    obtain ⟨f, hf, hn⟩ := List.mem_flatMap.1 hn
    obtain ⟨v, hv, bound, hbound, hconverts⟩ := hassigned f hf
    rw [hbound] at hn
    obtain ⟨r, hr, hnumber⟩ := hconverts.numbers n hn hne
    exact ⟨r, Block.mem_refsIn.2
      ⟨_, List.mem_map_of_mem hf, v, hv, hr⟩, hnumber⟩

/-- The container grows with every block of an output, and the numbers
that the bindings give for sprites are among the references of its
blocks. -/
theorem grows_of_compileBlocks {specs : List BlockSpec}
    (hgiven : ∀ spec ∈ specs, ∀ n ∈ spec.spriteNumbers schema baseDir,
      given n)
    (h : (compileBlocks schema settings baseDir specs).Runs s ⟨⟩ s') :
    s.container.Grows given s'.container ∧
      ∀ spec ∈ specs, ∀ n ∈ spec.spriteNumbers schema baseDir, n ≠ 0 →
        ∃ b ∈ s'.container.blocks, ∃ r,
          (.reference .sprite, r) ∈ b.refsIn ∧ (r.number : Int) = n := by
  induction specs generalizing s with
  | nil =>
      obtain ⟨-, rfl⟩ := runs_pure.1 h
      refine ⟨Container.Grows.refl _, fun spec hspec => ?_⟩
      exact absurd hspec List.not_mem_nil
  | cons spec specs ih =>
      rw [compileBlocks, List.forM_eq_forM, List.forM_cons] at h
      simp only [runs_bind, runs_addBlock, runs_pure] at h
      obtain ⟨_, _, ⟨block, s₁, hblock, _, _, ⟨rfl, rfl⟩, -, rfl⟩, hrest⟩ := h
      obtain ⟨hgrow, hsound, hnumbers⟩ := sound_of_compileBlock
        (hgiven spec List.mem_cons_self) hblock
      have hadd := Container.grows_addBlock hsound
      obtain ⟨hgrow', hlater⟩ := ih
        (fun other hother => hgiven other (List.mem_cons_of_mem _ hother))
        hrest
      refine ⟨(hgrow.trans hadd).trans hgrow', fun other hother n hn hne => ?_⟩
      rcases List.mem_cons.1 hother with rfl | hother
      · obtain ⟨r, hr, hnumber⟩ := hnumbers n hn hne
        -- the block is added, found or not, and stays where it is
        obtain ⟨i, hi, -⟩ :=
          Container.exists_addBlock s₁.container block
        exact ⟨block, hgrow'.keeps.subset (List.mem_of_getElem? hi), r, hr,
          hnumber⟩
      · exact hlater other hother n hn hne

end Compiler

end GamePack
