import GamePack.Proofs.Compilation.Outputs
import GamePack.Proofs.Compilation.Twins
import GamePack.Proofs.Conversion.Composition

/-!
Of the bindings of a block only the last one of each field counts. Two
entries agree when the last bindings of all fields that the schema gives
are the same; what else is bound, how often and in which order is free.
Outputs whose entries agree are compiled to the same file, or fail in the
same way, and differ in the warnings about bound names alone.

Both compilations are followed at once, through states that differ only
in such warnings: conversions never look at what was reported, and the
check of the bindings finds the same fields missing on both sides.
-/
namespace GamePack

open Conversion

-- ======================================================= last bindings

/-- A name of a field that the schema gives for a version of a block. -/
def Schema.Gives (schema : Schema) (magic : Magic) (version : Nat)
    (name : String) : Prop :=
  ∃ fields, schema.resolve magic version = .ok fields ∧
    name ∈ fields.map Field.name

/-- Entries for one kind of block of which the last bindings of all fields
are the same. -/
structure BlockSpec.Agrees (schema : Schema)
    (spec spec' : BlockSpec) : Prop where
  magic : spec.magic = spec'.magic
  version : spec.version = spec'.version
  binding : ∀ name, schema.Gives spec.magic spec.version name →
    spec.binding? name = spec'.binding? name

/-- Bindings rearranged: neighbours of different names are swapped, names
that are not known are bound, and names are bound to anything in front of
another binding; and all of this undone. -/
inductive Rearranges (known : String → Prop) :
    List (String × Yaml.Value) → List (String × Yaml.Value) → Prop where
  | refl (l : List (String × Yaml.Value)) : Rearranges known l l
  | symm {l l' : List (String × Yaml.Value)}
      (h : Rearranges known l l') : Rearranges known l' l
  | trans {l l' l'' : List (String × Yaml.Value)}
      (h : Rearranges known l l') (h' : Rearranges known l' l'') :
      Rearranges known l l''
  | swap (before after : List (String × Yaml.Value))
      {p q : String × Yaml.Value} (h : p.1 ≠ q.1) :
      Rearranges known (before ++ p :: q :: after)
        (before ++ q :: p :: after)
  | unknown (before after : List (String × Yaml.Value)) {name : String}
      (v : Yaml.Value) (h : ¬ known name) :
      Rearranges known (before ++ after) (before ++ (name, v) :: after)
  | earlier (before after : List (String × Yaml.Value)) {name : String}
      (v : Yaml.Value) (h : name ∈ after.map Prod.fst) :
      Rearranges known (before ++ after) (before ++ (name, v) :: after)

/-- One entry for a block rearranged into another. -/
structure BlockSpec.Rearranged (schema : Schema)
    (spec spec' : BlockSpec) : Prop where
  magic : spec.magic = spec'.magic
  version : spec.version = spec'.version
  fields : Rearranges (schema.Gives spec.magic spec.version)
    spec.fields spec'.fields

/-- Two outputs that go to one place with the same mode, their entries
related one by one. -/
structure OutputSpec.Corresponds (Q : BlockSpec → BlockSpec → Prop)
    (output output' : OutputSpec) : Prop where
  target : output.target = output'.target
  emptySprites : output.emptySprites = output'.emptySprites
  blocks : List.Forall₂ Q output.blocks output'.blocks

namespace Rearranges

variable {known : String → Prop} {name : String}
  {l l' : List (String × Yaml.Value)}

/-- The last binding of a name stands behind a binding, is this binding,
or stands in front of it. -/
theorem lookup_split (before after : List (String × Yaml.Value))
    (p : String × Yaml.Value) :
    (before ++ p :: after).reverse.lookup name =
      (after.reverse.lookup name).or
        ((if name = p.1 then some p.2 else none).or
          (before.reverse.lookup name)) := by
  obtain ⟨other, v⟩ := p
  rw [List.reverse_append, List.reverse_cons, List.append_assoc,
    List.lookup_append, List.lookup_append, List.lookup_cons]
  by_cases h : name = other
  · simp [h]
  · simp [h, beq_false_of_ne h]

/-- The last bindings of known names stay what they are. -/
theorem lookup_reverse (h : Rearranges known l l') (hname : known name) :
    l.reverse.lookup name = l'.reverse.lookup name := by
  induction h with
  | refl l => rfl
  | symm _ ih => exact ih.symm
  | trans _ _ ih ih' => exact ih.trans ih'
  | @swap before after p q hne =>
      rw [lookup_split before, lookup_split before,
        ← List.nil_append (q :: after), ← List.nil_append (p :: after),
        lookup_split [], lookup_split []]
      by_cases hp : name = p.1
      · simp [hp, hne]
      · simp [hp, Option.or_assoc]
  | @unknown before after other v hunknown =>
      have hother : name ≠ other := by
        rintro rfl
        exact hunknown hname
      rw [lookup_split, List.reverse_append, List.lookup_append]
      simp [hother]
  | @earlier before after other v hlater =>
      rw [lookup_split, List.reverse_append, List.lookup_append]
      by_cases hother : name = other
      · -- the binding behind it hides both
        subst hother
        obtain ⟨binding, hbinding, rfl⟩ := List.mem_map.1 hlater
        have hsome : (after.reverse.lookup binding.1).isSome :=
          List.lookup_isSome_iff.2
            ⟨binding, List.mem_reverse.2 hbinding, by simp⟩
        obtain ⟨w, hw⟩ := Option.isSome_iff_exists.1 hsome
        simp [hw]
      · simp [hother]

end Rearranges

namespace BlockSpec

/-- A rearrangement leaves the last binding of every name what it is. -/
theorem Rearranged.agrees {schema : Schema} {spec spec' : BlockSpec}
    (h : spec.Rearranged schema spec') :
    spec.Agrees schema spec' where
  magic := h.magic
  version := h.version
  binding := fun _ hname => h.fields.lookup_reverse hname

end BlockSpec

-- ============================================================ warnings

/-- Whether a diagnostic is a warning about a name that a block binds. -/
def Diagnostic.isOfNames (d : Diagnostic) : Bool :=
  d.severity == .warning &&
    (d.code == "rcdgen::validate::unused-field" ||
      d.code == "rcdgen::validate::redefined-field")

namespace Diagnostics

/-- What was reported beside warnings about bound names. -/
def besideNames (ds : Diagnostics) : Diagnostics :=
  ds.filter (!·.isOfNames)

theorem besideNames_append (ds ds' : Diagnostics) :
    besideNames (ds ++ ds') = ds.besideNames ++ ds'.besideNames :=
  List.filter_append ..

/-- No error is a warning about bound names. -/
theorem ofSeverity_besideNames (ds : Diagnostics) :
    ds.besideNames.ofSeverity .error = ds.ofSeverity .error := by
  rw [ofSeverity, besideNames, List.filter_filter]
  refine List.filter_congr fun d _ => ?_
  cases hd : d.severity <;> simp [Diagnostic.isOfNames, hd]

/-- Warnings about names are no errors, so leaving them out changes no
count of errors. -/
theorem count_besideNames (ds : Diagnostics) :
    ds.besideNames.count .error = ds.count .error := by
  rw [count, count, ofSeverity_besideNames]

end Diagnostics

/-- Of the warnings about names nothing is left when these are left out.
-/
theorem besideNames_nameWarnings (magic : Magic) (version : Nat)
    (known before names : List String) :
    Diagnostics.besideNames
      (nameWarnings magic version known before names) = [] := by
  induction names generalizing before with
  | nil => rfl
  | cons name names ih =>
      rw [nameWarnings, Diagnostics.besideNames_append, ih,
        List.append_nil]
      split
      · split
        · rfl
        · rfl
      · rfl
      · rfl

/-- Beside the warnings about bound names, the check of the bindings says
which fields are missing. -/
theorem besideNames_checkBindings (magic : Magic) (version : Nat)
    (fields : List Field) (bound : List String) :
    Diagnostics.besideNames (checkBindings magic version fields bound) =
      (fields.filter fun f => !bound.contains f.name).map
        (missingField magic version) := by
  rw [checkBindings, Diagnostics.besideNames_append,
    besideNames_nameWarnings, List.append_nil]
  refine List.filter_eq_self.2 fun d hd => ?_
  obtain ⟨f, -, rfl⟩ := List.mem_map.1 hd
  rfl

/-- Two states of a conversion that differ in the warnings about bound
names only. -/
structure ConversionState.SameButNames (s s' : ConversionState) :
    Prop where
  container : s.container = s'.container
  sheets : s.sheets = s'.sheets
  sprites : s.sprites = s'.sprites
  diagnostics : s.diagnostics.besideNames = s'.diagnostics.besideNames

-- ========================================================= conversions

namespace Conversion

variable {α : Type} {settings : ConversionSettings}

/-- The second conversion does what the first one does, up to warnings
about bound names. -/
abbrev Follows (c c' : Conversion α) : Prop :=
  MeetsOver True ConversionState.SameButNames c c'

/-- Whether a sheet is loaded depends on the sheets that are kept only.
-/
theorem follows_sheet (path : Path) :
    Follows (sheet settings path) (sheet settings path) := by
  refine meets_get fun hstates => ?_
  rw [hstates.sheets]
  split
  · exact meets_pure _
  · refine meets_bind (meets_ofExcept _) fun _ => ?_
    refine meets_bind (meets_modify fun hstates => ?_) fun _ =>
      meets_pure _
    exact ⟨hstates.container, by rw [hstates.sheets], hstates.sprites,
      hstates.diagnostics⟩

theorem follows_addBlock (block : Option Block) :
    Follows (addBlock block) (addBlock block) :=
  meetsOver_addBlock block ConversionState.SameButNames.container
    fun h _ => ⟨rfl, h.sheets, h.sprites, h.diagnostics⟩

/-- No conversion looks at what was reported before. -/
theorem follows_of_composed {c : Conversion α}
    (h : IsComposed settings c) : Follows c c := by
  induction h with
  | pure a => exact meets_pure a
  | refuse he => exact meets_throw _
  | chain _ _ ihfirst ihrest =>
      exact meets_bind ihfirst fun hrun => ihrest _ _ _ hrun
  | inField owner name _ ih => exact meets_inField ih
  | sheet path => exact follows_sheet path
  | report ds =>
      refine meets_modify fun hstates => ?_
      refine ⟨hstates.container, hstates.sheets, hstates.sprites, ?_⟩
      rw [Diagnostics.besideNames_append, Diagnostics.besideNames_append,
        hstates.diagnostics]
  | reportSprite report =>
      refine meets_modify fun hstates => ?_
      exact ⟨hstates.container, hstates.sheets,
        by rw [hstates.sprites], hstates.diagnostics⟩
  | addBlock block _ => exact follows_addBlock _
  | blockNumber n =>
      exact meets_blockNumber n ConversionState.SameButNames.container

end Conversion

-- ============================================================== blocks

namespace Compiler

variable {schema : Schema} {settings : ConversionSettings} {baseDir : Path}
  {spec spec' : BlockSpec}

/-- The same fields are missing in agreeing entries. -/
theorem follows_checkBlock {fields : List Field}
    (hmagic : spec.magic = spec'.magic)
    (hversion : spec.version = spec'.version)
    (h : ∀ f ∈ fields, spec.binding? f.name = spec'.binding? f.name) :
    Follows (checkBlock spec fields) (checkBlock spec' fields) := by
  have hmissing : Diagnostics.besideNames
        (checkBindings spec.magic spec.version fields spec.names) =
      Diagnostics.besideNames
        (checkBindings spec'.magic spec'.version fields spec'.names) := by
    rw [besideNames_checkBindings, besideNames_checkBindings, hmagic,
      hversion]
    congr 1
    refine List.filter_congr fun f hf => ?_
    rw [BlockSpec.contains_names, BlockSpec.contains_names, h f hf]
  have hfailed : Diagnostics.count
        (checkBindings spec.magic spec.version fields spec.names) .error =
      Diagnostics.count
        (checkBindings spec'.magic spec'.version fields spec'.names)
        .error := by
    rw [← Diagnostics.count_besideNames, hmissing,
      Diagnostics.count_besideNames]
  refine meets_bind (meets_modify fun hstates => ?_) fun _ => ?_
  · refine ⟨hstates.container, hstates.sheets, hstates.sprites, ?_⟩
    rw [Diagnostics.besideNames_append, Diagnostics.besideNames_append,
      hstates.diagnostics, hmissing]
  · dsimp only
    rw [hfailed, hmagic, hversion]
    split
    · exact meets_throw _
    · exact meets_pure _

/-- An entry that agrees with another in its last bindings is compiled
like it. -/
theorem follows_compileBlock (h : spec.Agrees schema spec') :
    Follows (compileBlock schema settings baseDir spec)
      (compileBlock schema settings baseDir spec') := by
  obtain ⟨hmagic, hversion, hbinding⟩ := h
  unfold compileBlock
  rw [← hmagic, ← hversion]
  refine meets_bind (meets_ofExcept _) fun {_ fields _} hresolve => ?_
  simp only [runs_ofExcept, mapError_ok_iff] at hresolve
  have hfields : ∀ f ∈ fields,
      spec.binding? f.name = spec'.binding? f.name := fun f hf =>
    hbinding f.name ⟨fields, hresolve.1, List.mem_map_of_mem hf⟩
  refine meets_bind (follows_checkBlock hmagic hversion hfields)
    fun _ => ?_
  exact meets_compileFields _ hmagic hfields fun _ _ _ _ =>
    meets_bind (meets_ofExcept _) fun _ =>
      follows_of_composed (composed_convert _ _)

-- ============================================================= outputs

/-- Two outcomes of compiling an output: the same file or the same
failure, left by compilers that differ in the warnings about bound names
only. -/
structure SameButNames
    (r r' : Except Error CompiledFile × Compiler) : Prop where
  result : r.1 = r'.1
  compiler : r.2 = { r'.2 with diagnostics := r.2.diagnostics }
  diagnostics :
    r.2.diagnostics.besideNames = r'.2.diagnostics.besideNames

variable {c : Compiler} {output output' : OutputSpec}

/-- Outputs of entries that agree are compiled alike, up to warnings
about bound names. -/
theorem sameButNames_of_agrees (load : Path → Except Error Bitmap)
    (baseDir : Path)
    (h : output.Corresponds (BlockSpec.Agrees c.schema) output') :
    SameButNames (c.compileOutput load baseDir output)
      (c.compileOutput load baseDir output') := by
  obtain ⟨htarget, hempty, hblocks⟩ := h
  have hsettings :
      c.settingsOf load output' = c.settingsOf load output := by
    rw [settingsOf, settingsOf, hempty]
  have hfollows : Follows
      (compileBlocks c.schema (c.settingsOf load output) baseDir
        output.blocks)
      (compileBlocks c.schema (c.settingsOf load output) baseDir
        output'.blocks) :=
    meets_compileBlocks (hblocks.imp fun _ _ => follows_compileBlock)
      follows_addBlock
  obtain ⟨hresult, hstates⟩ := hfollows
    { sheets := c.sheets, diagnostics := c.diagnostics }
    { sheets := c.sheets, diagnostics := c.diagnostics }
    ⟨rfl, rfl, rfl, rfl⟩ (.inl trivial)
  rw [compileOutput_eq (Prod.eta _).symm,
    compileOutput_eq (Prod.eta _).symm, hsettings]
  refine ⟨?_, ?_, hstates.diagnostics⟩
  · dsimp only
    rw [hresult, hstates.container, hstates.sprites, htarget]
  · dsimp only
    rw [hstates.sheets]

/-- Only the last bindings of the fields that the schema gives matter: an
output that agrees on them with another is compiled to the same. So is
every output whose bindings are rearranged, with names the schema does
not give and with earlier bindings that may be anything. -/
theorem compileOutput_of_agrees (c : Compiler)
    (load : Path → Except Error Bitmap) (baseDir : Path)
    (output : OutputSpec) :
    (∀ output', output.Corresponds (BlockSpec.Agrees c.schema) output' →
      SameButNames (c.compileOutput load baseDir output)
        (c.compileOutput load baseDir output')) ∧
    ∀ output',
      output.Corresponds (BlockSpec.Rearranged c.schema) output' →
        SameButNames (c.compileOutput load baseDir output)
          (c.compileOutput load baseDir output') := by
  refine ⟨fun _ => sameButNames_of_agrees load baseDir, fun _ h => ?_⟩
  exact sameButNames_of_agrees load baseDir
    ⟨h.target, h.emptySprites, h.blocks.imp fun _ _ h => h.agrees⟩

/-- The bindings of the small output with a name in each block that is no
field, and with an icon in front that no icon could be. -/
def wordyOutput : OutputSpec where
  target := iconOutput.target
  emptySprites := iconOutput.emptySprites
  blocks := [
    ⟨iconDef.magic, 1, [("icon", .bool true), ("colour", .null),
      ("icon", .mapping [(.string "sheet", .string "clear.png")])]⟩,
    ⟨iconDef.magic, 1, [("colour", .int 7), ("icon", .int 1)]⟩]

/-- It is compiled to the same file. What is reported beside warnings
about names is the same too, but now there are three of these. -/
theorem compileOutput_of_agrees_wordy :
    iconOutput.Corresponds (BlockSpec.Rearranged iconCompiler.schema)
      wordyOutput ∧
    iconOutput.Corresponds (BlockSpec.Agrees iconCompiler.schema)
      wordyOutput ∧
    (iconCompiler.compileOutput clearSheet ⟨"."⟩ wordyOutput).1 =
      .ok iconFile ∧
    Diagnostics.besideNames (iconCompiler.compileOutput clearSheet ⟨"."⟩
      wordyOutput).2.diagnostics = [] ∧
    (iconCompiler.compileOutput clearSheet ⟨"."⟩
      wordyOutput).2.diagnostics =
        [unusedField iconDef.magic 1 "colour",
          redefinedField iconDef.magic "icon",
          unusedField iconDef.magic 1 "colour"] := by
  have hunknown : ¬ iconCompiler.schema.Gives iconDef.magic 1 "colour" := by
    rintro ⟨fields, hfields, hname⟩
    obtain rfl : iconDef.fields = fields := Except.ok.inj hfields
    revert hname
    decide
  have hblocks : List.Forall₂ (BlockSpec.Rearranged iconCompiler.schema)
      iconOutput.blocks wordyOutput.blocks := by
    refine .cons ⟨rfl, rfl, ?_⟩ (.cons ⟨rfl, rfl, ?_⟩ .nil)
    · refine .trans (.earlier [] _ (.bool true) ?_)
        (.unknown [("icon", .bool true)] _ .null hunknown)
      exact List.mem_cons_self
    · exact .unknown [] _ (.int 7) hunknown
  have hrearranged : iconOutput.Corresponds
      (BlockSpec.Rearranged iconCompiler.schema) wordyOutput :=
    ⟨rfl, rfl, hblocks⟩
  have hagrees : iconOutput.Corresponds
      (BlockSpec.Agrees iconCompiler.schema) wordyOutput :=
    ⟨rfl, rfl, hblocks.imp fun _ _ h => h.agrees⟩
  obtain ⟨hsame, hsame'⟩ :=
    compileOutput_of_agrees iconCompiler clearSheet ⟨"."⟩ iconOutput
  refine ⟨hrearranged, hagrees, ?_, ?_, rfl⟩
  · rw [← (hsame wordyOutput hagrees).result]
    exact compileOutput_iconOutput
  · rw [← (hsame' wordyOutput hrearranged).diagnostics]
    rfl

end Compiler

end GamePack
