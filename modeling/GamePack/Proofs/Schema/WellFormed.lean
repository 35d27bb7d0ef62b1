import GamePack.Proofs.Compilation.Blocks
import GamePack.Proofs.Schema.Loading

/-!
The types of a loaded schema. `IsSound` says of one type what the rest of
the library relies on without a check of its own: it is not raw bytes,
sub-fields and bit fields have distinct names, bit fields start inside
their storage and have a possible count, and what symbols stand for fits
its base. A type is well formed when every type in it, at any depth, is
sound.

Each way to make a type keeps this, as long as the names are looked up in
a registry of well formed types. So it holds of the builtin types, of the
types that are registered one after the other, and of the types of all
fields.
-/
namespace GamePack

-- ========================================================= sound types

/-- Every symbol that is known stands for a number of the base. -/
def Enumeration.IsSound (e : Enumeration) : Prop :=
  ∀ symbol value, e.lookup symbol = .ok value →
    e.base.min ≤ value ∧ value ≤ e.base.max

/-- Bit fields with distinct names and possible counts, which start
inside the storage and take symbols of sound enumerations. -/
structure BitSet.IsSound (b : BitSet) : Prop where
  distinct : (b.fields.map BitField.name).Nodup
  inside : ∀ f ∈ b.fields, f.start < b.storage.bits
  counted : ∀ f ∈ b.fields, f.min ≤ f.max
  sources : ∀ f ∈ b.fields, f.source.IsSound

/-- A symbol that a sound enumeration knows is converted to the number it
stands for. -/
theorem Enumeration.IsSound.runs_convert {e : Enumeration}
    (h : e.IsSound) {symbol : String} {value : Int}
    (hlookup : e.lookup symbol = .ok value)
    (settings : ConversionSettings) (s : ConversionState) :
    (Conversion.convert settings (.enumeration e) (.symbol symbol)).Runs s
      (.int value) s := by
  obtain ⟨hmin, hmax⟩ := h symbol value hlookup
  have hvalue : Conversion.symbolValue e symbol = .ok value := by
    rw [Conversion.symbolValue, hlookup, ok_bind]
    exact Numeric.check_ok_iff.2 ⟨rfl, hmin, hmax⟩
  simp [Conversion.convert, hvalue]

namespace DataType

/-- The types that a type is built from. -/
def inner : DataType → List DataType
  | list _ element => [element]
  | struct _ fields => fields.map Prod.snd
  | numeric _ | enumeration _ | reference _ | text | imageData | bitSet _
  | raw => []

/-- A type is another one or stands in it, at any depth. -/
inductive IsPart (part : DataType) : DataType → Prop where
  | refl : IsPart part part
  | inner {t u : DataType} (hu : u ∈ t.inner) (h : IsPart part u) :
      IsPart part t

/-- What is relied on of a type by itself. -/
def IsSound : DataType → Prop
  | enumeration e => e.IsSound
  | struct _ fields => (fields.map Prod.fst).Nodup
  | bitSet b => b.IsSound
  | raw => False
  | numeric _ | reference _ | text | imageData | list _ _ => True

/-- A type that is sound at every depth. -/
def IsWellFormed (t : DataType) : Prop :=
  ∀ part : DataType, part.IsPart t → part.IsSound

/-- A well formed type is sound itself. -/
theorem IsWellFormed.isSound {t : DataType} (h : t.IsWellFormed) :
    t.IsSound :=
  h t .refl

/-- A sound type that is built from well formed types is well formed. -/
theorem isWellFormed_of_inner {t : DataType} (h : t.IsSound)
    (hinner : ∀ u ∈ t.inner, u.IsWellFormed) : t.IsWellFormed := by
  intro part hpart
  cases hpart with
  | refl => exact h
  | inner hu hpart => exact hinner _ hu part hpart

/-- A sound type that is built from no other is well formed. -/
theorem isWellFormed_of_alone {t : DataType} (h : t.IsSound)
    (halone : t.inner = []) : t.IsWellFormed := by
  apply isWellFormed_of_inner h
  intro u hu
  rw [halone] at hu
  exact absurd hu List.not_mem_nil

end DataType

-- ============================================================ building

/-- What an enumeration is made of lies in the range of its base. -/
theorem Enumeration.isSound_of_ofValues {name : String} {base : Numeric}
    {entries : List (String × Int)} {e : Enumeration}
    (h : Enumeration.ofValues name base entries = .ok e) : e.IsSound := by
  simp only [ofValues, bind_eq_ok, pure_ok_iff] at h
  obtain ⟨values, hvalues, rfl⟩ := h
  have hrange : ∀ entry ∈ values,
      base.min ≤ entry.2 ∧ entry.2 ≤ base.max := by
    refine foldlM_induction
      (p := fun values : Dictionary Int => ∀ entry ∈ values,
        base.min ≤ entry.2 ∧ entry.2 ≤ base.max)
      hvalues ?_ fun added _ earlier later ih hadd => ?_
    · exact fun entry hentry => absurd hentry List.not_mem_nil
    unfold addSymbol at hadd
    split at hadd
    · cases hadd
    next value hcheck =>
      obtain ⟨rfl, hmin, hmax⟩ := Numeric.check_ok_iff.1 hcheck
      split at hadd
      · cases hadd
      · obtain rfl := Except.ok.inj hadd
        intro entry hentry
        rcases Dictionary.mem_insert hentry with rfl | hentry
        · exact ⟨hmin, hmax⟩
        · exact ih entry hentry
  intro symbol value hlookup
  unfold lookup at hlookup
  split at hlookup
  next found hfound =>
    obtain rfl := Except.ok.inj hlookup
    exact hrange _ (Dictionary.mem_of_find? hfound)
  next => cases hlookup

/-- An enumeration of a document takes its values from it and is
sound. -/
theorem EnumerationSpec.isSound_of_build {spec : EnumerationSpec}
    {e : Enumeration} (h : spec.build = .ok e) : e.IsSound := by
  simp only [EnumerationSpec.build, bind_eq_ok, mapError_ok_iff] at h
  obtain ⟨base, -, values, -, h⟩ := h
  exact Enumeration.isSound_of_ofValues h

/-- A bit field without a flaw starts inside the storage, has possible
counts and a name that no earlier one has. -/
theorem BitField.of_flaw?_eq_none {storage : Numeric}
    {earlier : List BitField} {f : BitField}
    (h : f.flaw? storage earlier = none) :
    f.start < storage.bits ∧ f.min ≤ f.max ∧
      ∀ g ∈ earlier, g.name ≠ f.name := by
  unfold flaw? at h
  split at h
  · cases h
  next hstart =>
    split at h
    · cases h
    next hcount =>
      split at h
      · cases h
      next hnames =>
        refine ⟨Nat.not_le.1 hstart, Nat.not_lt.1 hcount, ?_⟩
        simpa using hnames

/-- Fields without a flaw are placed and counted, and no two of them
have one name. -/
theorem BitSet.of_firstFlaw?_eq_none {storage : Numeric}
    {earlier fields : List BitField}
    (h : BitSet.firstFlaw? storage earlier fields = none) :
    (∀ f ∈ fields, f.start < storage.bits ∧ f.min ≤ f.max ∧
        ∀ g ∈ earlier, g.name ≠ f.name) ∧
      (fields.map BitField.name).Nodup := by
  induction fields generalizing earlier with
  | nil => simp
  | cons f fields ih =>
      unfold firstFlaw? at h
      split at h
      · cases h
      next hflaw =>
        obtain ⟨hfields, hdistinct⟩ := ih h
        have hfirst := BitField.of_flaw?_eq_none hflaw
        refine ⟨?_, ?_⟩
        · intro g hg
          rcases List.mem_cons.1 hg with rfl | hg
          · exact hfirst
          · obtain ⟨hstart, hcount, hnames⟩ := hfields g hg
            exact ⟨hstart, hcount, fun k hk =>
              hnames k (List.mem_append_left _ hk)⟩
        · rw [List.map_cons, List.nodup_cons]
          refine ⟨?_, hdistinct⟩
          intro hmem
          obtain ⟨g, hg, hname⟩ := List.mem_map.1 hmem
          obtain ⟨-, -, hnames⟩ := hfields g hg
          exact hnames f (by simp) hname.symm

/-- A bitset over sound enumerations is sound when it is made. -/
theorem BitSet.isSound_of_ofFields {name : String} {storage : Numeric}
    {fields : List BitField} {b : BitSet}
    (h : BitSet.ofFields name storage fields = .ok b)
    (hsources : ∀ f ∈ fields, f.source.IsSound) : b.IsSound := by
  unfold ofFields at h
  split at h
  · cases h
  next hflaw =>
    obtain rfl := Except.ok.inj h
    obtain ⟨hfields, hdistinct⟩ := of_firstFlaw?_eq_none hflaw
    exact {
      distinct := hdistinct
      inside := fun f hf => (hfields f hf).1
      counted := fun f hf => (hfields f hf).2.1
      sources := hsources }

/-- A structure that is built from well formed types is well formed,
since its sub-fields have distinct names. -/
theorem isWellFormed_of_buildStruct {name : String}
    {fields : List (String × DataType)} {t : DataType}
    (h : buildStruct name fields = .ok t)
    (hfields : ∀ f ∈ fields, f.2.IsWellFormed) : t.IsWellFormed := by
  unfold buildStruct at h
  split at h
  · cases h
  next hnone =>
    obtain rfl := Except.ok.inj h
    have hdistinct : (fields.map Prod.fst).Nodup :=
      (nodup_of_repeatedName? hnone).1
    refine DataType.isWellFormed_of_inner hdistinct fun u hu => ?_
    obtain ⟨f, hf, rfl⟩ := List.mem_map.1 hu
    exact hfields f hf

-- ========================================================== registries

/-- Every type of a registry is well formed. -/
def Registry.IsWellFormed (r : Registry) : Prop :=
  ∀ entry ∈ r.types, entry.2.IsWellFormed

namespace Registry

variable {r r' : Registry} {name : String} {t : DataType}

/-- The types that every schema has are well formed. -/
theorem isWellFormed_builtin : builtin.IsWellFormed := by
  intro entry hentry
  have hbuiltin : entry ∈ builtins := Dictionary.mem_ofList hentry
  rcases List.mem_append.1 hbuiltin with hnumeric | hother
  · obtain ⟨n, -, rfl⟩ := List.mem_map.1 hnumeric
    exact DataType.isWellFormed_of_alone trivial rfl
  · simp only [List.mem_cons, List.not_mem_nil, or_false] at hother
    rcases hother with rfl | rfl | rfl | rfl
    all_goals exact DataType.isWellFormed_of_alone trivial rfl

/-- Adding a well formed type keeps the types well formed. -/
theorem IsWellFormed.add (h : r.IsWellFormed) (ht : t.IsWellFormed)
    (hadd : r.add name t = .ok r') : r'.IsWellFormed := by
  unfold Registry.add at hadd
  split at hadd
  · cases hadd
  · obtain rfl := Except.ok.inj hadd
    intro entry hentry
    rcases Dictionary.mem_insert hentry with rfl | hentry
    · exact ht
    · exact h entry hentry

/-- A type that is looked up among well formed types is well formed. -/
theorem IsWellFormed.of_get (h : r.IsWellFormed)
    (hget : r.get name = .ok t) : t.IsWellFormed := by
  unfold get at hget
  split at hget
  next found hfound =>
    obtain rfl := Except.ok.inj hget
    exact h _ (Dictionary.mem_of_find? hfound)
  next => cases hget

/-- An enumeration that is looked up among well formed types is sound. -/
theorem IsWellFormed.of_getEnumeration (h : r.IsWellFormed)
    {e : Enumeration} (hget : r.getEnumeration name = .ok e) :
    e.IsSound := by
  unfold getEnumeration at hget
  split at hget
  · cases hget
  next found hfound =>
    obtain rfl := Except.ok.inj hget
    exact (h.of_get hfound).isSound
  next => cases hget

/-- A bitset that is built on well formed types is sound. -/
theorem IsWellFormed.of_buildBitSet (h : r.IsWellFormed)
    {storage : String} {fields : List BitFieldSpec} {b : BitSet}
    (hbuild : buildBitSet r name storage fields = .ok b) : b.IsSound := by
  simp only [buildBitSet, bind_eq_ok, pure_ok_iff, mapM_eq_ok] at hbuild
  obtain ⟨storage, -, built, hbuilt, hb⟩ := hbuild
  apply BitSet.isSound_of_ofFields hb
  intro f hf
  obtain ⟨spec, -, source, hsource, rfl⟩ :=
    exists_mem_of_forall₂ hbuilt.flip hf
  exact h.of_getEnumeration hsource

/-- What expressions mean is well formed, whichever owner their
structures and bitsets are named after. -/
theorem IsWellFormed.of_expressions (h : r.IsWellFormed)
    (owner : String) :
    (∀ (e : TypeExpr) (t : DataType), e.resolve r owner = .ok t →
        t.IsWellFormed) ∧
      ∀ fields built, TypeExpr.resolveFields r owner fields = .ok built →
        ∀ f ∈ built, f.2.IsWellFormed := by
  refine TypeExpr.resolve.mutual_induct
    (fun e => ∀ t, e.resolve r owner = .ok t → t.IsWellFormed)
    (fun fields => ∀ built,
      TypeExpr.resolveFields r owner fields = .ok built →
        ∀ f ∈ built, f.2.IsWellFormed)
    ?named ?list ?struct ?bits ?none ?field
  case named => exact fun name t ht => h.of_get ht
  case list =>
      intro element count ih t ht
      simp only [TypeExpr.resolve, bind_eq_ok, pure_ok_iff] at ht
      obtain ⟨n, -, u, hu, rfl⟩ := ht
      refine DataType.isWellFormed_of_inner (by trivial) fun v hv => ?_
      obtain rfl := List.mem_singleton.1 hv
      exact ih _ hu
  case struct =>
      intro fields ih t ht
      simp only [TypeExpr.resolve, bind_eq_ok] at ht
      obtain ⟨built, hbuilt, ht⟩ := ht
      exact isWellFormed_of_buildStruct ht (ih built hbuilt)
  case bits =>
      intro storage fields t ht
      simp only [TypeExpr.resolve, bind_eq_ok, pure_ok_iff] at ht
      obtain ⟨b, hb, rfl⟩ := ht
      exact DataType.isWellFormed_of_alone (h.of_buildBitSet hb) rfl
  case none =>
      intro built hbuilt
      obtain rfl := Except.ok.inj hbuilt
      exact fun f hf => absurd hf List.not_mem_nil
  case field =>
      intro name e rest ih ihrest built hbuilt
      simp only [TypeExpr.resolveFields, bind_eq_ok, pure_ok_iff] at hbuilt
      obtain ⟨t, ht, later, hlater, rfl⟩ := hbuilt
      exact List.forall_mem_cons.2 ⟨ih t ht, ihrest later hlater⟩

end Registry

-- =========================================================== documents

/-- The builtin types and all that a document declares are well formed. -/
theorem SchemaDocument.isWellFormed_of_registry {d : SchemaDocument}
    {r : Registry} (h : d.registry = .ok r) : r.IsWellFormed := by
  simp only [SchemaDocument.registry, SchemaDocument.register, bind_eq_ok,
    mapError_ok_iff] at h
  obtain ⟨named, hnamed, packed, hpacked, h⟩ := h
  have hnamed : named.IsWellFormed := by
    refine foldlM_induction hnamed Registry.isWellFormed_builtin
      fun spec _ r r' hr hadd => ?_
    simp only [Registry.addEnumeration, bind_eq_ok, mapError_ok_iff]
      at hadd
    obtain ⟨e, he, hadd⟩ := hadd
    have hsound : (DataType.enumeration e).IsSound :=
      EnumerationSpec.isSound_of_build he
    exact hr.add (DataType.isWellFormed_of_alone hsound rfl) hadd
  have hpacked : packed.IsWellFormed := by
    refine foldlM_induction hpacked hnamed fun spec _ r r' hr hadd => ?_
    simp only [Registry.addBitSet, bind_eq_ok] at hadd
    obtain ⟨b, hb, hadd⟩ := hadd
    have hsound : (DataType.bitSet b).IsSound := hr.of_buildBitSet hb
    exact hr.add (DataType.isWellFormed_of_alone hsound rfl) hadd
  refine foldlM_induction h hpacked fun spec _ r r' hr hadd => ?_
  simp only [Registry.addStruct, bind_eq_ok] at hadd
  obtain ⟨fields, hfields, t, ht, hadd⟩ := hadd
  refine hr.add (isWellFormed_of_buildStruct ht ?_) hadd
  exact (hr.of_expressions spec.name).2 spec.fields fields hfields

/-- A kind of block whose versions are not inverted and whose fields have
well formed types. -/
structure BlockDef.IsWellFormed (b : BlockDef) : Prop where
  versions : b.minVersion ≤ b.maxVersion
  types : ∀ f ∈ b.fields, f.type.IsWellFormed

/-- A kind of block that is built on well formed types is well formed. -/
theorem BlockDefSpec.isWellFormed_of_build {spec : BlockDefSpec}
    {r : Registry} {b : BlockDef} (hr : r.IsWellFormed)
    (h : spec.build r = .ok b) : b.IsWellFormed where
  versions := by
    obtain ⟨-, hmin, hmax, hle⟩ := BlockDefSpec.of_build h
    rw [hmin, hmax]
    exact hle
  types := by
    simp only [BlockDefSpec.build, guard_eq_ok, bind_eq_ok, pure_ok_iff,
      mapM_eq_ok] at h
    obtain ⟨-, fields, hfields, rfl⟩ := h
    intro f hf
    obtain ⟨field, -, hfield⟩ := exists_mem_of_forall₂ hfields.flip hf
    obtain ⟨t, ht, hfield⟩ := bind_eq_ok.1 hfield
    obtain rfl := pure_ok_iff.1 hfield
    exact (hr.of_expressions _).1 _ t ht

namespace Schema

/-- A schema of well formed types and kinds of blocks. -/
structure IsWellFormed (s : Schema) : Prop where
  registry : s.registry.IsWellFormed
  blocks : ∀ entry ∈ s.blocks, entry.2.IsWellFormed

/-- A schema that is built is well formed. -/
theorem isWellFormed_of_build {d : SchemaDocument} {s : Schema}
    (h : d.build = .ok s) : s.IsWellFormed := by
  simp only [SchemaDocument.build, SchemaDocument.define, bind_eq_ok,
    mapError_ok_iff] at h
  obtain ⟨r, hr, h⟩ := h
  have hr := SchemaDocument.isWellFormed_of_registry hr
  have hnew : ({ registry := r } : Schema).registry = r ∧
      ({ registry := r } : Schema).IsWellFormed :=
    ⟨rfl, hr, fun entry hentry => absurd hentry List.not_mem_nil⟩
  -- the registry stays the one that the types were looked up in
  have hstep := foldlM_induction
    (p := fun s : Schema => s.registry = r ∧ s.IsWellFormed) h hnew
    fun spec _ s s' hs hadd => by
      obtain ⟨b, hb, hadd⟩ := bind_eq_ok.1 hadd
      obtain ⟨-, rfl⟩ := addBlock_ok_iff.1 hadd
      refine ⟨hs.1, hs.2.registry, fun entry hentry => ?_⟩
      rcases Dictionary.mem_insert hentry with rfl | hentry
      · exact BlockDefSpec.isWellFormed_of_build hr hb
      · exact hs.2.blocks entry hentry
  exact hstep.2

/-- The types of a schema: those of its registry and those of the fields
of its blocks, in whatever version. -/
def HasType (s : Schema) (t : DataType) : Prop :=
  (∃ name, (name, t) ∈ s.registry.types) ∨
    ∃ entry ∈ s.blocks, ∃ f ∈ entry.2.fields, f.type = t

/-- A type of a well formed schema is well formed. -/
theorem IsWellFormed.of_hasType {s : Schema} (h : s.IsWellFormed)
    {t : DataType} (ht : s.HasType t) : t.IsWellFormed := by
  rcases ht with ⟨name, ht⟩ | ⟨entry, hentry, f, hf, rfl⟩
  · exact h.registry _ ht
  · exact (h.blocks entry hentry).types f hf

/-- No two kinds of blocks have one magic. -/
theorem IsMade.nodup_magics {s : Schema} (h : s.IsMade) :
    (s.blocks.map fun entry => entry.2.magic).Nodup := by
  obtain ⟨hordered, hkeys⟩ := h.keyed
  unfold List.Nodup
  rw [List.pairwise_map]
  refine hordered.imp_of_mem fun {a b} ha hb hlt hsame => ?_
  rw [hkeys a ha, hkeys b hb, hsame] at hlt
  exact absurd hlt (lt_irrefl _)

/-- In a schema that is loaded, every type of the registry and of a field
is sound at every depth, so that symbols it knows are always converted;
kinds of blocks have versions that are not inverted, and distinct magics
of four visible characters. -/
theorem types_of_parse {text : String} {s : Schema}
    (h : Schema.parse text = .ok s) :
    (∀ t, s.HasType t → ∀ part : DataType, part.IsPart t →
        part.IsSound ∧
          ∀ e : Enumeration, part = .enumeration e →
            ∀ symbol value, e.lookup symbol = .ok value →
              ∀ settings state,
                (Conversion.convert settings (.enumeration e)
                  (.symbol symbol)).Runs state (.int value) state) ∧
      (∀ entry ∈ s.blocks, entry.2.minVersion ≤ entry.2.maxVersion) ∧
      (s.blocks.map fun entry => entry.2.magic).Nodup ∧
      ∀ entry ∈ s.blocks, entry.2.magic.bytes.length = 4 ∧
        ∀ b ∈ entry.2.magic.bytes, 0x21 ≤ b ∧ b ≤ 0x7e := by
  have hmade := (isLoaded_of_parse h).made
  simp only [Schema.parse, bind_eq_ok, mapError_ok_iff] at h
  obtain ⟨d, -, hbuild⟩ := h
  have hformed := isWellFormed_of_build hbuild
  refine ⟨?_, fun entry hentry => (hformed.blocks entry hentry).versions,
    hmade.nodup_magics, ?_⟩
  · intro t ht part hpart
    have hsound := hformed.of_hasType ht part hpart
    refine ⟨hsound, ?_⟩
    rintro e rfl symbol value hlookup settings state
    exact Enumeration.IsSound.runs_convert hsound hlookup settings state
  · intro entry _
    refine ⟨entry.2.magic.length_eq, fun b hb => ?_⟩
    have hgraphic := List.all_eq_true.1 entry.2.magic.graphic b hb
    simpa [isGraphic] using hgraphic

/-- A schema with a list of structures, which have an enumeration. -/
def wallText : String :=
  "enums: [\x7bname: side, type: int8, values: \x7bN: 0, S: -1\x7d\x7d]\n" ++
    "structs: [\x7bname: wall, fields: [\x7bname: at, type: side\x7d]\x7d]\n" ++
    "blocks: [\x7bmagic: WALL, minversion: 1, maxversion: 2, " ++
    "fields: [\x7bname: walls, type: \x7blist: wall\x7d\x7d]\x7d]"

/-- Two sides of a wall. -/
def side : Enumeration := ⟨"side", .int8, [("N", 0), ("S", -1)]⟩

/-- A wall on one side. -/
def wall : DataType := .struct "wall" [("at", .enumeration side)]

/-- A kind of block of walls. -/
def wallDef : BlockDef where
  magic := ⟨[0x57, 0x41, 0x4c, 0x4c], rfl, by decide⟩
  minVersion := 1
  maxVersion := 2
  fields := [{ name := "walls", type := .list .uint8 wall }]

/-- The schema of the text. -/
def wallSchema : Schema where
  registry := ⟨.ofList (Registry.builtins ++
    [("side", .enumeration side), ("wall", wall)])⟩
  blocks := [("WALL", wallDef)]

/-- Inside the walls of the list the symbol of the south is converted to
its number. -/
theorem types_of_parse_walls :
    Schema.parse wallText = .ok wallSchema ∧
      wallSchema.HasType (.list .uint8 wall) ∧
      (DataType.enumeration side).IsPart (.list .uint8 wall) ∧
      side.lookup "S" = .ok (-1) ∧
      ∀ settings state,
        (Conversion.convert settings (.enumeration side)
          (.symbol "S")).Runs state (.int (-1)) state := by
  have hparse : Schema.parse wallText = .ok wallSchema :=
    parse_eq_of_parts (by decide +kernel)
  have htype : wallSchema.HasType (.list .uint8 wall) :=
    .inr ⟨_, List.mem_singleton.2 rfl, _, List.mem_singleton.2 rfl, rfl⟩
  have hwall : (DataType.enumeration side).IsPart wall :=
    .inner List.mem_cons_self .refl
  have hpart : (DataType.enumeration side).IsPart (.list .uint8 wall) :=
    .inner List.mem_cons_self hwall
  obtain ⟨htypes, -, -, -⟩ := types_of_parse hparse
  obtain ⟨-, hruns⟩ := htypes _ htype _ hpart
  exact ⟨hparse, htype, hpart, rfl, hruns side rfl "S" (-1) rfl⟩

end Schema

end GamePack
