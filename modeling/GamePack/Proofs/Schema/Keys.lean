import GamePack.Proofs.Schema.Loading
import Mathlib.Logic.Relation

/-!
Which keys a schema is read with. The places of a document where keys are
read are its records, the type expressions in them, and the records in
these; each place says which places it has inside. In a schema that is
loaded every record, at any depth, has known keys only. A type expression
is read by the first form that fits. It has the keys that its form needs,
and a key of no form makes no difference to it.
-/
namespace GamePack

open Yaml

-- ============================================================== places

/-- The kinds of records in a schema document. -/
inductive RecordKind where
  | schema
  | enumeration
  | bitSet
  | struct
  | block
  | field
  | subField
  | bitField
  deriving DecidableEq, Repr

namespace RecordKind

/-- The keys of a record. -/
def keys : RecordKind → List String
  | schema => ["enums", "bitsets", "structs", "blocks"]
  | enumeration => ["name", "type", "values"]
  | bitSet => ["name", "storage", "fields"]
  | struct => ["name", "fields"]
  | block => ["magic", "minversion", "maxversion", "fields"]
  | field => ["name", "type", "minversion", "maxversion", "description"]
  | subField => ["name", "type"]
  | bitField => BitFieldSpec.keys

/-- The keys above lists of records, and the kinds of these. -/
def lists : RecordKind → List (String × RecordKind)
  | schema => [("enums", enumeration), ("bitsets", bitSet),
      ("structs", struct), ("blocks", block)]
  | bitSet => [("fields", bitField)]
  | struct => [("fields", subField)]
  | block => [("fields", field)]
  | enumeration | field | subField | bitField => []

/-- Whether the key for a type stands above a type expression. -/
def hasType : RecordKind → Bool
  | field | subField => true
  | _ => false

/-- Whether a node is a record of a kind. -/
def Reads : RecordKind → Node → Prop
  | schema, n => ∃ d, SchemaDocument.ofNode n = .ok d
  | enumeration, n => ∃ e, EnumerationSpec.ofNode n = .ok e
  | bitSet, n => ∃ b, BitSetSpec.ofNode n = .ok b
  | struct, n => ∃ s, StructSpec.ofNode n = .ok s
  | block, n => ∃ b, BlockDefSpec.ofNode n = .ok b
  | field, n => ∃ f, FieldSpec.ofNode n = .ok f
  | subField, n => ∃ f, subFieldOfNode n = .ok f
  | bitField, n => ∃ b, BitFieldSpec.ofNode n = .ok b

end RecordKind

namespace TypeExpr

/-- The keys of a type expression of this form. -/
def keys : TypeExpr → List String
  | named _ => []
  | list _ _ => ["list", "count"]
  | struct _ => ["fields"]
  | bits _ _ => ["storage", "bits"]

/-- The keys that a type expression of this form must have. -/
def needed : TypeExpr → List String
  | named _ => []
  | list _ _ => ["list"]
  | struct _ => ["fields"]
  | bits _ _ => ["storage", "bits"]

/-- The keys of all forms. -/
def formKeys : List String :=
  ["list", "count", "fields", "storage", "bits"]

/-- The sub-field of a value inside a type expression. -/
def subFieldOfValue (levels : Nat) (v : Yaml.Value) :
    Except Fault (String × TypeExpr) := do
  let r ← Choice.record RecordKind.subField.keys v
  return (← Choice.need r "name" Choice.text,
    ← Choice.need r "type" (ofValue levels))

end TypeExpr

/-- A place of a schema document where keys are read. Type expressions
and what is inside them may have so many levels. -/
inductive Place where
  | record (kind : RecordKind) (n : Node)
  | expression (levels : Nat) (v : Yaml.Value)
  | subField (levels : Nat) (v : Yaml.Value)
  | bitField (v : Yaml.Value)

namespace Place

/-- The places inside a place. -/
def parts : Place → List Place
  | record kind n =>
    (kind.lists.flatMap fun list =>
      ((n.under list.1).flatMap Node.rows).map (record list.2)) ++
    if kind.hasType then
      ((n.under "type").filterMap (·.choice.toOption)).map
        (expression (Tree.maxDepth + 1))
    else []
  | expression levels v =>
    match TypeExpr.ofValue levels v with
    | .ok e@(.list _ _) =>
      (Choice.given e.keys "list" v).map (expression (levels - 1))
    | .ok e@(.struct _) =>
      ((Choice.given e.keys "fields" v).flatMap Choice.rows).map
        (subField (levels - 1))
    | .ok e@(.bits _ _) =>
      ((Choice.given e.keys "bits" v).flatMap Choice.rows).map bitField
    | _ => []
  | subField levels v =>
    (Choice.given RecordKind.subField.keys "type" v).map
      (expression levels)
  | bitField _ => []

/-- A place is inside another, at any depth. -/
def Holds : Place → Place → Prop :=
  Relation.ReflTransGen fun p q => q ∈ p.parts

/-- The places inside a place, down to some depth. -/
def within : Nat → Place → List Place
  | 0, p => [p]
  | depth + 1, p => p :: p.parts.flatMap (within depth)

/-- Whether every key at a place means something there. -/
def isStrict : Place → Bool
  | record kind n => n.pairs.all fun entry => Node.knows kind.keys entry.1
  | expression levels v =>
    match TypeExpr.ofValue levels v with
    | .ok e =>
      (Choice.pairs v).all fun entry => Choice.knows e.keys entry.1
    | .error _ => true
  | subField _ v =>
    (Choice.pairs v).all fun entry =>
      Choice.knows RecordKind.subField.keys entry.1
  | bitField v =>
    (Choice.pairs v).all fun entry => Choice.knows BitFieldSpec.keys entry.1

/-- What is known of the keys at a place: all those of a record mean
something; a type expression has the keys that it needs, and is the same
without a key of no form. -/
def IsKeyed : Place → Prop
  | expression levels v =>
    ∃ e, TypeExpr.ofValue levels v = .ok e ∧
      (∀ name ∈ e.needed, ∃ entry ∈ Choice.pairs v,
        Choice.fieldOf e.keys entry.1 = .ok (some name)) ∧
      ∀ before key value after, key ∉ TypeExpr.formKeys →
        v = .mapping (before ++ (.string key, value) :: after) →
        TypeExpr.ofValue levels (.mapping (before ++ after)) = .ok e
  | p => p.isStrict = true

/-- A place that is read as what it should be. -/
def Reads : Place → Prop
  | record kind n => kind.Reads n
  | expression levels v => ∃ e, TypeExpr.ofValue levels v = .ok e
  | subField levels v => ∃ f, TypeExpr.subFieldOfValue levels v = .ok f
  | bitField v => ∃ b, BitFieldSpec.ofValue v = .ok b

end Place

-- ==================================================== type expressions

namespace TypeExpr

variable {levels : Nat} {v : Yaml.Value} {e : TypeExpr}

/-- How a value is read as a type expression, by the form of this. -/
inductive IsReadAs (levels : Nat) (v : Yaml.Value) : TypeExpr → Prop where
  | named {name : String} (h : Choice.text v = .ok name) :
      IsReadAs levels v (.named name)
  | list {fields : Choice.Fields} {element : TypeExpr}
      {count : Option String}
      (hshape : Choice.shape (list element count).keys v = .ok fields)
      (helement : Choice.need fields "list" (ofValue levels) =
        .ok element) :
      IsReadAs levels v (.list element count)
  | struct {fields : Choice.Fields} {subs : List (String × TypeExpr)}
      (hshape : Choice.shape (struct subs).keys v = .ok fields)
      (hsubs : Choice.need fields "fields"
        (Choice.items (subFieldOfValue levels)) = .ok subs) :
      IsReadAs levels v (.struct subs)
  | bits {fields : Choice.Fields} {storage : String}
      {specs : List BitFieldSpec}
      (hshape : Choice.shape (bits storage specs).keys v = .ok fields)
      (hstorage : Choice.need fields "storage" Choice.text = .ok storage)
      (hspecs : Choice.need fields "bits"
        (Choice.items BitFieldSpec.ofValue) = .ok specs) :
      IsReadAs levels v (.bits storage specs)

/-- The first result that succeeds is one of the row. -/
theorem firstOf_ok {α : Type} {l : List (Except Fault α)} {a : α}
    (h : firstOf l = .ok a) : .ok a ∈ l := by
  induction l with
  | nil => cases h
  | cons r rest ih =>
      cases r with
      | ok b =>
          obtain rfl := Except.ok.inj h
          exact List.mem_cons_self
      | error fault => exact List.mem_cons_of_mem _ (ih h)

/-- A type expression is read in its own form. -/
theorem isReadAs_of_ofValue (h : ofValue (levels + 1) v = .ok e) :
    IsReadAs levels v e := by
  rw [ofValue] at h
  have hread := firstOf_ok h
  simp only [List.mem_cons, List.not_mem_nil, or_false] at hread
  rcases hread with hread | hread | hread | hread
  · obtain ⟨name, hname, rfl⟩ := map_eq_ok.1 hread.symm
    exact .named hname
  · replace hread := hread.symm
    simp only [bind_eq_ok, pure_ok_iff] at hread
    obtain ⟨fields, hshape, element, helement, count, -, rfl⟩ := hread
    exact .list hshape helement
  · replace hread := hread.symm
    simp only [bind_eq_ok, pure_ok_iff] at hread
    obtain ⟨fields, hshape, subs, hsubs, rfl⟩ := hread
    exact .struct hshape hsubs
  · replace hread := hread.symm
    simp only [bind_eq_ok, pure_ok_iff] at hread
    obtain ⟨fields, hshape, storage, hstorage, specs, hspecs, rfl⟩ := hread
    exact .bits hshape hstorage hspecs

/-- A type expression has the keys that its form needs. -/
theorem IsReadAs.exists_of_needed (h : IsReadAs levels v e) :
    ∀ name ∈ e.needed, ∃ entry ∈ Choice.pairs v,
      Choice.fieldOf e.keys entry.1 = .ok (some name) := by
  intro name hname
  cases h with
  | named h => cases hname
  | list hshape helement =>
      obtain rfl := List.mem_singleton.1 hname
      obtain ⟨value, hvalue, -⟩ := Choice.need_ok_iff.1 helement
      exact Choice.exists_of_shape hshape hvalue
  | struct hshape hsubs =>
      obtain rfl := List.mem_singleton.1 hname
      obtain ⟨value, hvalue, -⟩ := Choice.need_ok_iff.1 hsubs
      exact Choice.exists_of_shape hshape hvalue
  | bits hshape hstorage hspecs =>
      rcases List.mem_pair.1 hname with rfl | rfl
      · obtain ⟨value, hvalue, -⟩ := Choice.need_ok_iff.1 hstorage
        exact Choice.exists_of_shape hshape hvalue
      · obtain ⟨value, hvalue, -⟩ := Choice.need_ok_iff.1 hspecs
        exact Choice.exists_of_shape hshape hvalue

/-- A key of no form makes no difference to what a mapping is read as. -/
theorem ofValue_append_cons {key : String} (hkey : key ∉ formKeys)
    (before after : List (Yaml.Value × Yaml.Value)) (value : Yaml.Value) :
    ofValue levels (.mapping (before ++ (.string key, value) :: after)) =
      ofValue levels (.mapping (before ++ after)) := by
  cases levels with
  | zero => rfl
  | succ levels =>
      have hlist : ["list", "count"] ⊆ formKeys := by decide
      have hstruct : ["fields"] ⊆ formKeys := by decide
      have hbits : ["storage", "bits"] ⊆ formKeys := by decide
      simp only [ofValue,
        Choice.shape_append_cons (fun h => hkey (hlist h)),
        Choice.shape_append_cons (fun h => hkey (hstruct h)),
        Choice.shape_append_cons (fun h => hkey (hbits h))]
      rfl

end TypeExpr

-- ============================================================ records

namespace RecordKind

variable {kind : RecordKind} {n : Node}

/-- What the fields of a record of a kind are: its keys are those of the
kind, its lists hold records, and its type is a type expression. -/
structure Opens (kind : RecordKind) (n : Node) (r : Record) : Prop where
  record : n.record kind.keys = .ok r
  lists : ∀ list ∈ kind.lists, ∀ value, r.lookup list.1 = some value →
    ∀ item ∈ value.rows, list.2.Reads item
  type : kind.hasType = true → ∀ value, r.lookup "type" = some value →
    ∃ e, TypeExpr.ofNode value = .ok e

/-- A record that is read has the keys of its kind, and what stands under
them is read. -/
theorem Reads.opens (h : kind.Reads n) : ∃ r, kind.Opens n r := by
  cases kind with
  | schema =>
      obtain ⟨d, h⟩ := h
      simp only [SchemaDocument.ofNode, bind_eq_ok] at h
      obtain ⟨r, hr, enums, henums, bitSets, hbitSets, structs, hstructs,
        blocks, hblocks, -⟩ := h
      refine ⟨r, hr, ?_, fun htype => (by cases htype)⟩
      intro list hlist value hvalue item hitem
      simp only [lists, List.mem_cons, List.not_mem_nil, or_false] at hlist
      rcases hlist with rfl | rfl | rfl | rfl
      · exact Node.items_ok (Record.of_withDefault_some henums hvalue) hitem
      · exact Node.items_ok (Record.of_withDefault_some hbitSets hvalue) hitem
      · exact Node.items_ok (Record.of_withDefault_some hstructs hvalue) hitem
      · exact Node.items_ok (Record.of_withDefault_some hblocks hvalue) hitem
  | enumeration =>
      obtain ⟨e, h⟩ := h
      obtain ⟨r, hr, -⟩ := bind_eq_ok.1 h
      exact ⟨r, hr, fun _ hlist => absurd hlist List.not_mem_nil,
        fun htype => (by cases htype)⟩
  | bitSet =>
      obtain ⟨b, h⟩ := h
      simp only [BitSetSpec.ofNode, bind_eq_ok] at h
      obtain ⟨r, hr, name, -, storage, -, fields, hfields, -⟩ := h
      refine ⟨r, hr, ?_, fun htype => (by cases htype)⟩
      intro list hlist value hvalue item hitem
      obtain rfl := List.mem_singleton.1 hlist
      exact Node.items_ok (Record.of_need hfields hvalue) hitem
  | struct =>
      obtain ⟨s, h⟩ := h
      simp only [StructSpec.ofNode, bind_eq_ok] at h
      obtain ⟨r, hr, name, -, fields, hfields, -⟩ := h
      refine ⟨r, hr, ?_, fun htype => (by cases htype)⟩
      intro list hlist value hvalue item hitem
      obtain rfl := List.mem_singleton.1 hlist
      exact Node.items_ok (Record.of_need hfields hvalue) hitem
  | block =>
      obtain ⟨b, h⟩ := h
      simp only [BlockDefSpec.ofNode, bind_eq_ok] at h
      obtain ⟨r, hr, magic, -, first, -, last, -, fields, hfields, -⟩ := h
      refine ⟨r, hr, ?_, fun htype => (by cases htype)⟩
      intro list hlist value hvalue item hitem
      obtain rfl := List.mem_singleton.1 hlist
      exact Node.items_ok (Record.of_withDefault_some hfields hvalue) hitem
  | field =>
      obtain ⟨f, h⟩ := h
      simp only [FieldSpec.ofNode, bind_eq_ok] at h
      obtain ⟨r, hr, description, -, name, -, e, he, -⟩ := h
      exact ⟨r, hr, fun _ hlist => absurd hlist List.not_mem_nil,
        fun _ value hvalue => ⟨e, Record.of_need he hvalue⟩⟩
  | subField =>
      obtain ⟨f, h⟩ := h
      simp only [subFieldOfNode, bind_eq_ok] at h
      obtain ⟨r, hr, name, -, e, he, -⟩ := h
      exact ⟨r, hr, fun _ hlist => absurd hlist List.not_mem_nil,
        fun _ value hvalue => ⟨e, Record.of_need he hvalue⟩⟩
  | bitField =>
      obtain ⟨b, h⟩ := h
      obtain ⟨r, hr, -⟩ := bind_eq_ok.1 h
      exact ⟨r, hr, fun _ hlist => absurd hlist List.not_mem_nil,
        fun htype => (by cases htype)⟩

end RecordKind

-- ============================================================= places

namespace Place

variable {p q : Place}

/-- What is found to a depth is inside, at that depth or above. -/
theorem holds_of_mem_within {depth : Nat} (h : q ∈ p.within depth) :
    p.Holds q := by
  induction depth generalizing p with
  | zero =>
      obtain rfl := List.mem_singleton.1 h
      exact .refl
  | succ depth ih =>
      rcases List.mem_cons.1 h with rfl | h
      · exact .refl
      · obtain ⟨part, hpart, h⟩ := List.mem_flatMap.1 h
        exact .head hpart (ih h)

/-- The places in a record that is read are read. -/
theorem reads_of_mem_record {kind : RecordKind} {n : Node}
    (h : kind.Reads n) (hq : q ∈ (record kind n).parts) : q.Reads := by
  obtain ⟨r, hr, hlists, htype⟩ := h.opens
  rcases List.mem_append.1 hq with hq | hq
  · obtain ⟨list, hlist, hq⟩ := List.mem_flatMap.1 hq
    obtain ⟨item, hitem, rfl⟩ := List.mem_map.1 hq
    obtain ⟨value, hvalue, hitem⟩ := List.mem_flatMap.1 hitem
    have hfield := Node.lookup_of_record hr hvalue
    exact hlists list hlist value hfield item hitem
  · split at hq
    next hkind =>
      obtain ⟨v, hv, rfl⟩ := List.mem_map.1 hq
      obtain ⟨value, hvalue, hchoice⟩ := List.mem_filterMap.1 hv
      have hfield := Node.lookup_of_record hr hvalue
      obtain ⟨e, he⟩ := htype hkind value hfield
      obtain ⟨found, hfound, he⟩ := bind_eq_ok.1 he
      rw [hfound] at hchoice
      obtain rfl := Option.some.inj hchoice
      exact ⟨e, he⟩
    next => cases hq

/-- The places in a type expression that is read are read, for the form
it is read in. -/
theorem reads_of_mem_expression {levels : Nat} {v : Yaml.Value}
    {e : TypeExpr} (h : TypeExpr.ofValue levels v = .ok e)
    (hq : q ∈ (expression levels v).parts) : q.Reads := by
  simp only [parts, h] at hq
  cases levels with
  | zero => cases h
  | succ levels =>
      cases TypeExpr.isReadAs_of_ofValue h with
      | named hname => cases hq
      | list hshape helement =>
          obtain ⟨value, hvalue, rfl⟩ := List.mem_map.1 hq
          have hfield := Choice.lookup_of_shape hshape hvalue
          exact ⟨_, Choice.of_need helement hfield⟩
      | struct hshape hsubs =>
          obtain ⟨item, hitem, rfl⟩ := List.mem_map.1 hq
          obtain ⟨value, hvalue, hitem⟩ := List.mem_flatMap.1 hitem
          have hfield := Choice.lookup_of_shape hshape hvalue
          exact Choice.items_ok (Choice.of_need hsubs hfield) hitem
      | bits hshape hstorage hspecs =>
          obtain ⟨item, hitem, rfl⟩ := List.mem_map.1 hq
          obtain ⟨value, hvalue, hitem⟩ := List.mem_flatMap.1 hitem
          have hfield := Choice.lookup_of_shape hshape hvalue
          exact Choice.items_ok (Choice.of_need hspecs hfield) hitem

/-- The type of a sub-field that is read is read. -/
theorem reads_of_mem_subField {levels : Nat} {v : Yaml.Value}
    {f : String × TypeExpr} (h : TypeExpr.subFieldOfValue levels v = .ok f)
    (hq : q ∈ (subField levels v).parts) : q.Reads := by
  obtain ⟨value, hvalue, rfl⟩ := List.mem_map.1 hq
  simp only [TypeExpr.subFieldOfValue, bind_eq_ok] at h
  obtain ⟨r, hr, name, -, e, he, -⟩ := h
  have hfield := Choice.lookup_of_record (by decide) hr hvalue
  exact ⟨e, Choice.of_need he hfield⟩

/-- What is inside a place that is read is read. -/
theorem Reads.of_mem_parts (h : p.Reads) (hq : q ∈ p.parts) : q.Reads := by
  cases p with
  | record kind n => exact reads_of_mem_record h hq
  | expression levels v =>
      obtain ⟨e, he⟩ := h
      exact reads_of_mem_expression he hq
  | subField levels v =>
      obtain ⟨f, hf⟩ := h
      exact reads_of_mem_subField hf hq
  | bitField v => cases hq

/-- The keys of a place that is read. -/
theorem Reads.isKeyed (h : p.Reads) : p.IsKeyed := by
  cases p with
  | record kind n =>
      obtain ⟨r, hr⟩ := RecordKind.Reads.opens h
      exact List.all_eq_true.2 (Node.knows_of_record hr.record)
  | expression levels v =>
      obtain ⟨e, he⟩ := h
      refine ⟨e, he, ?_, ?_⟩
      · cases levels with
        | zero => cases he
        | succ levels =>
            exact (TypeExpr.isReadAs_of_ofValue he).exists_of_needed
      · rintro before key value after hkey rfl
        rwa [TypeExpr.ofValue_append_cons hkey] at he
  | subField levels v =>
      obtain ⟨f, hf⟩ := h
      obtain ⟨r, hr, -⟩ := bind_eq_ok.1 hf
      exact List.all_eq_true.2 (Choice.knows_of_record hr)
  | bitField v =>
      obtain ⟨b, hb⟩ := h
      obtain ⟨r, hr, -⟩ := bind_eq_ok.1 hb
      exact List.all_eq_true.2 (Choice.knows_of_record hr)

/-- All places inside a place that is read are read. -/
theorem Reads.of_holds (h : p.Reads) (hq : p.Holds q) : q.Reads := by
  induction hq with
  | refl => exact h
  | tail _ hpart ih => exact ih.of_mem_parts hpart

end Place

namespace Schema

/-- In a schema that is loaded, every record at any depth has keys that
mean something only; every type expression at any depth has the keys that
its form needs, and means the same without a key of no form. -/
theorem keys_of_parse {text : String} {s : Schema}
    (h : Schema.parse text = .ok s) :
    ∃ root, Node.parse text = .ok root ∧
      ∀ p, (Place.record .schema root).Holds p → p.IsKeyed := by
  simp only [Schema.parse, SchemaDocument.parse, bind_eq_ok,
    mapError_ok_iff] at h
  obtain ⟨d, ⟨root, hroot, hd⟩, -⟩ := h
  have hread : (Place.record .schema root).Reads := ⟨d, hd⟩
  exact ⟨root, hroot, fun p hp => (hread.of_holds hp).isKeyed⟩

/-- A schema whose list has a misspelt key for its count. -/
def costText : String :=
  "blocks: [\x7bmagic: COST, minversion: 1, maxversion: 1, " ++
    "fields: [\x7bname: costs, type: \x7blist: uint32, " ++
    "coutn: uint16\x7d\x7d]\x7d]"

/-- A kind of block of costs, with the count that is the default. -/
def costDef : BlockDef where
  magic := ⟨[0x43, 0x4f, 0x53, 0x54], rfl, by decide⟩
  minVersion := 1
  maxVersion := 1
  fields := [{ name := "costs", type := .list .uint8 (.numeric .uint32) }]

/-- The schema of the text. -/
def costSchema : Schema where
  registry := .builtin
  blocks := [("COST", costDef)]

theorem parse_costText : Schema.parse costText = .ok costSchema :=
  parse_eq_of_parts (by decide +kernel)

/-- The text with a misspelt key is a schema, whose places are keyed. -/
theorem keys_of_parse_cost :
    Schema.parse costText = .ok costSchema ∧
      ∃ root, Node.parse costText = .ok root ∧
        ∀ p, (Place.record .schema root).Holds p → p.IsKeyed :=
  ⟨parse_costText, keys_of_parse parse_costText⟩

/-- The text with a misspelt key is not refused but read with the default
count, although the key means nothing where it stands. -/
theorem parse_ok_of_misspelt :
    Schema.parse costText = .ok costSchema ∧
      ¬ ∀ root, Node.parse costText = .ok root →
        ∀ p, (Place.record .schema root).Holds p → p.isStrict = true := by
  have hloose : ((Node.parse costText).toOption.any fun root =>
      ((Place.record .schema root).within 3).any (!·.isStrict)) = true := by
    decide +kernel
  refine ⟨parse_costText, fun hstrict => ?_⟩
  cases hroot : Node.parse costText with
  | error fault =>
      rw [hroot] at hloose
      cases hloose
  | ok root =>
      rw [hroot] at hloose
      obtain ⟨p, hp, hnot⟩ := List.any_eq_true.1 hloose
      rw [hstrict root hroot p (Place.holds_of_mem_within hp)] at hnot
      cases hnot

end Schema

end GamePack
