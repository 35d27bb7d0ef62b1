import GamePack.Proofs.Schema.Refusals
import GamePack.Proofs.Schema.Keys

/-!
Symbols of a text. A document is read into a dictionary first, which
keeps the last value of each symbol, and what is made of a dictionary has
no symbol twice. So a text is never refused because it gives a symbol
several values: it loads like the text that gives the symbol the last of
them. What carries this is that the last of the entries of one name is
what a dictionary finds (`Dictionary.find?_ofList`), and that no other
step of loading refuses a symbol.
-/
namespace GamePack

open Yaml

-- ====================================================== rows of entries

/-- Rows with the same names, in which values stand for each other, find
values under a name that stand for each other. -/
theorem lookup_of_forall₂ {α β : Type} {R : α → β → Prop}
    {l : List (String × α)} {r : List (String × β)}
    (h : List.Forall₂ (fun a b => b.1 = a.1 ∧ R a.2 b.2) l r)
    (name : String) :
    Option.Rel R (l.lookup name) (r.lookup name) := by
  induction h with
  | nil => exact .none
  | @cons a b l r hab _ ih =>
      obtain ⟨key, value⟩ := a
      obtain ⟨key', value'⟩ := b
      obtain ⟨rfl, hvalue⟩ := hab
      rw [List.lookup_cons, List.lookup_cons]
      by_cases hname : name = key'
      · subst hname
        rw [beq_self_eq_true]
        exact .some hvalue
      · rw [beq_false_of_ne hname]
        exact ih

/-- Rows that go together entry by entry under the same names have the
same row of names. -/
theorem names_of_forall₂ {α β : Type} {R : α → β → Prop}
    {l : List (String × α)} {r : List (String × β)}
    (h : List.Forall₂ (fun a b => b.1 = a.1 ∧ R a.2 b.2) l r) :
    r.map Prod.fst = l.map Prod.fst := by
  induction h with
  | nil => rfl
  | cons hab _ ih => rw [List.map_cons, List.map_cons, hab.1, ih]

namespace EnumerationSpec

variable {spec : EnumerationSpec} {e : Enumeration}

/-- A symbol has the number that its value is read as. -/
theorem numbered_ok_iff {owner : String} {base : Numeric}
    {entry : String × Yaml.Value} {number : String × Int} :
    numbered owner base entry = .ok number ↔
      number.1 = entry.1 ∧
        numberOf? base entry.2 = .ok (some number.2) := by
  obtain ⟨symbol, n⟩ := number
  unfold numbered
  cases numberOf? base entry.2 with
  | error e => simp [bind_eq_ok]
  | ok found =>
      rw [ok_bind]
      cases found with
      | none => simp
      | some found =>
          simp only [pure_ok_iff, Except.ok.injEq, Option.some.injEq,
            Prod.mk.injEq]
          rw [eq_comm (a := n)]

/-- A symbol is refused as no whole number, or reading it panics. -/
theorem numbered_ne_symbolTwice {owner : String} {base : Numeric}
    {entry : String × Yaml.Value} (name symbol : String) :
    numbered owner base entry ≠
      .error (.schema (.invalidDefinition name (.symbolTwice symbol))) := by
  intro h
  unfold numbered at h
  rcases bind_eq_error.1 h with h | ⟨found, -, h⟩
  · unfold numberOf? at h
    split at h
    · cases h
    · obtain ⟨step, hstep, -⟩ :=
        Error.caught_eq_error_iff.1 (map_eq_error.1 h)
      cases hstep
    · cases h
  · cases found with
    | none => cases h
    | some n => exact pure_ne_error h

/-- What the values of a dictionary are read as, under its symbols. -/
theorem build_cases (h : spec.build = .ok e) :
    ∃ numbers : List (String × Int),
      Numeric.ofName? spec.base = some e.base ∧
      List.Forall₂ (fun entry number => number.1 = entry.1 ∧
        numberOf? e.base entry.2 = .ok (some number.2))
          spec.values numbers ∧
      Enumeration.ofValues spec.name e.base numbers = .ok e := by
  simp only [build, bind_eq_ok, mapError_ok_iff] at h
  obtain ⟨base, hbase, numbers, hnumbers, he⟩ := h
  obtain ⟨-, rfl, -, -⟩ := Enumeration.ofValues_ok he
  refine ⟨numbers, ?_, (mapM_eq_ok.1 hnumbers).imp ?_, he⟩
  · unfold numericNamed at hbase
    split at hbase
    next n hn =>
      obtain rfl := Except.ok.inj hbase
      exact hn
    next => cases hbase
  · intro entry number hnumber
    exact numbered_ok_iff.1 hnumber

/-- The symbols of a dictionary are known, each with the number of its
value; no others are. -/
theorem lookup_build (h : spec.build = .ok e) (symbol : String) :
    Option.Rel
      (fun value number => numberOf? e.base value = .ok (some number))
      (spec.values.find? symbol) (e.values.find? symbol) := by
  obtain ⟨numbers, -, hnumbers, he⟩ := build_cases h
  obtain ⟨-, -, -, hfind⟩ := Enumeration.ofValues_ok he
  rw [hfind, Dictionary.find?_eq_lookup]
  exact lookup_of_forall₂ hnumbers symbol

/-- A dictionary gives no symbol twice. -/
theorem build_ne_symbolTwice (h : spec.values.IsOrdered)
    (name symbol : String) :
    spec.build ≠
      .error (.schema (.invalidDefinition name (.symbolTwice symbol))) := by
  intro hbuild
  simp only [build, bind_eq_error, mapError_error_iff] at hbuild
  rcases hbuild with ⟨cause, hbase, hcause⟩ |
    ⟨base, -, hnumbers | ⟨numbers, hnumbers, cause, hmade, hcause⟩⟩
  · cases hcause
    exact findsNoSymbolTwice_numericNamed _ _ name symbol hbase
  · obtain ⟨entry, -, hentry⟩ := mapM_eq_error hnumbers
    exact numbered_ne_symbolTwice name symbol hentry
  · cases hcause
    have hnumbers : List.Forall₂ (fun entry number => number.1 = entry.1 ∧
        numberOf? base entry.2 = .ok (some number.2))
        spec.values numbers := by
      refine (mapM_eq_ok.1 hnumbers).imp ?_
      intro entry number hnumber
      exact numbered_ok_iff.1 hnumber
    have hdistinct : (numbers.map Prod.fst).Nodup := by
      rw [names_of_forall₂ (R := fun value n =>
        numberOf? base value = .ok (some n)) hnumbers]
      exact Dictionary.IsOrdered.nodup_names h
    exact Enumeration.findsNoSymbolTwice_ofValues hdistinct name symbol hmade

end EnumerationSpec

-- ============================================================ as written

/-- An enumeration as it is written, with the nodes of its values: each
symbol stands there as often as it is given. -/
structure WrittenEnumeration where
  name : String
  base : String
  entries : List (String × Node)

namespace WrittenEnumeration

/-- The enumeration that is written in a node. -/
def ofNode (n : Node) : Except Fault WrittenEnumeration := do
  let r ← n.record RecordKind.enumeration.keys
  return {
    name := ← r.need "name" Node.text
    base := ← r.need "type" Node.text
    entries := ← r.need "values" Node.entries }

/-- No symbol is given twice. -/
def IsDistinct (w : WrittenEnumeration) : Prop :=
  (w.entries.map Prod.fst).Nodup

instance (w : WrittenEnumeration) : Decidable w.IsDistinct :=
  inferInstanceAs (Decidable (w.entries.map Prod.fst).Nodup)

/-- An enumeration in which each symbol stands for the whole number that
is written for it last. -/
structure Means (w : WrittenEnumeration) (e : Enumeration) : Prop where
  name : e.name = w.name
  base : Numeric.ofName? w.base = some e.base
  last : ∀ symbol node, w.entries.reverse.lookup symbol = some node →
    ∃ value number, node.value = .ok value ∧
      EnumerationSpec.numberOf? e.base value = .ok (some number) ∧
        e.lookup symbol = .ok number
  unknown : ∀ symbol, w.entries.reverse.lookup symbol = none →
    e.lookup symbol = .error (.unknownSymbol symbol e.name)

/-- An enumeration in which each symbol stands for every number that is
written for it. -/
def MeansEach (w : WrittenEnumeration) (e : Enumeration) : Prop :=
  ∀ entry ∈ w.entries, ∃ value number, entry.2.value = .ok value ∧
    EnumerationSpec.numberOf? e.base value = .ok (some number) ∧
      e.lookup entry.1 = .ok number

variable {n : Node} {spec : EnumerationSpec} {e : Enumeration}
  {w : WrittenEnumeration}

/-- What is written once is written last. -/
theorem Means.each (h : w.Means e) (hdistinct : w.IsDistinct) :
    w.MeansEach e := by
  intro entry hentry
  refine h.last entry.1 entry.2 (lookup_of_mem ?_ ?_)
  · rw [List.map_reverse, List.nodup_reverse]
    exact hdistinct
  · exact List.mem_reverse.2 hentry

/-- What is read of a mapping of symbols is a dictionary of its values. -/
theorem symbolsOfNode_ok {values : Dictionary Yaml.Value}
    (h : symbolsOfNode n = .ok values) :
    ∃ entries read, n.entries = .ok entries ∧
      List.Forall₂ (fun entry value => value.1 = entry.1 ∧
        entry.2.value = .ok value.2) entries read ∧
      values = .ofList read := by
  simp only [symbolsOfNode, bind_eq_ok, pure_ok_iff, mapM_eq_ok] at h
  obtain ⟨entries, hentries, read, hread, rfl⟩ := h
  refine ⟨entries, read, hentries, hread.imp ?_, rfl⟩
  intro entry value hvalue
  obtain ⟨v, hv, rfl⟩ := hvalue
  exact ⟨rfl, hv⟩

/-- A document keeps what is written, and of its values a dictionary. -/
theorem exists_ofNode (h : EnumerationSpec.ofNode n = .ok spec) :
    ∃ w read, ofNode n = .ok w ∧ spec.name = w.name ∧ spec.base = w.base ∧
      List.Forall₂ (fun entry value => value.1 = entry.1 ∧
        entry.2.value = .ok value.2) w.entries read ∧
      spec.values = .ofList read := by
  simp only [EnumerationSpec.ofNode, bind_eq_ok, pure_ok_iff] at h
  obtain ⟨r, hr, name, hname, base, hbase, values, hvalues, rfl⟩ := h
  have hgiven : ∃ node, r.lookup "values" = some node ∧
      symbolsOfNode node = .ok values := by
    unfold Record.need at hvalues
    split at hvalues
    next node hnode => exact ⟨node, hnode, hvalues⟩
    next => cases hvalues
  obtain ⟨node, hnode, hvalues⟩ := hgiven
  obtain ⟨entries, read, hentries, hread, hdictionary⟩ :=
    symbolsOfNode_ok hvalues
  refine ⟨⟨name, base, entries⟩, read, ?_, rfl, rfl, hread, hdictionary⟩
  have hneed : r.need "values" Node.entries = .ok entries := by
    rw [Record.need, hnode]
    exact hentries
  simp only [ofNode, bind_eq_ok, pure_ok_iff]
  exact ⟨r, hr, name, hname, base, hbase, entries, hneed, rfl⟩

/-- The enumeration that is made of a node means what is written last. -/
theorem means_of_build (hspec : EnumerationSpec.ofNode n = .ok spec)
    (hbuild : spec.build = .ok e) :
    ∃ w, ofNode n = .ok w ∧ w.Means e := by
  obtain ⟨w, read, hw, hname, hbase, hread, hvalues⟩ := exists_ofNode hspec
  obtain ⟨numbers, hnumeric, -, hmade⟩ := EnumerationSpec.build_cases hbuild
  obtain ⟨hmadeName, -, -, -⟩ := Enumeration.ofValues_ok hmade
  -- entries, values and numbers of a symbol, one standing for the other
  have hnodes : ∀ symbol, Option.Rel (fun node value =>
      node.value = .ok value) (w.entries.reverse.lookup symbol)
      (spec.values.find? symbol) := by
    intro symbol
    rw [hvalues, Dictionary.find?_ofList]
    exact lookup_of_forall₂ (List.forall₂_reverse_iff.2 hread) symbol
  refine ⟨w, hw, hmadeName.trans hname, hbase ▸ hnumeric, ?_, ?_⟩
  · intro symbol node hnode
    have hvalue := hnodes symbol
    have hnumber := EnumerationSpec.lookup_build hbuild symbol
    rw [hnode] at hvalue
    generalize spec.values.find? symbol = found at hvalue hnumber
    cases hvalue with
    | @some _ value hvalue =>
        generalize hresult : e.values.find? symbol = result at hnumber
        cases hnumber with
        | @some _ number hnumber =>
            refine ⟨value, number, hvalue, hnumber, ?_⟩
            rw [Enumeration.lookup, hresult]
  · intro symbol hnone
    have hvalue := hnodes symbol
    have hnumber := EnumerationSpec.lookup_build hbuild symbol
    rw [hnone] at hvalue
    generalize spec.values.find? symbol = found at hvalue hnumber
    cases hvalue
    generalize hresult : e.values.find? symbol = result at hnumber
    cases hnumber
    rw [Enumeration.lookup, hresult]

end WrittenEnumeration

-- =========================================================== documents

/-- Every enumeration of a document is read of a node, and its symbols
ascend. -/
theorem EnumerationSpec.isOrdered_of_ofNode {n : Node}
    {spec : EnumerationSpec} (h : ofNode n = .ok spec) :
    spec.values.IsOrdered := by
  obtain ⟨w, read, -, -, -, -, hvalues⟩ :=
    WrittenEnumeration.exists_ofNode h
  rw [hvalues]
  exact Dictionary.isOrdered_ofList read

namespace SchemaDocument

variable {d : SchemaDocument} {root n : Node} {s : Schema}

/-- The symbols of each enumeration that is read are ordered, since they
were collected in a map. -/
theorem isOrdered_of_mem (h : ofNode root = .ok d) :
    ∀ spec ∈ d.enumerations, spec.values.IsOrdered := by
  simp only [ofNode, bind_eq_ok, pure_ok_iff] at h
  obtain ⟨r, -, enums, henums, bitSets, -, structs, -, blocks, -, rfl⟩ := h
  intro spec hspec
  rcases Record.of_withDefault henums with rfl | ⟨list, hlist⟩
  · exact absurd hspec List.not_mem_nil
  · obtain ⟨n, hn⟩ := Node.exists_of_mem_items hlist hspec
    exact EnumerationSpec.isOrdered_of_ofNode hn

/-- Every enumeration that is written in a document is one of it. -/
theorem exists_mem_of_parts (h : ofNode root = .ok d)
    (hn : Place.record .enumeration n ∈
      (Place.record .schema root).parts) :
    ∃ spec ∈ d.enumerations, EnumerationSpec.ofNode n = .ok spec := by
  simp only [ofNode, bind_eq_ok, pure_ok_iff] at h
  obtain ⟨r, hr, enums, henums, bitSets, -, structs, -, blocks, -, rfl⟩ := h
  rcases List.mem_append.1 hn with hn | hn
  · obtain ⟨list, hlist, hn⟩ := List.mem_flatMap.1 hn
    obtain ⟨item, hitem, hsame⟩ := List.mem_map.1 hn
    obtain ⟨hkind, rfl⟩ := Place.record.inj hsame
    have hlist : list = ("enums", .enumeration) := by
      simp only [RecordKind.lists, List.mem_cons, List.not_mem_nil,
        or_false] at hlist
      rcases hlist with rfl | rfl | rfl | rfl
      · rfl
      · cases hkind
      · cases hkind
      · cases hkind
    subst hlist
    obtain ⟨value, hvalue, hitem⟩ := List.mem_flatMap.1 hitem
    have hfield := Node.lookup_of_record hr hvalue
    exact Node.exists_mem_items
      (Record.of_withDefault_some henums hfield) hitem
  · rw [if_neg (by decide)] at hn
    exact absurd hn List.not_mem_nil

/-- Every enumeration of a document is registered under its name. -/
theorem get_of_registry {r : Registry} (h : d.registry = .ok r) :
    ∀ spec ∈ d.enumerations, ∃ e, spec.build = .ok e ∧
      r.get e.name = .ok (.enumeration e) := by
  simp only [registry, register, bind_eq_ok, mapError_ok_iff] at h
  obtain ⟨named, hnamed, packed, hpacked, hstructs⟩ := h
  have hadded := foldlM_induction_taken
    (p := fun (taken : List EnumerationSpec) r => ∀ spec ∈ taken, ∃ e,
      spec.build = .ok e ∧ r.get e.name = .ok (.enumeration e))
    hnamed (fun spec hspec => absurd hspec List.not_mem_nil) ?_
  · intro spec hspec
    obtain ⟨e, he, hget⟩ := hadded spec hspec
    -- bitsets and structures take other names
    have hpacked : packed.get e.name = .ok (.enumeration e) := by
      refine foldlM_induction
        (p := fun r : Registry => r.get e.name = .ok (.enumeration e))
        hpacked hget ?_
      intro b _ r r' hr hadd
      obtain ⟨built, -, hadd⟩ := bind_eq_ok.1 hadd
      exact Registry.get_of_add hadd hr
    refine ⟨e, he, foldlM_induction
      (p := fun r : Registry => r.get e.name = .ok (.enumeration e))
      hstructs hpacked ?_⟩
    intro b _ r r' hr hadd
    simp only [Registry.addStruct, bind_eq_ok] at hadd
    obtain ⟨fields, -, t, -, hadd⟩ := hadd
    exact Registry.get_of_add hadd hr
  · intro taken added r r' hr hadd spec hspec
    simp only [Registry.addEnumeration, bind_eq_ok, mapError_ok_iff]
      at hadd
    obtain ⟨e, he, hfree⟩ := hadd
    rcases List.mem_append.1 hspec with hspec | hspec
    · obtain ⟨old, hold, hget⟩ := hr spec hspec
      exact ⟨old, hold, Registry.get_of_add hfree hget⟩
    · obtain rfl := List.mem_singleton.1 hspec
      exact ⟨e, he, Registry.get_add hfree⟩

/-- Kinds of blocks do not change the registry. -/
theorem registry_of_build (h : d.build = .ok s) :
    d.registry = .ok s.registry := by
  simp only [build, bind_eq_ok, mapError_ok_iff] at h
  obtain ⟨r, hr, h⟩ := h
  rw [hr]
  have hsame : s.registry = r := by
    refine foldlM_induction (p := fun s : Schema => s.registry = r) h rfl ?_
    intro spec _ s s' hs hadd
    obtain ⟨b, -, hadd⟩ := bind_eq_ok.1 hadd
    obtain ⟨-, rfl⟩ := Schema.addBlock_ok_iff.1 hadd
    exact hs
  rw [hsame]

/-- Bitsets and structures are registered without looking at symbols. -/
theorem findsNoSymbolTwice_register (d : SchemaDocument) (r : Registry) :
    FindsNoSymbolTwice (d.register r) := by
  refine FindsNoSymbolTwice.bind ?_ ?_
  · apply findsNoSymbolTwice_foldlM
    intro spec _ r
    refine (findsNoSymbolTwice_buildBitSet _ _ spec.fields).bind ?_
    intro b _
    exact findsNoSymbolTwice_add b.name _
  · intro packed _
    apply findsNoSymbolTwice_foldlM
    intro spec _ r
    refine ((findsNoSymbolTwice_expressions r spec.name).2 spec.fields).bind
      ?_
    intro fields _
    refine (findsNoSymbolTwice_buildStruct spec.name fields).bind ?_
    intro t _
    exact findsNoSymbolTwice_add spec.name t

/-- Neither do kinds of blocks look at symbols. -/
theorem findsNoSymbolTwice_define (d : SchemaDocument) (r : Registry) :
    FindsNoSymbolTwice (d.define r) := by
  apply findsNoSymbolTwice_foldlM
  intro spec _ s
  refine (BlockDefSpec.findsNoSymbolTwice_build spec).bind ?_
  intro b _
  exact Schema.findsNoSymbolTwice_addBlock s b

/-- A document of ordered symbols is never refused for a symbol that
stands twice. -/
theorem build_ne_symbolTwice
    (h : ∀ spec ∈ d.enumerations, spec.values.IsOrdered)
    (name symbol : String) :
    d.build ≠
      .error (.schema (.invalidDefinition name (.symbolTwice symbol))) := by
  intro hbuild
  simp only [build, registry, bind_eq_error, mapError_error_iff] at hbuild
  rcases hbuild with (henums | ⟨named, -, cause, hregister, hcause⟩) |
    ⟨r, -, cause, hdefine, hcause⟩
  · obtain ⟨spec, hspec, r, hadd⟩ := foldlM_eq_error henums
    simp only [Registry.addEnumeration, bind_eq_error,
      mapError_error_iff] at hadd
    rcases hadd with hmade | ⟨e, -, cause, hadd, hcause⟩
    · exact EnumerationSpec.build_ne_symbolTwice (h spec hspec) name symbol
        hmade
    · cases hcause
      exact findsNoSymbolTwice_add e.name _ name symbol hadd
  · cases hcause
    exact findsNoSymbolTwice_register d named name symbol hregister
  · cases hcause
    exact findsNoSymbolTwice_define d r name symbol hdefine

end SchemaDocument

namespace Schema

/-- No text is refused because a symbol is given twice. In a schema that
is loaded from a text every symbol of every enumeration stands for the
whole number that is written for it last, whatever was written before,
and where no symbol is given twice for all that is written. -/
theorem symbols_of_parse (text : String) :
    (∀ name symbol, Schema.parse text ≠
        .error (.schema (.invalidDefinition name (.symbolTwice symbol)))) ∧
      ∀ s, Schema.parse text = .ok s →
        ∃ root, Node.parse text = .ok root ∧
          ∀ n, Place.record .enumeration n ∈
              (Place.record .schema root).parts →
            ∃ w e, WrittenEnumeration.ofNode n = .ok w ∧
              s.registry.get w.name = .ok (.enumeration e) ∧
              w.Means e ∧ (w.IsDistinct → w.MeansEach e) := by
  constructor
  · intro name symbol h
    simp only [Schema.parse, SchemaDocument.parse, bind_eq_error,
      mapError_error_iff, mapError_ok_iff, bind_eq_ok] at h
    rcases h with ⟨fault, -, h⟩ | ⟨d, ⟨root, -, hd⟩, hbuild⟩
    · cases h
    · exact SchemaDocument.build_ne_symbolTwice
        (SchemaDocument.isOrdered_of_mem hd) name symbol hbuild
  · intro s h
    simp only [Schema.parse, SchemaDocument.parse, bind_eq_ok,
      mapError_ok_iff] at h
    obtain ⟨d, ⟨root, hroot, hd⟩, hbuild⟩ := h
    have hregistry := SchemaDocument.registry_of_build hbuild
    refine ⟨root, hroot, ?_⟩
    intro n hn
    obtain ⟨spec, hspec, hread⟩ := SchemaDocument.exists_mem_of_parts hd hn
    obtain ⟨e, he, hget⟩ := SchemaDocument.get_of_registry hregistry spec hspec
    obtain ⟨w, hw, hmeans⟩ := WrittenEnumeration.means_of_build hread he
    rw [hmeans.name] at hget
    exact ⟨w, e, hw, hget, hmeans, hmeans.each⟩

/-- A schema whose only enumeration gives a symbol two numbers. -/
def compassText : String :=
  "enums: [\x7bname: dir, type: uint8, values: \x7bN: 0, N: 1\x7d\x7d]"

/-- The directions as they are kept. -/
def compass : Enumeration := ⟨"dir", .uint8, [("N", 1)]⟩

/-- The schema of the text. -/
def compassSchema : Schema where
  registry := ⟨Registry.builtin.types.insert "dir" (.enumeration compass)⟩

theorem parse_compassText : Schema.parse compassText = .ok compassSchema :=
  parse_eq_of_parts (by decide +kernel)

/-- A text with two numbers for a symbol is a schema, in which the second
counts. -/
theorem symbols_of_parse_compass :
    Schema.parse compassText = .ok compassSchema ∧
      ∃ root, Node.parse compassText = .ok root ∧
        ∀ n, Place.record .enumeration n ∈
            (Place.record .schema root).parts →
          ∃ w e, WrittenEnumeration.ofNode n = .ok w ∧
            compassSchema.registry.get w.name = .ok (.enumeration e) ∧
            w.Means e ∧ (w.IsDistinct → w.MeansEach e) :=
  ⟨parse_compassText,
    (symbols_of_parse compassText).2 compassSchema parse_compassText⟩

/-- The text is a schema although an enumeration of it gives a symbol
twice. -/
theorem parse_ok_of_repeated :
    Schema.parse compassText = .ok compassSchema ∧
      ¬ ∀ root, Node.parse compassText = .ok root →
        ∀ n, Place.record .enumeration n ∈
            (Place.record .schema root).parts →
          ∀ w, WrittenEnumeration.ofNode n = .ok w → w.IsDistinct := by
  have hrepeats : ((Node.parse compassText).toOption.any fun root =>
      ((root.under "enums").flatMap Node.rows).any fun n =>
        (WrittenEnumeration.ofNode n).toOption.any
          (!decide ·.IsDistinct)) = true := by
    decide +kernel
  refine ⟨parse_compassText, fun hdistinct => ?_⟩
  cases hroot : Node.parse compassText with
  | error fault =>
      rw [hroot] at hrepeats
      cases hrepeats
  | ok root =>
      rw [hroot] at hrepeats
      obtain ⟨n, hn, hwritten⟩ := List.any_eq_true.1 hrepeats
      have hpart : Place.record .enumeration n ∈
          (Place.record .schema root).parts :=
        List.mem_append_left _ (List.mem_flatMap.2
          ⟨("enums", .enumeration), List.mem_cons_self,
            List.mem_map_of_mem hn⟩)
      cases hw : WrittenEnumeration.ofNode n with
      | error fault =>
          rw [hw] at hwritten
          cases hwritten
      | ok w =>
          rw [hw] at hwritten
          have honce := hdistinct root hroot n hpart w hw
          simp [Except.toOption, honce] at hwritten

end Schema

end GamePack
