import GamePack.Binding
import GamePack.Proofs.Container.Soundness
import GamePack.Proofs.Conversion.Running
import GamePack.Proofs.Strings.Layout

/-!
Localized strings from a mapping of a data file to the block that holds
them. A string gets its name only with the texts of a language, so the
names that are bound are the keys that have a language below them; a key
above an empty mapping leaves no trace. What is converted has a payload,
so each bound string has the default language and stands in the block.
-/
namespace GamePack

namespace Strings

variable {s t : Strings} {name : String}

/-- The names of strings after an addition. -/
theorem mem_names_add {language : String} {forms : List String}
    (h : s.add name language forms = .ok t) (other : String) :
    other ∈ t.entries.names ↔ other = name ∨ other ∈ s.entries.names := by
  obtain ⟨-, rfl⟩ := add_ok_iff.1 h
  exact Dictionary.mem_names_insert

/-- Strings with a payload all have forms in the default language. -/
theorem exists_forms_of_check (hs : s.IsStored) (h : s.check = .ok ())
    (hname : name ∈ s.entries.names) :
    ∃ forms, s.forms? name defaultLanguage = some forms ∧
      AreForms forms := by
  obtain ⟨⟨_, languages⟩, hentry, rfl⟩ := List.mem_map.1 hname
  have hlanguages := (hs.stored _ hentry).2
  unfold check at h
  split at h
  · cases h
  · split at h
    · cases h
    next hall =>
      rw [List.find?_eq_none] at hall
      have hdefault := hall _ hentry
      simp only [Dictionary.contains, Bool.not_eq_false,
        Bool.not_eq_eq_eq_not, Bool.not_true,
        Option.isSome_iff_exists] at hdefault
      obtain ⟨forms, hforms⟩ := hdefault
      refine ⟨forms, ?_, ?_⟩
      · rw [forms?, hs.ordered.find?_of_mem hentry, Option.bind_some, hforms]
      · exact (hlanguages.stored _ (Dictionary.mem_of_find? hforms)).2

end Strings

-- ============================================================= binding

/-- Only a string is a name. -/
theorem keyName_ok_iff {key : Yaml.Value} {name : String} :
    keyName key = .ok name ↔ key = .string name := by
  cases key <;> simp [keyName]

/-- Below a key of a mapping of strings: a mapping with at least one
language. -/
def HasLanguage (v : Yaml.Value) : Prop :=
  ∃ languages, v.untagged = .mapping languages ∧ languages ≠ []

/-- Languages that are added bring the name of their string, unless there
are none. -/
theorem addLanguages_ok {name : String}
    {languages : List (Yaml.Value × Yaml.Value)} {s t : Strings}
    (hs : s.IsStored) (h : addLanguages s name languages = .ok t) :
    t.IsStored ∧ ∀ other, other ∈ t.entries.names ↔
      other ∈ s.entries.names ∨ other = name ∧ languages ≠ [] := by
  refine foldlM_induction_taken
    (p := fun taken (t : Strings) => t.IsStored ∧
      ∀ other, other ∈ t.entries.names ↔
        other ∈ s.entries.names ∨ other = name ∧ taken ≠ [])
    h ⟨hs, by simp⟩ fun taken entry u t hu hstep => ?_
  simp only [bind_eq_ok, mapError_ok_iff] at hstep
  obtain ⟨forms, -, language, -, hadd⟩ := hstep
  refine ⟨hu.1.add hadd, fun other => ?_⟩
  rw [Strings.mem_names_add hadd, hu.2]
  have hmore : taken ++ [entry] ≠ [] := by simp
  constructor
  · rintro (hsame | hold | ⟨hsame, -⟩)
    · exact .inr ⟨hsame, hmore⟩
    · exact .inl hold
    · exact .inr ⟨hsame, hmore⟩
  · rintro (hold | ⟨hsame, -⟩)
    · exact .inr (.inl hold)
    · exact .inl hsame

/-- Bound strings come from names above mappings. Their own names are the
keys above some language. -/
theorem bindStrings_ok {entries : List (Yaml.Value × Yaml.Value)}
    {bound : FieldValue} (h : bindStrings entries = .ok bound) :
    (∀ entry ∈ entries, ∃ name languages,
      entry.1 = .string name ∧ entry.2.untagged = .mapping languages) ∧
    ∃ strings : Strings, bound = .text strings ∧ strings.IsStored ∧
      ∀ name, name ∈ strings.entries.names ↔
        ∃ value, (.string name, value) ∈ entries ∧ HasLanguage value := by
  simp only [bindStrings, bind_eq_ok, pure_ok_iff] at h
  obtain ⟨strings, hstrings, rfl⟩ := h
  have hboth := foldlM_induction_taken
    (p := fun taken (t : Strings) =>
      (∀ entry ∈ taken, ∃ name languages,
        entry.1 = .string name ∧ entry.2.untagged = .mapping languages) ∧
      t.IsStored ∧ ∀ name, name ∈ t.entries.names ↔
        ∃ value, (.string name, value) ∈ taken ∧ HasLanguage value)
    hstrings ⟨by simp, Strings.isStored_empty, by simp [Dictionary.names]⟩
    fun taken entry s t hs hstep => ?_
  · exact ⟨hboth.1, strings, rfl, hboth.2⟩
  obtain ⟨key, value⟩ := entry
  simp only [bind_eq_ok, keyName_ok_iff] at hstep
  obtain ⟨name, rfl, hstep⟩ := hstep
  split at hstep
  next languages hlanguages =>
    obtain ⟨hstored, hnames⟩ := addLanguages_ok hs.2.1 hstep
    refine ⟨fun entry hentry => ?_, hstored, fun other => ?_⟩
    · rcases List.mem_append.1 hentry with hold | hnew
      · exact hs.1 entry hold
      · obtain rfl := List.mem_singleton.1 hnew
        exact ⟨name, languages, rfl, hlanguages⟩
    rw [hnames, hs.2.2]
    constructor
    · rintro (⟨old, hmem, hold⟩ | ⟨rfl, hsome⟩)
      · exact ⟨old, List.mem_append_left _ hmem, hold⟩
      · exact ⟨value, List.mem_append_right _ (List.mem_singleton.2 rfl),
          languages, hlanguages, hsome⟩
    · rintro ⟨found, hmem, hfound⟩
      rcases List.mem_append.1 hmem with hmem | hmem
      · exact .inl ⟨found, hmem, hfound⟩
      · obtain ⟨hkey, rfl⟩ := Prod.mk.inj (List.mem_singleton.1 hmem)
        obtain rfl := Yaml.Value.string.inj hkey
        obtain ⟨given, hgiven, hsome⟩ := hfound
        rw [hlanguages] at hgiven
        obtain rfl := Yaml.Value.mapping.inj hgiven
        exact .inr ⟨rfl, hsome⟩
  next => cases hstep

/-- Tags make no difference to what is bound. -/
theorem bind_untagged (baseDir : Path) (value : Yaml.Value)
    (t : DataType) : bind baseDir value.untagged t = bind baseDir value t := by
  fun_induction Yaml.Value.untagged value with
  | case1 tag value ih => rw [ih, bind]
  | case2 => rfl

-- ========================================================== conversion

/-- The block of localized strings has their payload. -/
theorem Strings.payload_of_toBlock {strings : Strings} {block : Block}
    (h : strings.toBlock = .ok block) :
    block.magic = .strings ∧ ∃ p, strings.payload = .ok p ∧
      block.payload = .ok p := by
  obtain ⟨p, hp, rfl⟩ := toBlock_ok_iff.1 h
  refine ⟨rfl, p, hp, Block.payload_ok_iff.2 ⟨?_, ?_⟩⟩
  · simp [Block.payloadSize, Block.value, Block.get?, Dictionary.find?,
      bind_eq_ok, DataType.size, total]
  · simp [Block.encodeFields, Block.value, Block.get?, Dictionary.find?,
      bind_eq_ok, DataType.encode]

namespace Conversion

open Strings

/-- Localized strings that are converted leave their block, and a
reference to it. -/
theorem runs_convert_text {settings : ConversionSettings}
    {strings : Strings} {s s' : ConversionState} {v : Value} :
    (convert settings .text (.text strings)).Runs s v s' ↔
      ∃ block, strings.toBlock = .ok block ∧
        v = .ref (s.container.addBlock (some block)).1 ∧
        s' = { s with
          container := (s.container.addBlock (some block)).2 } := by
  simp only [convert, runs_bind, runs_ofValue, runs_addBlock, runs_pure]
  constructor
  · rintro ⟨block, _, ⟨hblock, rfl⟩, _, _, ⟨rfl, rfl⟩, rfl, rfl⟩
    exact ⟨block, hblock, rfl, rfl⟩
  · rintro ⟨block, hblock, rfl, rfl⟩
    exact ⟨block, s, ⟨hblock, rfl⟩, _, _, ⟨rfl, rfl⟩, rfl, rfl⟩

/-- A mapping for a field of texts that is bound and converted stands in
a block of strings: its payload is a row of nodes, one for each name that
is a key above some language, and each of these has the default language.
Other keys are names too, above a mapping without languages, and leave no
trace. -/
theorem strings_of_convert (settings : ConversionSettings)
    (baseDir : Path) {value : Yaml.Value}
    {entries : List (Yaml.Value × Yaml.Value)} {bound : FieldValue}
    {s s' : ConversionState} {v : Value}
    (hvalue : value.untagged = .mapping entries)
    (hbind : bind baseDir value .text = .ok bound)
    (hrun : (convert settings .text bound).Runs s v s') :
    (∀ entry ∈ entries, ∃ name languages,
      entry.1 = .string name ∧ entry.2.untagged = .mapping languages) ∧
    ∃ (strings : Strings) (block : Block) (p : Bytes) (i : Nat),
      bound = .text strings ∧
      (∀ name, name ∈ strings.entries.names ↔
        ∃ value, (.string name, value) ∈ entries ∧ HasLanguage value) ∧
      (∀ name ∈ strings.entries.names, ∃ forms,
        strings.forms? name defaultLanguage = some forms ∧
          AreForms forms) ∧
      v = .ref (BlockRef.ofNumber? (i + 1)) ∧
      s'.container.blocks[i]? = some block ∧
      block.magic = .strings ∧ block.payload = .ok p ∧
      Row (NodeAt p) strings.entries 0 p.length := by
  rw [← bind_untagged, hvalue, bind] at hbind
  obtain ⟨hkeys, strings, rfl, hstored, hnames⟩ := bindStrings_ok hbind
  obtain ⟨block, hblock, rfl, rfl⟩ := runs_convert_text.1 hrun
  obtain ⟨hmagic, p, hp, hpayload⟩ := Strings.payload_of_toBlock hblock
  obtain ⟨i, hi, hnumber, -⟩ :=
    Container.exists_addBlock s.container block
  exact ⟨hkeys, strings, block, p, i, rfl, hnames,
    fun _ hname => exists_forms_of_check hstored
      (payload_ok_iff.1 hp).1 hname,
    by rw [hnumber], hi, hmagic, hpayload, hstored.row_of_payload hp⟩

/-- A string with a text, and a string without any language. -/
def oneText : List (Yaml.Value × Yaml.Value) :=
  [(.string "a", .mapping [(.string "en_GB", .string "A")]),
    (.string "b", .mapping [])]

/-- What becomes of the two strings. -/
def oneTextBound : Strings := ⟨[("a", [("en_GB", ["A"])])]⟩

/-- The bytes of the one string that is left. -/
def oneTextBytes : Bytes :=
  [17, 0, 2, 97, 0, 12, 0, 6, 101, 110, 95, 71, 66, 0, 1, 65, 0]

/-- The block of the one string that is left. -/
def oneTextBlock : Block where
  magic := .strings
  version := blockVersion
  fields := [("strings", .raw)]
  values := [("strings", .raw oneTextBytes)]

/-- Conversions without sheets. -/
def noSheets : ConversionSettings where
  load path := .error (.file path (.system .openBitmap .notFound))
  emptySprites := .blank
  transparent := 0

/-- The two strings are bound and converted, and the bytes of their block
are a row of one node, of the string that has a text. -/
theorem strings_of_convert_oneText :
    bind ⟨""⟩ (.mapping oneText) .text = .ok (.text oneTextBound) ∧
      (convert noSheets .text (.text oneTextBound)).Runs {}
        (.ref (BlockRef.ofNumber? 1)) { container := ⟨[oneTextBlock]⟩ } ∧
      oneTextBlock.payload = .ok oneTextBytes ∧
      Row (NodeAt oneTextBytes) [("a", [("en_GB", ["A"])])] 0 17 ∧
      ∃ forms, oneTextBound.forms? "a" defaultLanguage = some forms ∧
        AreForms forms := by
  have hbind : bind ⟨""⟩ (.mapping oneText) .text =
      .ok (.text oneTextBound) := rfl
  have hblock : oneTextBound.toBlock = .ok oneTextBlock := by
    decide +kernel
  have hrun : (convert noSheets .text (.text oneTextBound)).Runs {}
      (.ref (BlockRef.ofNumber? 1)) { container := ⟨[oneTextBlock]⟩ } :=
    runs_convert_text.2 ⟨oneTextBlock, hblock, rfl, rfl⟩
  have hbytes : oneTextBlock.payload = .ok oneTextBytes := by
    decide +kernel
  obtain ⟨-, strings, block, p, i, hstrings, -, hdefault, -, hat, -,
    hpayload, hrow⟩ := strings_of_convert noSheets ⟨""⟩ rfl hbind hrun
  obtain rfl := FieldValue.text.inj hstrings
  obtain rfl := List.mem_singleton.1 (List.mem_of_getElem? hat)
  obtain rfl := Except.ok.inj (hbytes.symm.trans hpayload)
  exact ⟨hbind, hrun, hbytes, hrow,
    hdefault "a" (List.mem_singleton.2 rfl)⟩

/-- A string that is a key of the mapping is not bound, and its name is
not in the bytes of the block, although nothing fails. -/
theorem convert_drops_string :
    (.string "b", .mapping []) ∈ oneText ∧
      bind ⟨""⟩ (.mapping oneText) .text = .ok (.text oneTextBound) ∧
      (convert noSheets .text (.text oneTextBound)).Runs {}
        (.ref (BlockRef.ofNumber? 1)) { container := ⟨[oneTextBlock]⟩ } ∧
      "b" ∉ oneTextBound.entries.names ∧
      oneTextBlock.payload = .ok oneTextBytes ∧
      ¬ bytesOf "b" ⊆ oneTextBytes := by
  have hblock : oneTextBound.toBlock = .ok oneTextBlock := by
    decide +kernel
  refine ⟨.tail _ (.head _), rfl,
    runs_convert_text.2 ⟨oneTextBlock, hblock, rfl, rfl⟩, ?_, ?_, ?_⟩
  all_goals decide +kernel

end Conversion

end GamePack
