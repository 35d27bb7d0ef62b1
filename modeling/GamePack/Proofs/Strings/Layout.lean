import GamePack.Proofs.Encoding
import GamePack.Proofs.Strings.Adding

/-!
The payload of localized strings, found again in its bytes. A predicate
such as `NodeAt p node i j` says that a thing stands in the bytes `p` from
the place `i` to the place `j`, read from the bytes alone: a length says
where the next thing begins, a count how many things follow, and the
first NUL where a text ends. `Row` puts things one behind the other, so a
row of nodes from the first place to the last says that stepping by the
lengths ends where the payload does.

Two facts carry the file. What is written stands wherever it is put
(`Stands`), so the payload of stored strings is a row of their nodes. And
what stands at a place is determined by the bytes, so a payload has one
row of nodes: it tells which strings it holds.
-/
namespace GamePack

-- =============================================================== texts

/-- The loop that lists the bytes of an array puts those from a place on
behind those that it has. -/
theorem toList_loop (b : ByteArray) (i : Nat) (seen : List UInt8) :
    ByteArray.toList.loop b i seen =
      seen.reverse ++ b.data.toList.drop i := by
  fun_induction ByteArray.toList.loop b i seen with
  | case1 i seen hin ih =>
      have hlt : i < b.data.toList.length := hin
      have hdrop : b.data.toList.drop i =
          b.get! i :: b.data.toList.drop (i + 1) := by
        rw [List.drop_eq_getElem_cons hlt]
        simp [ByteArray.get!, hin]
      rw [ih, hdrop, List.reverse_cons, List.append_assoc,
        List.singleton_append]
  | case2 i seen hout =>
      have hend : b.data.toList.length ≤ i := Nat.not_lt.1 hout
      rw [List.drop_eq_nil_of_le hend, List.append_nil]

namespace Strings

/-- The bytes of a text, without the loop that lists them. -/
theorem bytesOf_eq (s : String) : bytesOf s = s.toByteArray.data.toList := by
  show s.toByteArray.toList = _
  rw [ByteArray.toList, toList_loop]
  rfl

/-- Texts with the same bytes are the same. -/
theorem bytesOf_inj {s t : String} (h : bytesOf s = bytesOf t) : s = t := by
  rw [bytesOf_eq, bytesOf_eq, Array.toList_inj] at h
  exact String.toByteArray_inj.1 (ByteArray.ext h)

/-- Only the character that ends texts has the byte that does. -/
theorem eq_nul_of_mem_utf8EncodeChar {c : Char}
    (h : 0 ∈ String.utf8EncodeChar c) : c = '\x00' := by
  -- the bytes of a longer code all have their highest bit set
  have hmarked : ∀ a b : UInt8, b ≠ 0 → 0 ≠ a ||| b := by
    intro a b hb hzero
    simp [hb, eq_comm] at hzero
  rcases Char.utf8Size_eq c with hsize | hsize | hsize | hsize
  · rw [String.utf8EncodeChar_eq_singleton hsize, List.mem_singleton] at h
    have hle := UInt32.le_iff_toNat_le.1 (Char.utf8Size_eq_one_iff.1 hsize)
    have hzero := congrArg UInt8.toNat h
    rw [UInt32.toNat_toUInt8] at hzero
    apply Char.ext
    apply UInt32.toNat_inj.1
    show c.val.toNat = 0
    have hlimit : (127 : UInt32).toNat = 127 := rfl
    have hnone : (0 : UInt8).toNat = 0 := rfl
    omega
  · rw [String.utf8EncodeChar_eq_cons_cons hsize] at h
    simp [hmarked] at h
  · rw [String.utf8EncodeChar_eq_cons_cons_cons hsize] at h
    simp [hmarked] at h
  · rw [String.utf8EncodeChar_eq_cons_cons_cons_cons hsize] at h
    simp [hmarked] at h

/-- A text without the character that ends texts has no byte that
does. -/
theorem zero_not_mem_bytesOf {s : String} (h : hasNul s = false) :
    0 ∉ bytesOf s := by
  intro hzero
  have hchars : s.toByteArray = s.toList.utf8Encode := by
    rw [← String.toByteArray_ofList, String.ofList_toList]
  rw [bytesOf_eq, hchars, List.utf8Encode,
    List.toList_data_toByteArray] at hzero
  obtain ⟨c, hc, hzero⟩ := List.mem_flatMap.1 hzero
  rw [eq_nul_of_mem_utf8EncodeChar hzero] at hc
  rw [hasNul, List.contains_iff_mem.2 hc] at h
  cases h

end Strings

-- ============================================================== places

/-- A byte that stands for a number, with nothing cut off. -/
def ByteAt (p : Bytes) (n i j : Nat) : Prop :=
  (∃ b, p[i]? = some b ∧ b.toNat = n) ∧ j = i + 1

/-- Things that stand one behind the other, from a place to another. -/
inductive Row {α : Type} (At : α → Nat → Nat → Prop) :
    List α → Nat → Nat → Prop where
  | nil (i : Nat) : Row At [] i i
  | cons {a : α} {l : List α} {i j k : Nat} (h : At a i j)
      (hrest : Row At l j k) : Row At (a :: l) i k

/-- Something behind the word of two bytes that says how far it is to the
end of both. -/
def SizedAt (p : Bytes) (At : Nat → Nat → Prop) (i j : Nat) : Prop :=
  ∃ n rest, readLE 2 (p.drop i) = some (n, rest) ∧ j = i + n ∧
    At (i + 2) j

section Rows

variable {α : Type} {At : α → Nat → Nat → Prop} {l l' : List α}
  {i k : Nat}

/-- A row does not step back when none of its members does. -/
theorem Row.le (h : Row At l i k) (hforward : ∀ a i j, At a i j → i < j) :
    i ≤ k := by
  induction h with
  | nil => exact Nat.le_refl _
  | cons h _ ih => exact (Nat.le_of_lt (hforward _ _ _ h)).trans ih

/-- Two rows between the same places are the same when every place
determines what stands there. -/
theorem Row.unique (hforward : ∀ a i j, At a i j → i < j)
    (hunique : ∀ a b i j j', At a i j → At b i j' → a = b ∧ j = j')
    (h : Row At l i k) (h' : Row At l' i k) : l = l' := by
  induction h generalizing l' with
  | nil =>
      cases h' with
      | nil => rfl
      | cons hfirst hrest =>
          have hlt := hforward _ _ _ hfirst
          have hle := hrest.le hforward
          omega
  | cons hfirst hrest ih =>
      cases h' with
      | nil =>
          have hlt := hforward _ _ _ hfirst
          have hle := hrest.le hforward
          omega
      | cons hfirst' hrest' =>
          obtain ⟨rfl, rfl⟩ := hunique _ _ _ _ _ hfirst hfirst'
          rw [ih hrest']

end Rows

/-- A byte stands for one number. -/
theorem ByteAt.unique {p : Bytes} {m n i j j' : Nat} (h : ByteAt p m i j)
    (h' : ByteAt p n i j') : m = n ∧ j = j' := by
  obtain ⟨⟨b, hb, rfl⟩, rfl⟩ := h
  obtain ⟨⟨b', hb', rfl⟩, rfl⟩ := h'
  rw [hb] at hb'
  obtain rfl := Option.some.inj hb'
  exact ⟨rfl, rfl⟩

/-- The word in front says where a thing ends, whatever stands behind it.
-/
theorem SizedAt.unique {p : Bytes} {At At' : Nat → Nat → Prop}
    {i j j' : Nat} (h : SizedAt p At i j) (h' : SizedAt p At' i j') :
    j = j' := by
  obtain ⟨n, rest, hread, rfl, -⟩ := h
  obtain ⟨n', rest', hread', rfl, -⟩ := h'
  rw [hread, Option.some.injEq, Prod.mk.injEq] at hread'
  rw [hread'.1]

-- =========================================================== a payload

namespace Strings

/-- A text up to the first NUL behind it, which ends it. -/
def TextAt (p : Bytes) (text : String) (i j : Nat) : Prop :=
  ∃ rest, p.drop i = bytesOf text ++ 0 :: rest ∧ 0 ∉ bytesOf text ∧
    j = i + (bytesOf text).length + 1

/-- A name behind the length of what follows, NUL included. -/
def NameAt (p : Bytes) (name : String) (i j : Nat) : Prop :=
  ∃ k, ByteAt p (name.utf8ByteSize + 1) i k ∧ TextAt p name k j

/-- Plural forms behind their count. -/
def FormsAt (p : Bytes) (forms : List String) (i j : Nat) : Prop :=
  ∃ k, ByteAt p forms.length i k ∧ Row (TextAt p) forms k j

/-- A language and its plural forms behind their length. -/
def EntryAt (p : Bytes) (entry : String × List String) : Nat → Nat → Prop :=
  SizedAt p fun i j => ∃ k, NameAt p entry.1 i k ∧ FormsAt p entry.2 k j

/-- A name and all its languages behind their length. -/
def NodeAt (p : Bytes) (node : String × Localizations) : Nat → Nat → Prop :=
  SizedAt p fun i j =>
    ∃ k, NameAt p node.1 i k ∧ Row (EntryAt p) node.2 k j

section Reading

variable {p : Bytes} {i j j' : Nat}

/-- A text takes at least the byte that ends it. -/
theorem TextAt.forward {text : String} (h : TextAt p text i j) : i < j := by
  obtain ⟨rest, -, -, rfl⟩ := h
  omega

theorem NameAt.forward {name : String} (h : NameAt p name i j) : i < j := by
  obtain ⟨k, ⟨-, rfl⟩, htext⟩ := h
  exact Nat.lt_of_succ_lt htext.forward

theorem EntryAt.forward {entry : String × List String}
    (h : EntryAt p entry i j) : i < j := by
  obtain ⟨n, rest, -, -, k, hname, m, ⟨-, rfl⟩, hforms⟩ := h
  have hlt := hname.forward
  have hle := hforms.le fun _ _ _ h => TextAt.forward h
  omega

theorem NodeAt.forward {node : String × Localizations}
    (h : NodeAt p node i j) : i < j := by
  obtain ⟨n, rest, -, -, k, hname, hentries⟩ := h
  have hlt := hname.forward
  have hle := hentries.le fun _ _ _ h => EntryAt.forward h
  omega

/-- The text at a place is what stands before the first NUL. -/
theorem TextAt.unique {text text' : String} (h : TextAt p text i j)
    (h' : TextAt p text' i j') : text = text' ∧ j = j' := by
  have hfirst : ∀ {text : String} {j : Nat}, TextAt p text i j →
      bytesOf text = (p.drop i).takeWhile fun b => b != 0 := by
    rintro text j ⟨rest, hdrop, hnul, -⟩
    have hall : ∀ b ∈ bytesOf text, (b != 0) = true := by
      intro b hb
      rw [bne_iff_ne]
      rintro rfl
      exact hnul hb
    rw [hdrop, List.takeWhile_append_of_pos hall,
      List.takeWhile_cons_of_neg (by decide), List.append_nil]
  obtain rfl := bytesOf_inj ((hfirst h).trans (hfirst h').symm)
  obtain ⟨rest, -, -, rfl⟩ := h
  obtain ⟨rest', -, -, rfl⟩ := h'
  exact ⟨rfl, rfl⟩

/-- The bytes at a place tell the name and where it ends. -/
theorem NameAt.unique {name name' : String} (h : NameAt p name i j)
    (h' : NameAt p name' i j') : name = name' ∧ j = j' := by
  obtain ⟨k, hlength, htext⟩ := h
  obtain ⟨k', hlength', htext'⟩ := h'
  obtain ⟨-, rfl⟩ := hlength.unique hlength'
  exact htext.unique htext'

/-- The bytes between two places tell the forms. -/
theorem FormsAt.unique {forms forms' : List String}
    (h : FormsAt p forms i j) (h' : FormsAt p forms' i j) :
    forms = forms' := by
  obtain ⟨k, hcount, htexts⟩ := h
  obtain ⟨k', hcount', htexts'⟩ := h'
  obtain ⟨-, rfl⟩ := hcount.unique hcount'
  exact htexts.unique (fun _ _ _ h => TextAt.forward h)
    (fun _ _ _ _ _ h h' => TextAt.unique h h') htexts'

/-- The bytes at a place tell the language, its forms and where the entry
ends. -/
theorem EntryAt.unique {entry entry' : String × List String}
    (h : EntryAt p entry i j) (h' : EntryAt p entry' i j') :
    entry = entry' ∧ j = j' := by
  obtain rfl := SizedAt.unique h h'
  obtain ⟨n, rest, -, -, k, hname, hforms⟩ := h
  obtain ⟨n', rest', -, -, k', hname', hforms'⟩ := h'
  obtain ⟨hlanguage, rfl⟩ := hname.unique hname'
  exact ⟨Prod.ext hlanguage (hforms.unique hforms'), rfl⟩

/-- The bytes at a place tell the name, all its languages and where the
node ends. -/
theorem NodeAt.unique {node node' : String × Localizations}
    (h : NodeAt p node i j) (h' : NodeAt p node' i j') :
    node = node' ∧ j = j' := by
  obtain rfl := SizedAt.unique h h'
  obtain ⟨n, rest, -, -, k, hname, hentries⟩ := h
  obtain ⟨n', rest', -, -, k', hname', hentries'⟩ := h'
  obtain ⟨hsame, rfl⟩ := hname.unique hname'
  have hlanguages : node.2 = node'.2 :=
    hentries.unique (fun _ _ _ h => EntryAt.forward h)
      (fun _ _ _ _ _ h h' => EntryAt.unique h h') hentries'
  exact ⟨Prod.ext hsame hlanguages, rfl⟩

end Reading

end Strings

-- ============================================================= writing

/-- Bytes in which something stands from their beginning to their end,
whatever is before them and behind them. -/
def Stands (At : Bytes → Nat → Nat → Prop) (piece : Bytes) : Prop :=
  ∀ before after, At (before ++ piece ++ after) before.length
    (before.length + piece.length)

namespace Stands

variable {At At' : Bytes → Nat → Nat → Prop} {piece piece' : Bytes}

/-- Pieces that stand wherever they are put still do so one behind the
other. -/
theorem append (h : Stands At piece) (h' : Stands At' piece') :
    Stands (fun p i j => ∃ k, At p i k ∧ At' p k j) (piece ++ piece') := by
  intro before after
  refine ⟨before.length + piece.length, ?_, ?_⟩
  · have hfirst := h before (piece' ++ after)
    simpa only [List.append_assoc] using hfirst
  · have hsecond := h' (before ++ piece) after
    simpa only [List.append_assoc, List.length_append,
      Nat.add_assoc] using hsecond

/-- Pieces that stand wherever they are put make up a row when they are
joined. -/
theorem row {α : Type} {At : Bytes → α → Nat → Nat → Prop} {l : List α}
    {parts : List Bytes}
    (h : List.Forall₂ (fun a part => Stands (fun p => At p a) part)
      l parts) :
    Stands (fun p => Row (At p) l) parts.flatten := by
  induction h with
  | nil => exact fun before after => .nil _
  | cons hfirst _ ih =>
      intro before after
      obtain ⟨k, hk, hrest⟩ := hfirst.append ih before after
      exact .cons hk hrest

theorem byte {n : Nat} (h : n < 256) :
    Stands (fun p => ByteAt p n) [UInt8.ofNat n] := by
  intro before after
  refine ⟨⟨UInt8.ofNat n, by simp, ?_⟩, rfl⟩
  rw [UInt8.toNat_ofNat', Nat.mod_eq_of_lt h]

/-- Something behind the word of the length of both. -/
theorem sized (h : Stands At piece) (hlt : 2 + piece.length < 0x10000) :
    Stands (fun p => SizedAt p (At p))
      (leBytes 2 (2 + piece.length) ++ piece) := by
  intro before after
  have hinside := h (before ++ leBytes 2 (2 + piece.length)) after
  rw [List.length_append, length_leBytes] at hinside
  refine ⟨2 + piece.length, piece ++ after, ?_, ?_, ?_⟩
  · rw [List.append_assoc, List.drop_left, List.append_assoc]
    exact readLE_leBytes_append hlt _
  · rw [List.length_append, length_leBytes]
  · simpa only [List.append_assoc, List.length_append, length_leBytes,
      Nat.add_assoc] using hinside

end Stands

namespace Strings

/-- A text without NUL stands in its bytes and the NUL behind them. -/
theorem stands_text {text : String} (h : hasNul text = false) :
    Stands (fun p => TextAt p text) (bytesOf text ++ [0]) := by
  intro before after
  refine ⟨after, ?_, zero_not_mem_bytesOf h, ?_⟩
  · rw [List.append_assoc, List.drop_left, List.append_assoc,
      List.singleton_append]
  · rw [List.length_append, List.length_singleton, Nat.add_assoc]

/-- What is written for a name is the name. -/
theorem stands_encodeName {name : String} (h : IsName name) :
    Stands (fun p => NameAt p name) (encodeName name) := by
  obtain ⟨-, hshort, hnul⟩ := h
  exact (Stands.byte (Nat.succ_lt_succ hshort)).append (stands_text hnul)

/-- What is written for plural forms is their count and the forms. -/
theorem stands_encodeForms {forms : List String} (h : AreForms forms) :
    Stands (fun p => FormsAt p forms) (encodeForms forms) := by
  obtain ⟨-, hfew, hnul⟩ := h
  refine (Stands.byte (Nat.lt_succ_of_le hfew)).append ?_
  refine Stands.row ?_
  rw [List.forall₂_map_right_iff, List.forall₂_same]
  exact fun form hform => stands_text (hnul form hform)

/-- A node is written when its length fits the word in front of it. -/
theorem encodeNode_ok_iff {name : String} {body bytes : Bytes} :
    encodeNode name body = .ok bytes ↔ 2 + body.length < 0x10000 ∧
      bytes = leBytes 2 (2 + body.length) ++ body := by
  unfold encodeNode
  by_cases h : 0x10000 ≤ 2 + body.length
  · simp [h, Nat.not_lt.2 h]
  · simp [h, Nat.not_le.1 h, eq_comm]

/-- What is written for a language and its forms is their entry. -/
theorem stands_encodeEntry {name : String} {entry : String × List String}
    {bytes : Bytes} (hlanguage : IsName entry.1) (hforms : AreForms entry.2)
    (h : encodeNode name (encodeName entry.1 ++ encodeForms entry.2) =
      .ok bytes) : Stands (fun p => EntryAt p entry) bytes := by
  obtain ⟨hlt, rfl⟩ := encodeNode_ok_iff.1 h
  exact ((stands_encodeName hlanguage).append
    (stands_encodeForms hforms)).sized hlt

/-- The size that is announced for a string is that of what is written
for it. -/
theorem nodeSize_eq {name : String} {languages : Localizations}
    {parts : List Bytes}
    (h : List.Forall₂ (fun (entry : String × List String) part =>
      encodeNode name (encodeName entry.1 ++ encodeForms entry.2) =
        .ok part) languages parts) :
    nodeSize name languages =
      2 + (encodeName name ++ parts.flatten).length := by
  have hentries : total (languages.map fun entry =>
      entrySize entry.1 entry.2) = parts.flatten.length := by
    induction h with
    | nil => rfl
    | cons hfirst _ ih =>
        obtain ⟨-, rfl⟩ := encodeNode_ok_iff.1 hfirst
        rw [List.flatten_cons, List.length_append, ← ih]
        simp only [List.map_cons, total, List.foldr_cons, entrySize,
          List.length_append, length_leBytes]
        omega
  rw [nodeSize, hentries, List.length_append]
  omega

/-- What is written for a string of stored languages is its node. -/
theorem stands_encodeString {name : String} {languages : Localizations}
    {bytes : Bytes} (hname : IsName name) (hlanguages : languages.IsStored)
    (h : encodeString name languages = .ok bytes) :
    Stands (fun p => NodeAt p (name, languages)) bytes := by
  simp only [encodeString, guard_eq_ok, bind_eq_ok, mapM_eq_ok,
    pure_ok_iff] at h
  obtain ⟨hfits, parts, hparts, rfl⟩ := h
  have hentries : List.Forall₂
      (fun entry part => Stands (fun p => EntryAt p entry) part)
      languages parts := by
    have hboth := (List.forall₂_and_left _ _).2 ⟨hlanguages.stored, hparts⟩
    exact hboth.imp fun entry part h =>
      stands_encodeEntry h.1.1 h.1.2 h.2
  have hsize := nodeSize_eq hparts
  rw [hsize] at hfits ⊢
  rw [List.append_assoc]
  exact ((stands_encodeName hname).append (Stands.row hentries)).sized
    (Nat.not_le.1 hfits)

/-- There is a payload when the check passes and every string can be
written, and then it is what was written for the strings, joined. -/
theorem payload_ok_iff {s : Strings} {p : Bytes} :
    s.payload = .ok p ↔ s.check = .ok () ∧ ∃ parts,
      List.Forall₂ (fun (entry : String × Localizations) part =>
        encodeString entry.1 entry.2 = .ok part) s.entries parts ∧
        p = parts.flatten := by
  simp only [payload, bind_eq_ok, mapM_eq_ok, pure_ok_iff]
  constructor
  · rintro ⟨_, hcheck, hparts⟩
    exact ⟨hcheck, hparts⟩
  · rintro ⟨hcheck, hparts⟩
    exact ⟨⟨⟩, hcheck, hparts⟩

/-- The payload of stored strings is a row of their nodes, from its
beginning to its end. -/
theorem IsStored.row_of_payload {s : Strings} {p : Bytes} (h : s.IsStored)
    (hp : s.payload = .ok p) : Row (NodeAt p) s.entries 0 p.length := by
  obtain ⟨-, parts, hparts, rfl⟩ := payload_ok_iff.1 hp
  have hboth := (List.forall₂_and_left _ _).2 ⟨h.stored, hparts⟩
  have hnodes : List.Forall₂
      (fun node part => Stands (fun p => NodeAt p node) part)
      s.entries parts :=
    hboth.imp fun node part h => stands_encodeString h.1.1 h.1.2 h.2
  have hrow := Stands.row hnodes [] []
  simpa using hrow

/-- A payload tells which strings it holds. -/
theorem IsStored.payload_inj {s t : Strings} {p : Bytes} (h : s.IsStored)
    (h' : t.IsStored) (hs : s.payload = .ok p) (ht : t.payload = .ok p) :
    s = t := by
  have hentries : s.entries = t.entries :=
    (h.row_of_payload hs).unique (fun _ _ _ h => NodeAt.forward h)
      (fun _ _ _ _ _ h h' => NodeAt.unique h h') (h'.row_of_payload ht)
  obtain ⟨entries⟩ := s
  obtain ⟨entries'⟩ := t
  exact congrArg Strings.mk hentries

/-- In the payload of strings that were added, the lengths lead from node
to node up to the end, one for each name in ascending order, and in each
node from entry to entry up to its end, one for each language in
ascending order; the bytes at each place are the name, the language, the
count and the forms, with every length and count as it is. The payload is
the same exactly for additions that leave the same forms for every name
and language. -/
theorem payload_of_additions (l : List Addition) :
    (∀ p, (ofAdditions l).payload = .ok p →
        (ofAdditions l).entries.IsOrdered ∧
        (∀ node ∈ (ofAdditions l).entries, node.2.IsOrdered) ∧
        Row (NodeAt p) (ofAdditions l).entries 0 p.length) ∧
      (∀ name language,
        (ofAdditions l).forms? name language =
          finalForms l name language) ∧
      ∀ l', (∀ p, (ofAdditions l).payload = .ok p →
          (ofAdditions l').payload = .ok p → ∀ name language,
            finalForms l name language = finalForms l' name language) ∧
        ((∀ name language, finalForms l name language =
            finalForms l' name language) →
          (ofAdditions l).payload = (ofAdditions l').payload) := by
  have hstored := isStored_ofAdditions l
  refine ⟨fun p hp => ⟨hstored.ordered, ?_, hstored.row_of_payload hp⟩,
    forms?_ofAdditions l, fun l' => ⟨?_, ?_⟩⟩
  · exact fun node hnode => (hstored.stored node hnode).2.ordered
  · intro p hp hp' name language
    rw [← forms?_ofAdditions, ← forms?_ofAdditions,
      hstored.payload_inj (isStored_ofAdditions l') hp hp']
  · intro hforms
    have hsame : ofAdditions l = ofAdditions l' := by
      refine hstored.ext (isStored_ofAdditions l') fun name language => ?_
      rw [forms?_ofAdditions, forms?_ofAdditions, hforms]
    rw [hsame]

/-- Two strings, one of them with two forms. -/
def twoStrings : List Addition :=
  [⟨"b", "en_GB", ["B"]⟩, ⟨"a", "en_GB", ["A", "As"]⟩]

/-- The same strings in another order, behind forms that are replaced and
some that are refused. -/
def twoStringsAgain : List Addition :=
  [⟨"a", "en_GB", ["?"]⟩, ⟨"a", "en_GB", []⟩, ⟨"a", "en_GB", ["A", "As"]⟩,
    ⟨"", "en_GB", ["?"]⟩, ⟨"b", "en_GB", ["B"]⟩]

/-- The bytes of the two strings. -/
def twoStringsBytes : Bytes :=
  [20, 0, 2, 97, 0, 15, 0, 6, 101, 110, 95, 71, 66, 0, 2, 65, 0, 65, 115,
    0, 17, 0, 2, 98, 0, 12, 0, 6, 101, 110, 95, 71, 66, 0, 1, 66, 0]

/-- Both ways to add the two strings give these bytes, in which the two
nodes follow each other, and so the same forms for every name and
language. -/
theorem payload_of_additions_two :
    (ofAdditions twoStrings).payload = .ok twoStringsBytes ∧
      (ofAdditions twoStringsAgain).payload = .ok twoStringsBytes ∧
      Row (NodeAt twoStringsBytes)
        [("a", [("en_GB", ["A", "As"])]), ("b", [("en_GB", ["B"])])]
        0 37 ∧
      (∀ name language, finalForms twoStrings name language =
        finalForms twoStringsAgain name language) ∧
      (ofAdditions twoStrings).payload =
        (ofAdditions twoStringsAgain).payload := by
  have hbytes : (ofAdditions twoStrings).payload = .ok twoStringsBytes := by
    decide +kernel
  have hbytes' : (ofAdditions twoStringsAgain).payload =
      .ok twoStringsBytes := by
    decide +kernel
  have hentries : (ofAdditions twoStrings).entries =
      [("a", [("en_GB", ["A", "As"])]), ("b", [("en_GB", ["B"])])] := by
    decide +kernel
  obtain ⟨hwalk, -, hsame⟩ := payload_of_additions twoStrings
  obtain ⟨-, -, hrow⟩ := hwalk _ hbytes
  obtain ⟨hforms, hpayload⟩ := hsame twoStringsAgain
  rw [hentries] at hrow
  have hfinal := hforms _ hbytes hbytes'
  exact ⟨hbytes, hbytes', hrow, hfinal, hpayload hfinal⟩

end Strings

end GamePack
