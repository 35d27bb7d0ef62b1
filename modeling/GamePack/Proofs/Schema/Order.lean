import GamePack.Proofs.Registry
import GamePack.Proofs.Schema.Loading

/-!
The order of definitions. Two enumerations, two bitsets or two kinds of
blocks that stand next to each other can be exchanged: each is added
under a name of its own, and what one of them is looked up in, the other
does not change. An enumeration looks nothing up, a bitset only looks
enumerations up, which no bitset is, and the kinds of blocks are all
looked up in the finished registry. So every order of a section loads the
same schema, or none does. Structures may use earlier structures, and
keep their order.
-/
namespace GamePack

variable {r r' r'' : Registry}

-- ======================================================== enumerations

/-- Adding an enumeration keeps the types ordered by name. -/
theorem Registry.IsOrdered.addEnumeration {e : EnumerationSpec}
    (h : r.IsOrdered) (hadd : r.addEnumeration e = .ok r') :
    r'.IsOrdered := by
  obtain ⟨built, -, hadd⟩ := bind_eq_ok.1 hadd
  exact h.add (mapError_ok_iff.1 hadd)

/-- Two enumerations can be registered in either order. -/
theorem Registry.IsOrdered.addEnumeration_comm {e e' : EnumerationSpec}
    (h : r.IsOrdered) (hadd : r.addEnumeration e = .ok r')
    (hadd' : r'.addEnumeration e' = .ok r'') :
    ∃ r₁, r.addEnumeration e' = .ok r₁ ∧ r₁.addEnumeration e = .ok r'' := by
  simp only [Registry.addEnumeration, bind_eq_ok, mapError_ok_iff]
    at hadd hadd' ⊢
  obtain ⟨built, hbuilt, hadd⟩ := hadd
  obtain ⟨built', hbuilt', hadd'⟩ := hadd'
  obtain ⟨r₁, hfirst, hlast⟩ := h.add_comm hadd hadd'
  exact ⟨r₁, ⟨built', hbuilt', hfirst⟩, built, hbuilt, hlast⟩

-- ============================================================= bitsets

/-- A bitset only depends on the enumerations that can be looked up. -/
theorem buildBitSet_congr {name storage : String}
    {fields : List BitFieldSpec} {b : BitSet}
    (h : ∀ source e, r.getEnumeration source = .ok e →
      r'.getEnumeration source = .ok e)
    (hbuild : buildBitSet r name storage fields = .ok b) :
    buildBitSet r' name storage fields = .ok b := by
  simp only [buildBitSet, bind_eq_ok, pure_ok_iff, mapM_eq_ok] at hbuild ⊢
  obtain ⟨n, hn, built, hbuilt, hb⟩ := hbuild
  refine ⟨n, hn, built, hbuilt.imp ?_, hb⟩
  intro spec field hfield
  obtain ⟨source, hsource, hfield⟩ := hfield
  exact ⟨source, h spec.source source hsource, hfield⟩

/-- A registered bitset makes no difference to another one. -/
theorem buildBitSet_add {b b' : BitSet} {added name storage : String}
    {fields : List BitFieldSpec} (hadd : r.add added (.bitSet b) = .ok r') :
    buildBitSet r' name storage fields = .ok b' ↔
      buildBitSet r name storage fields = .ok b' := by
  have hsame : ∀ source e, r'.getEnumeration source = .ok e ↔
      r.getEnumeration source = .ok e := by
    intro source e
    apply Registry.getEnumeration_add hadd
    intro other henum
    cases henum
  exact ⟨buildBitSet_congr fun source e => (hsame source e).1,
    buildBitSet_congr fun source e => (hsame source e).2⟩

theorem Registry.IsOrdered.addBitSet {b : BitSetSpec} (h : r.IsOrdered)
    (hadd : r.addBitSet b = .ok r') : r'.IsOrdered := by
  obtain ⟨built, -, hadd⟩ := bind_eq_ok.1 hadd
  exact h.add hadd

/-- Two bitsets can be registered in either order. -/
theorem Registry.IsOrdered.addBitSet_comm {b b' : BitSetSpec}
    (h : r.IsOrdered) (hadd : r.addBitSet b = .ok r')
    (hadd' : r'.addBitSet b' = .ok r'') :
    ∃ r₁, r.addBitSet b' = .ok r₁ ∧ r₁.addBitSet b = .ok r'' := by
  obtain ⟨built, hbuilt, hadd⟩ := bind_eq_ok.1 hadd
  obtain ⟨built', hbuilt', hadd'⟩ := bind_eq_ok.1 hadd'
  obtain ⟨r₁, hfirst, hlast⟩ := h.add_comm hadd hadd'
  rw [buildBitSet_add hadd] at hbuilt'
  refine ⟨r₁, bind_eq_ok.2 ⟨built', hbuilt', hfirst⟩,
    bind_eq_ok.2 ⟨built, ?_, hlast⟩⟩
  rw [buildBitSet_add hfirst]
  exact hbuilt

-- ============================================================== blocks

namespace Schema

variable {s s' s'' : Schema} {b b' : BlockDef}

/-- The kinds of blocks stand in the order of their magics. -/
def IsOrdered (s : Schema) : Prop := s.blocks.IsOrdered

theorem IsOrdered.addBlock (h : s.IsOrdered) (hadd : s.addBlock b = .ok s') :
    s'.IsOrdered := by
  obtain ⟨-, rfl⟩ := addBlock_ok_iff.1 hadd
  exact h.insert _ _

/-- Two kinds of blocks can be added in either order. -/
theorem IsOrdered.addBlock_comm (h : s.IsOrdered)
    (hadd : s.addBlock b = .ok s') (hadd' : s'.addBlock b' = .ok s'') :
    ∃ s₁, s.addBlock b' = .ok s₁ ∧ s₁.addBlock b = .ok s'' := by
  obtain ⟨hfree, rfl⟩ := addBlock_ok_iff.1 hadd
  obtain ⟨hfree', rfl⟩ := addBlock_ok_iff.1 hadd'
  obtain ⟨hne, hother⟩ := Dictionary.free_of_insert hfree'
  refine ⟨_, addBlock_ok_iff.2 ⟨hother, rfl⟩,
    addBlock_ok_iff.2 ⟨?_, ?_⟩⟩
  · rw [Dictionary.contains_eq_false_iff] at hfree ⊢
    show Dictionary.find? _ (s.blocks.insert _ _) = none
    rw [Dictionary.find?_insert_of_ne hne, hfree]
  · show ({ s with blocks := _ } : Schema) = { s with blocks := _ }
    rw [Dictionary.IsOrdered.insert_comm h hne]

end Schema

-- =========================================================== documents

namespace SchemaDocument

variable {d : SchemaDocument} {enumerations : List EnumerationSpec}
  {bitSets : List BitSetSpec} {blocks : List BlockDefSpec} {s : Schema}

/-- Enumerations and bitsets in another order register the same types. -/
theorem registry_of_perm (henums : d.enumerations.Perm enumerations)
    (hbitSets : d.bitSets.Perm bitSets) (h : d.registry = .ok r) :
    ({ d with enumerations, bitSets, blocks } : SchemaDocument).registry =
      .ok r := by
  simp only [registry, register, bind_eq_ok, mapError_ok_iff] at h ⊢
  obtain ⟨named, hnamed, packed, hpacked, hstructs⟩ := h
  have hordered : named.IsOrdered := by
    refine foldlM_induction hnamed Registry.isOrdered_builtin ?_
    intro e _ r r' hr hadd
    exact hr.addEnumeration hadd
  refine ⟨named, ?_, packed, ?_, hstructs⟩
  · refine foldlM_perm henums Registry.isOrdered_builtin ?_ ?_ hnamed
    · intro r e r' hr hadd
      exact hr.addEnumeration hadd
    · intro r e e' r' r'' hr hadd hadd'
      exact hr.addEnumeration_comm hadd hadd'
  · refine foldlM_perm hbitSets hordered ?_ ?_ hpacked
    · intro r b r' hr hadd
      exact hr.addBitSet hadd
    · intro r b b' r' r'' hr hadd hadd'
      exact hr.addBitSet_comm hadd hadd'

/-- What is loaded from a document is loaded from it in another order. -/
theorem build_ok_of_perm (henums : d.enumerations.Perm enumerations)
    (hbitSets : d.bitSets.Perm bitSets) (hblocks : d.blocks.Perm blocks)
    (h : d.build = .ok s) :
    ({ d with enumerations, bitSets, blocks } : SchemaDocument).build =
      .ok s := by
  simp only [build, bind_eq_ok, mapError_ok_iff] at h ⊢
  obtain ⟨r, hr, hfold⟩ := h
  refine ⟨r, registry_of_perm henums hbitSets hr, ?_⟩
  have hnew : ({ registry := r } : Schema).IsOrdered :=
    Dictionary.isOrdered_nil
  refine foldlM_perm hblocks hnew ?_ ?_ hfold
  · intro s b s' hs hadd
    obtain ⟨built, -, hadd⟩ := bind_eq_ok.1 hadd
    exact hs.addBlock hadd
  · intro s b b' s' s'' hs hadd hadd'
    obtain ⟨built, hbuilt, hadd⟩ := bind_eq_ok.1 hadd
    obtain ⟨built', hbuilt', hadd'⟩ := bind_eq_ok.1 hadd'
    obtain ⟨s₁, hfirst, hlast⟩ := hs.addBlock_comm hadd hadd'
    exact ⟨s₁, bind_eq_ok.2 ⟨built', hbuilt', hfirst⟩,
      bind_eq_ok.2 ⟨built, hbuilt, hlast⟩⟩

/-- The order of the enumerations, of the bitsets and of the kinds of
blocks does not matter: every order loads the same schema, with the same
type for every name and the same kinds of blocks, or no order loads
any. -/
theorem build_of_perm (henums : d.enumerations.Perm enumerations)
    (hbitSets : d.bitSets.Perm bitSets) (hblocks : d.blocks.Perm blocks) :
    (∃ s, d.build = .ok s ∧
        ({ d with enumerations, bitSets, blocks } : SchemaDocument).build =
          .ok s) ∨
      (∃ e, d.build = .error e) ∧
        ∃ e, ({ d with enumerations, bitSets, blocks } :
          SchemaDocument).build = .error e := by
  cases h : d.build with
  | ok s =>
      exact .inl ⟨s, rfl, build_ok_of_perm henums hbitSets hblocks h⟩
  | error e =>
      refine .inr ⟨⟨e, rfl⟩, ?_⟩
      cases h' : ({ d with enumerations, bitSets, blocks } :
          SchemaDocument).build with
      | error e' => exact ⟨e', rfl⟩
      | ok s =>
          -- an order that loads would make this one load
          have hback := build_ok_of_perm henums.symm hbitSets.symm
            hblocks.symm h'
          rw [show ({ d with } : SchemaDocument) = d from rfl] at h
          rw [h] at hback
          cases hback

/-- A magic of four letters of one kind. -/
def repeatedMagic (b : UInt8) (h : isGraphic b = true) : Magic :=
  ⟨[b, b, b, b], rfl, by simp [h]⟩

/-- Two enumerations, a bitset over each of them, a structure of the
bitsets, and two kinds of blocks. -/
def townDocument : SchemaDocument where
  enumerations := [
    ⟨"side", "uint8", [("N", .int 0), ("S", .int 1)]⟩,
    ⟨"floor", "int8", [("cellar", .int (-1)), ("ground", .int 0)]⟩]
  bitSets := [
    ⟨"doors", "uint8", [{ name := "open", source := "side", start := 0 }]⟩,
    ⟨"levels", "uint8", [{ name := "lit", source := "floor", start := 4 }]⟩]
  structs := [⟨"house", [("doors", .named "doors"),
    ("levels", .named "levels")]⟩]
  blocks := [
    ⟨repeatedMagic 0x41 rfl, 1, 2, [⟨"house", .named "house", none, none⟩]⟩,
    ⟨repeatedMagic 0x42 rfl, 1, 1, [⟨"side", .named "side", none, none⟩]⟩]

/-- The document loads, and with each section turned around it loads the
same schema. -/
theorem build_of_perm_town :
    townDocument.enumerations.Perm townDocument.enumerations.reverse ∧
      townDocument.bitSets.Perm townDocument.bitSets.reverse ∧
      townDocument.blocks.Perm townDocument.blocks.reverse ∧
      ∃ s, townDocument.build = .ok s ∧
        ({ townDocument with
            enumerations := townDocument.enumerations.reverse
            bitSets := townDocument.bitSets.reverse
            blocks := townDocument.blocks.reverse } :
          SchemaDocument).build = .ok s := by
  have hloads : townDocument.build.isOk = true := by decide +kernel
  have hboth := build_of_perm (d := townDocument)
    (List.reverse_perm _).symm (List.reverse_perm _).symm
    (List.reverse_perm _).symm
  refine ⟨(List.reverse_perm _).symm, (List.reverse_perm _).symm,
    (List.reverse_perm _).symm, ?_⟩
  rcases hboth with hboth | ⟨⟨e, herror⟩, -⟩
  · exact hboth
  · rw [herror] at hloads
    cases hloads

end SchemaDocument

end GamePack
