import GamePack.Proofs.Conversion.Sprites
import GamePack.Proofs.Typing

/-!
What conversions are composed of. Whatever the type and the value are, a
conversion is a chain of few kinds of steps: it gets a sheet, reports
what a grid leaves uncovered, adds the block of a sprite or of strings,
reports a sprite, or looks a block up by its number. It refuses values
that do not fit, or ends in a panic where a number leaves its word, and
does all of this inside any number of fields.

`IsComposed` is that description, and `composed_convert` the one
induction over types and values. What every step does and chains pass on
is then shown of all conversions by induction on how they are composed.
-/
namespace GamePack

/-- A block that conversion makes: that of an encoded sprite, or that of
strings. -/
inductive Block.IsGenerated : Block → Prop where
  | sprite {b : Bitmap} {r : Sprite.Region} {crop : Bool} {transparent : UInt8}
      {empty : EmptySprite} {image : SpriteImage} {block : Block}
      (hencode : SpriteImage.encode b r crop transparent empty =
        .ok (some image)) (hblock : image.toBlock = .ok block) :
      IsGenerated block
  | strings {strings : Strings} {block : Block}
      (hblock : strings.toBlock = .ok block) : IsGenerated block

/-- How a step of a conversion fails by itself, in no field: a value does
not fit, or a step of arithmetic panics. -/
inductive Error.IsOfStep : Error → Prop where
  | value (cause : ValueError) : IsOfStep (.value cause)
  | panic (step : String) : IsOfStep (.panic step)

namespace Conversion

/-- A conversion that is composed of the steps of conversions. Of what
the first part of a chain gives it is known that a run gave it. -/
inductive IsComposed (settings : ConversionSettings) :
    {α : Type} → Conversion α → Prop where
  | pure {α : Type} (a : α) :
      IsComposed settings (Pure.pure a : Conversion α)
  | refuse {α : Type} {e : Error} (he : e.IsOfStep) :
      IsComposed settings (throw e : Conversion α)
  | chain {α β : Type} {c : Conversion α} {f : α → Conversion β}
      (first : IsComposed settings c)
      (rest : ∀ s a s', c.Runs s a s' → IsComposed settings (f a)) :
      IsComposed settings (c >>= f)
  | inField {α : Type} {c : Conversion α} (owner name : String)
      (inner : IsComposed settings c) :
      IsComposed settings (inField owner name c)
  | sheet (path : Path) : IsComposed settings (sheet settings path)
  | report (ds : Diagnostics) :
      IsComposed settings (modify fun s : ConversionState =>
        { s with diagnostics := s.diagnostics ++ ds } : Conversion PUnit)
  | reportSprite (report : SpriteReport) :
      IsComposed settings (modify fun s : ConversionState =>
        { s with sprites := s.sprites ++ [report] } : Conversion PUnit)
  | addBlock (block : Block) (hblock : block.IsGenerated) :
      IsComposed settings (addBlock (some block))
  | blockNumber (n : Int) : IsComposed settings (blockNumber n)

variable {α β : Type} {settings : ConversionSettings}

-- ============================================================= failures

/-- A failure for a value is one that a step has by itself. -/
theorem isOfStep_of_mapError {r : Except ValueError α} {e : Error}
    (he : r.mapError .value = .error e) : e.IsOfStep := by
  obtain ⟨cause, -, rfl⟩ := mapError_error_iff.1 he
  exact .value cause

/-- A literal is unreadable or out of range, or it panics where its sign
has no room. -/
theorem isOfStep_of_parse {n : Numeric} {text : String} {e : Error}
    (he : n.parse text = .error e) : e.IsOfStep := by
  unfold Numeric.parse at he
  split at he
  split at he
  · cases he
    exact .value _
  · split at he
    · split at he
      · cases he
        exact .panic _
      · exact isOfStep_of_mapError he
    · exact isOfStep_of_mapError he

/-- One symbol of a bit field is unknown or has no place, or the index of
its bit leaves the word. -/
theorem isOfStep_of_bitsOfSymbol {storage : Numeric} {f : BitField}
    {symbol : String} {e : Error}
    (he : f.bitsOfSymbol storage symbol = .error e) : e.IsOfStep := by
  unfold BitField.bitsOfSymbol at he
  split at he
  · cases he
    exact .value _
  · unfold BitField.bitsOf at he
    grind [Error.IsOfStep]

/-- A bitset is packed, or refused for its fields, their symbols or their
number. -/
theorem isOfStep_of_pack {b : BitSet} {literal : BitLiteral} {e : Error}
    (he : b.pack literal = .error e) : e.IsOfStep := by
  unfold BitSet.pack at he
  split at he
  · cases he
    exact .value _
  · simp only [bind_eq_error, guard_eq_error] at he
    rcases he with hfields | ⟨_, -, ⟨-, rfl⟩ | ⟨-, hcheck⟩⟩
    · obtain ⟨f, -, packed, hf⟩ := foldlM_eq_error hfields
      simp only [BitField.packInto] at hf
      split at hf
      · cases hf
        exact .value _
      · obtain ⟨symbol, -, _, hsymbol⟩ := foldlM_eq_error hf
        simp only [bind_eq_error, pure_ne_error, and_false, exists_false,
          or_false] at hsymbol
        exact isOfStep_of_bitsOfSymbol hsymbol
    · exact .value _
    · exact isOfStep_of_mapError hcheck

/-- A region is encoded, or refused because it leaves its sheet, or its
offsets leave their words. -/
theorem isOfStep_of_encode {b : Bitmap} {r : Sprite.Region} {crop : Bool}
    {transparent : UInt8} {empty : EmptySprite} {e : Error}
    (he : SpriteImage.encode b r crop transparent empty = .error e) :
    e.IsOfStep := by
  simp only [SpriteImage.encode, bind_eq_error, guard_eq_error] at he
  rcases he with hbounds | ⟨_, -, ⟨-, rfl⟩ | ⟨-, hlines⟩⟩
  · exact isOfStep_of_mapError hbounds
  · exact .panic _
  · -- a region that stays within its sheet and its words is encoded
    generalize (if crop = true then r.crop b transparent else r) = cropped
      at hlines
    split at hlines
    · cases empty <;> exact absurd hlines pure_ne_error
    · exact absurd hlines pure_ne_error

/-- A sprite has no block only where a number of it does not fit. -/
theorem isOfStep_of_toBlock {image : SpriteImage} {e : Error}
    (he : image.toBlock = .error e) : e.IsOfStep := by
  simp only [SpriteImage.toBlock, bind_eq_error, pure_ne_error, and_false,
    exists_false, or_false] at he
  rcases he with hw | ⟨_, -, hh | ⟨_, -, hx | ⟨_, -, hy⟩⟩⟩
  · exact isOfStep_of_mapError hw
  · exact isOfStep_of_mapError hh
  · exact isOfStep_of_mapError hx
  · exact isOfStep_of_mapError hy

-- ======================================================== constructions

theorem composed_map {c : Conversion α} (f : α → β)
    (hc : IsComposed settings c) : IsComposed settings (f <$> c) := by
  rw [map_eq_pure_bind]
  exact .chain hc fun _ _ _ _ => .pure _

/-- A result that fails as steps fail is a step of its own. -/
theorem composed_ofExcept {r : Except Error α}
    (hr : ∀ e, r = .error e → e.IsOfStep) :
    IsComposed settings (ofExcept r) := by
  cases r with
  | error e => exact .refuse (hr e rfl)
  | ok a => exact .pure a

theorem composed_ofValue (r : Except ValueError α) :
    IsComposed settings (ofValue r) :=
  composed_ofExcept fun _ he => isOfStep_of_mapError he

/-- A row of steps is a chain of them. -/
theorem composed_mapM {f : α → Conversion β} {l : List α}
    (hf : ∀ a ∈ l, IsComposed settings (f a)) :
    IsComposed settings (l.mapM f) := by
  induction l with
  | nil => exact .pure []
  | cons a l ih =>
      rw [List.mapM_cons]
      refine .chain (hf a List.mem_cons_self) fun _ _ _ _ => ?_
      exact .chain (ih fun b hb => hf b (List.mem_cons_of_mem a hb))
        fun _ _ _ _ => .pure _

-- ============================================================= sprites

/-- A region is encoded from its sheet. -/
theorem composed_encodeRegion (empty : EmptySprite)
    (region : SheetRegion) :
    IsComposed settings (encodeRegion settings empty region) :=
  .chain (.sheet _) fun _ _ _ _ =>
    composed_ofExcept fun _ he => isOfStep_of_encode he

/-- A region is encoded, its block, if there is one, is added, and its
sprite is reported. -/
theorem composed_sprite (region : SheetRegion) :
    IsComposed settings (sprite settings region) := by
  refine .chain (composed_encodeRegion _ _) fun _ image _ himage => ?_
  have hreport : ∀ reference, IsComposed settings (do
      modify fun s => { s with
        sprites := s.sprites ++ [reportOf region image reference] }
      return reference : Conversion (Option BlockRef)) := fun reference =>
    .chain (.reportSprite _) fun _ _ _ _ => .pure _
  -- without an image nothing is added; an image that was encoded has a
  -- block that was generated
  cases image with
  | none =>
      refine .chain (.pure _) fun _ _ _ hnone => ?_
      obtain ⟨rfl, -⟩ := runs_pure.1 hnone
      have hadd : IsComposed settings (addBlock none) := .pure none
      exact .chain hadd fun _ _ _ _ => hreport _
  | some image =>
      simp only [encodeRegion, runs_bind, runs_ofExcept] at himage
      obtain ⟨_, _, -, hencode, -⟩ := himage
      refine .chain (composed_map _ (composed_ofExcept fun _ he =>
        isOfStep_of_toBlock he)) fun _ _ _ hblock => ?_
      simp only [runs_map, runs_ofExcept] at hblock
      obtain ⟨block, ⟨hblock, -⟩, rfl⟩ := hblock
      exact .chain (.addBlock block (.sprite hencode hblock))
        fun _ _ _ _ => hreport _

theorem composed_spriteRefs (regions : List SheetRegion) :
    IsComposed settings (spriteRefs settings regions) :=
  composed_mapM fun _ _ =>
    .chain (composed_sprite _) fun _ _ _ _ => .pure _

-- =============================================================== grids

/-- The cells of a grid come from its sheet, behind the report on what
they leave uncovered. -/
theorem composed_gridCells (grid : SheetGrid) :
    IsComposed settings (gridCells settings grid) := by
  refine .chain (.sheet _) fun _ _ _ _ => ?_
  exact .chain (.report _) fun _ _ _ _ => composed_ofValue _

theorem composed_listGrid (count : Numeric) (element : DataType)
    (grid : SheetGrid) :
    IsComposed settings (listGrid settings count element grid) := by
  unfold listGrid
  split
  · exact .chain (.refuse (.value _)) fun _ _ _ hrun => absurd hrun not_runs_throw
  · refine .chain (composed_gridCells grid) fun _ _ _ _ => ?_
    refine .chain (composed_ofValue _) fun _ _ _ _ => ?_
    exact .chain (composed_spriteRefs _) fun _ _ _ _ => .pure _

/-- The cells of a structure are converted in the order of its
sub-fields. -/
theorem composed_cellRefs (fields : List (String × DataType))
    (cells : List (String × SheetRegion)) :
    IsComposed settings (cellRefs settings fields cells) := by
  induction fields generalizing cells with
  | nil => exact .pure _
  | cons f fields ih =>
      obtain ⟨name, t⟩ := f
      unfold cellRefs
      split
      · exact .refuse (.value _)
      · refine .chain (composed_sprite _) fun _ _ _ _ => ?_
        exact .chain (ih _) fun _ _ _ _ => .pure _

theorem composed_structGrid (record : String)
    (fields : List (String × DataType)) (grid : SheetGrid) :
    IsComposed settings (structGrid settings record fields grid) := by
  unfold structGrid
  split
  · exact .refuse (.value _)
  · refine .chain (composed_gridCells grid) fun _ _ _ _ => ?_
    split
    · exact .refuse (.value _)
    · exact .chain (composed_cellRefs _ _) fun _ _ _ _ => .pure _

-- ============================================================== values

theorem composed_unsuitable (t : DataType) (v : FieldValue) :
    IsComposed settings (unsuitable t v : Conversion α) :=
  .refuse (.value _)

/-- Strings become a block of their own, which is generated. -/
theorem composed_strings (strings : Strings) :
    IsComposed settings (do
      let block ← Conversion.ofValue strings.toBlock
      return .ref (← Conversion.addBlock (some block)) :
        Conversion Value) := by
  refine .chain (composed_ofValue _) fun _ block _ hblock => ?_
  obtain ⟨hblock, -⟩ := runs_ofValue.1 hblock
  exact .chain (.addBlock block (.strings hblock)) fun _ _ _ _ => .pure _

theorem composed_subFieldValue (record name : String)
    (items : List (String × FieldValue)) :
    IsComposed settings (subFieldValue record name items) := by
  unfold subFieldValue
  split
  · exact .pure _
  · exact .refuse (.value _)

/-- Each sub-field is converted inside the field that it is. -/
theorem composed_convertFields {record : String}
    {items : List (String × FieldValue)}
    {fields : List (String × DataType)}
    (ih : ∀ f ∈ fields, ∀ v, IsComposed settings (convert settings f.2 v)) :
    IsComposed settings (convertFields settings record items fields) := by
  induction fields with
  | nil => exact .pure _
  | cons f fields ihfields =>
      obtain ⟨name, t⟩ := f
      rw [convertFields]
      refine .chain (composed_subFieldValue _ _ _) fun _ _ _ _ => ?_
      refine .chain (.inField _ _ (ih _ List.mem_cons_self _))
        fun _ _ _ _ => ?_
      exact .chain
        (ihfields fun g hg => ih g (List.mem_cons_of_mem _ hg))
        fun _ _ _ _ => .pure _

/-- Whatever is converted, the conversion is composed of the steps of
conversions. -/
theorem composed_convert (t : DataType) (v : FieldValue) :
    IsComposed settings (convert settings t v) := by
  induction t using DataType.induction generalizing v with
  | numeric n =>
      cases v with
      | number k => exact .chain (composed_ofValue _) fun _ _ _ _ => .pure _
      | symbol text =>
          exact .chain (composed_ofExcept fun _ he => isOfStep_of_parse he)
            fun _ _ _ _ => .pure _
      | _ => exact composed_unsuitable _ _
  | enumeration e =>
      cases v with
      | symbol text =>
          exact .chain (composed_ofValue _) fun _ _ _ _ => .pure _
      | _ => exact composed_unsuitable _ _
  | bitSet b =>
      cases v with
      | bits literal =>
          exact .chain (composed_ofExcept fun _ he => isOfStep_of_pack he)
            fun _ _ _ _ => .pure _
      | _ => exact composed_unsuitable _ _
  | reference kind =>
      cases v with
      | block r => exact .pure _
      | number n => exact .blockNumber n
      | image region =>
          exact .chain (composed_sprite _) fun _ _ _ _ => .pure _
      | _ => exact composed_unsuitable _ _
  | text =>
      cases v with
      | block r => exact .pure _
      | text strings => exact composed_strings strings
      | _ => exact composed_unsuitable _ _
  | imageData =>
      cases v with
      | image region =>
          exact .chain (composed_encodeRegion _ _) fun _ _ _ _ => .pure _
      | _ => exact composed_unsuitable _ _
  | list count element ih =>
      cases v with
      | list items =>
          rw [convert]
          refine .chain (composed_ofValue _) fun _ _ _ _ => ?_
          exact .chain (composed_mapM fun item _ => ih item)
            fun _ _ _ _ => .pure _
      | grid grid =>
          rw [convert]
          exact composed_listGrid count element grid
      | _ => exact composed_unsuitable _ _
  | struct name fields ih =>
      cases v with
      | struct items =>
          rw [convert]
          exact .chain (composed_convertFields ih) fun _ _ _ _ => .pure _
      | grid grid =>
          rw [convert]
          exact composed_structGrid name fields grid
      | _ => exact composed_unsuitable _ _
  | raw => cases v <;> exact composed_unsuitable _ _

end Conversion

end GamePack
