import GamePack.Binding
import GamePack.Proofs.Conversion.Values

/-!
Bound values come with no references of their own: of the shapes that
binding gives, only nothing stands for a reference, and it is none. So
every reference in a compiled file was made by a conversion. Binding
fails for values and for documents, inside any number of fields, and in
no other way. Both are one statement about every outcome of a step,
proved step by step along the recursion.
-/
namespace GamePack

-- ============================================================ outcomes

/-- A failure of a value or of a document, inside any number of
fields. -/
inductive Error.IsOfBinding : Error → Prop where
  | value (cause : ValueError) : IsOfBinding (.value cause)
  | document (cause : DocumentError) : IsOfBinding (.document cause)
  | field (owner name : String) {e : Error} (h : IsOfBinding e) :
      IsOfBinding (.field owner name e)

/-- A step gives only what has a property, and fails as binding does. -/
def Binds {α : Type} (p : α → Prop) : Except Error α → Prop
  | .ok a => p a
  | .error e => e.IsOfBinding

namespace Binds

variable {ε α β : Type} {p : α → Prop} {q : β → Prop}
  {r : Except Error α}

theorem of_ok (h : Binds p r) {a : α} (ha : r = .ok a) : p a := by
  subst ha
  exact h

theorem of_error (h : Binds p r) {e : Error} (he : r = .error e) :
    e.IsOfBinding := by
  subst he
  exact h

/-- In a chain each step may use what the step before it binds. -/
theorem bind (h : Binds p r) {f : α → Except Error β}
    (hf : ∀ a, p a → Binds q (f a)) : Binds q (r >>= f) := by
  cases r with
  | error e => exact h
  | ok a => exact hf a h

/-- Any failure is one of binding when it is told as one. -/
theorem ofMapError (r : Except ε α) {f : ε → Error}
    (hf : ∀ cause, (f cause).IsOfBinding) :
    Binds (fun _ => True) (r.mapError f) := by
  cases r with
  | error cause => exact hf cause
  | ok a => trivial

/-- A field around a failure of binding gives a failure of binding. -/
theorem inField (h : Binds p r) (owner name : String) :
    Binds p (r.mapError (.field owner name)) := by
  cases r with
  | error e => exact .field owner name h
  | ok a => exact h

/-- A row of values is bound when each of them is. -/
theorem mapM {f : α → Except Error β} (h : ∀ a, Binds q (f a))
    (l : List α) : Binds (fun _ => True) (l.mapM f) := by
  cases hl : l.mapM f with
  | error e =>
      obtain ⟨a, -, ha⟩ := mapM_eq_error hl
      exact (h a).of_error ha
  | ok bs => trivial

theorem foldlM {f : β → α → Except Error β}
    (h : ∀ b a, Binds q (f b a)) (b : β) (l : List α) :
    Binds (fun _ => True) (l.foldlM f b) := by
  cases hl : l.foldlM f b with
  | error e =>
      obtain ⟨a, -, b', ha⟩ := foldlM_eq_error hl
      exact (h b' a).of_error ha
  | ok b' => trivial

end Binds

-- =============================================================== steps

variable {baseDir : Path} (entries : List (Yaml.Value × Yaml.Value))

theorem binds_keyName (key : Yaml.Value) :
    Binds (fun _ => True) (keyName key) := by
  unfold keyName
  split
  · trivial
  · exact .document _

theorem binds_subFieldType (record : String)
    (fields : List (String × DataType)) (name : String) :
    Binds (fun _ => True) (subFieldType record fields name) := by
  unfold subFieldType
  split
  · trivial
  · exact .value _

/-- A region holds no text, so no name in it is left to be bound. -/
theorem binds_bindRegion :
    Binds FieldValue.IsFree (bindRegion baseDir entries) := by
  unfold bindRegion
  split
  · exact .image _
  · exact .document _

/-- Neither does a grid. -/
theorem binds_bindGrid :
    Binds FieldValue.IsFree (bindGrid baseDir entries) := by
  unfold bindGrid
  split
  · exact .grid _
  · exact .document _

/-- A literal of a bitset is bound to its symbols as they are written. -/
theorem binds_bindBits (t : DataType) :
    Binds FieldValue.IsFree (bindBits t entries) := by
  refine Binds.bind (p := fun _ => True)
    (Binds.mapM (q := fun _ => True) (fun entry => ?_) entries)
    fun literal _ => .bits literal
  refine (Binds.ofMapError _ fun _ => .value _).bind fun _ _ => ?_
  exact (binds_keyName entry.1).bind fun _ _ => trivial

theorem binds_addLanguages (strings : Strings) (name : String) :
    Binds (fun _ => True) (addLanguages strings name entries) := by
  refine Binds.foldlM (q := fun _ => True) (fun strings entry => ?_) _ _
  refine (Binds.ofMapError _ fun _ => .value _).bind fun _ _ => ?_
  refine (binds_keyName entry.1).bind fun _ _ => ?_
  exact Binds.ofMapError _ fun _ => .value _

/-- Strings are bound or refused for their languages and forms. -/
theorem binds_bindStrings :
    Binds FieldValue.IsFree (bindStrings entries) := by
  refine Binds.bind (p := fun _ => True)
    (Binds.foldlM (q := fun _ => True) (fun strings entry => ?_) _ entries)
    fun strings _ => .text strings
  refine (binds_keyName entry.1).bind fun name _ => ?_
  split
  · exact binds_addLanguages _ strings name
  · exact .value _

-- ============================================================= binding

/-- Binding gives values without references of their own, and fails for
values and documents only. -/
theorem binds_bind (value : Yaml.Value) (t : DataType) :
    Binds FieldValue.IsFree (bind baseDir value t) := by
  refine bind.induct
    (fun value t => Binds FieldValue.IsFree (bind baseDir value t))
    (fun record fields entries =>
      Binds (fun bounds => ∀ item ∈ bounds, item.2.IsFree)
        (bindFields baseDir record fields entries))
    (fun element items =>
      Binds (fun bounds => ∀ item ∈ bounds, item.IsFree)
        (bindItems baseDir element items))
    ?null ?int ?largeInt ?float ?string ?sequence ?noSequence ?region
    ?image ?text ?bits ?listGrid ?structGrid ?struct ?noMapping ?tagged
    ?bool ?noItems ?item ?noFields ?field value t
  case null => exact fun t => .block
  case int =>
      intro n t k hk
      simp only [bind, hk]
      exact .number k
  case largeInt =>
      intro n t hk
      simp only [bind, hk]
      exact .value _
  case float => exact fun f t => .value _
  case string => exact fun text t => .symbol text
  case sequence =>
      intro items count element ih
      exact ih.bind fun bounds hbounds => .list hbounds
  case noSequence =>
      intro items t hlist
      cases t with
      | list count element => exact absurd rfl (hlist count element)
      | _ => exact .value _
  case region => exact fun entries kind => binds_bindRegion entries
  case image => exact fun entries => binds_bindRegion entries
  case text => exact fun entries => binds_bindStrings entries
  case bits => exact fun entries b => binds_bindBits entries _
  case listGrid =>
      exact fun entries count element => binds_bindGrid entries
  case structGrid =>
      intro entries name fields hgrid
      rw [bind, if_pos hgrid]
      exact binds_bindGrid entries
  case struct =>
      intro entries name fields hgrid ih
      rw [bind, if_neg hgrid]
      exact ih.bind fun bounds hbounds => .struct hbounds
  case noMapping =>
      intro entries t hreference himage htext hbits hlist hstruct
      cases t with
      | reference kind => exact absurd rfl (hreference kind)
      | imageData => exact absurd rfl himage
      | text => exact absurd rfl htext
      | bitSet b => exact absurd rfl (hbits b)
      | list count element => exact absurd rfl (hlist count element)
      | struct name fields => exact absurd rfl (hstruct name fields)
      | _ => exact .value _
  case tagged => exact fun tag value t ih => ih
  case bool => exact fun b t => .value _
  case noItems => exact fun element item hitem => absurd hitem List.not_mem_nil
  case item =>
      intro element first items ih ihitems
      rw [bindItems]
      refine ih.bind fun bound hbound => ?_
      refine ihitems.bind fun later hlater => ?_
      exact List.forall_mem_cons.2 ⟨hbound, hlater⟩
  case noFields =>
      exact fun record fields item hitem => absurd hitem List.not_mem_nil
  case field =>
      intro record fields key value rest ih ihrest
      rw [bindFields]
      refine (binds_keyName key).bind fun name _ => ?_
      refine (binds_subFieldType record fields name).bind fun t _ => ?_
      refine ((ih t).inField record name).bind fun bound hbound => ?_
      refine ihrest.bind fun later hlater => ?_
      exact List.forall_mem_cons.2 ⟨hbound, hlater⟩

end GamePack
