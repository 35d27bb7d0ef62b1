import GamePack.Yaml.Tree

/-!
Documents with their aliases replaced by what they stand for. An anchor
is numbered by how many names were anchored before it, and an alias
means what its number stands for in the end, so a name that is anchored
again may be caught up by the next new name. What is nested too deeply,
and so what contains itself, is refused; so are aliases that make the
document grow too much.
-/
namespace GamePack.Yaml

/-- A node of a document without aliases. -/
inductive Node where
  | scalar (tag : Option Tag) (style : Style) (text : String)
  | sequence (tag : Option Tag) (items : List Node)
  | mapping (tag : Option Tag) (entries : List (Node × Node))
  deriving Repr, Inhabited

/-- The anchors of a document while they are numbered. Places count the
starts and ends of the nodes before them. -/
structure Anchors where
  numbers : List (String × Nat) := []
  /-- The place each number stands for, the latest first. -/
  places : List (Nat × Nat) := []
  /-- The anchored nodes by their places. -/
  nodes : List (Nat × Tree Nat) := []
  place : Nat := 0

namespace Anchors

/-- Number the anchor of the node that starts here. -/
def define (a : Anchors) : Option String → Anchors
  | none => a
  | some name =>
    let number := a.numbers.length
    let others := a.numbers.filter (·.1 != name)
    { a with
      numbers := (name, number) :: others
      places := (number, a.place) :: a.places }

/-- Go on by one place. -/
def next (a : Anchors) : Anchors := { a with place := a.place + 1 }

/-- Keep an anchored node that started at a place. -/
def keep (a : Anchors) (anchor : Option String) (place : Nat)
    (t : Tree Nat) : Anchors :=
  if anchor.isSome then { a with nodes := (place, t) :: a.nodes } else a

/-- What a number stands for in the end. -/
def target? (a : Anchors) (number : Nat) : Option (Tree Nat) :=
  (a.places.lookup number).bind fun place => a.nodes.lookup place

end Anchors

namespace Tree

/-- Steps that number the anchors of a document. -/
abbrev Numbering := StateT Anchors (Except Fault)

mutual

/-- A document with the numbers of its aliases. -/
def number : Tree String → Numbering (Tree Nat)
  | .alias name => do
    let a ← get
    match a.numbers.lookup name with
    | none => throw (.unknownAlias name)
    | some n =>
      set a.next
      return .alias n
  | .scalar anchor tag style text => do
    let a ← get
    let t : Tree Nat := .scalar anchor tag style text
    set ((a.define anchor).next.keep anchor a.place t)
    return t
  | .sequence anchor tag items => do
    let start := (← get).place
    modify fun a => (a.define anchor).next
    let items ← numberItems items
    let t : Tree Nat := .sequence anchor tag items
    modify fun a => a.next.keep anchor start t
    return t
  | .mapping anchor tag entries => do
    let start := (← get).place
    modify fun a => (a.define anchor).next
    let entries ← numberEntries entries
    let t : Tree Nat := .mapping anchor tag entries
    modify fun a => a.next.keep anchor start t
    return t

/-- Items with the numbers of their aliases. -/
def numberItems : List (Tree String) → Numbering (List (Tree Nat))
  | [] => return []
  | item :: items => do
    let item ← number item
    return item :: (← numberItems items)

/-- Entries with the numbers of their aliases. -/
def numberEntries :
    List (Tree String × Tree String) → Numbering (List (Tree Nat × Tree Nat))
  | [] => return []
  | (key, value) :: entries => do
    let key ← number key
    let value ← number value
    return (key, value) :: (← numberEntries entries)

end

/-- The deepest nesting of collections. -/
def maxDepth : Nat := 128

/-- How often aliases may be replaced for each place of a document. -/
def repetitions : Nat := 100

/-- Steps that replace aliases and count them. -/
abbrev Expansion := StateT Nat (Except Fault)

/-- What a tree stands for, when it is an alias. -/
def resolve (a : Anchors) (t : Tree Nat) : Expansion (Tree Nat) := do
  match t with
  | .alias n =>
    modify (· + 1)
    if a.place * repetitions < (← get) then throw .tooManyAliases
    match a.target? n with
    | some t => return t
    | none => throw (.unknownAlias (toString n))
  | t => return t

/-- The node of a tree, of at most so many levels of collections. -/
def expand (a : Anchors) : Nat → Tree Nat → Expansion Node
  | depth, t => do
    match ← resolve a t, depth with
    | .alias n, _ => throw (.unknownAlias (toString n))
    | .scalar _ tag style text, _ => return .scalar tag style text
    | _, 0 => throw .tooDeep
    | .sequence _ tag items, depth + 1 =>
      return .sequence tag (← items.mapM (expand a depth))
    | .mapping _ tag entries, depth + 1 =>
      return .mapping tag (← entries.mapM fun (key, value) => do
        let key ← expand a depth key
        return (key, ← expand a depth value))

end Tree

/-- The document of a text. -/
def Node.parse (text : String) : Except Fault Node := do
  let (t, anchors) ← (Tree.number (← Tree.parse text)).run {}
  let (node, _) ← (Tree.expand anchors Tree.maxDepth t).run 0
  return node

end GamePack.Yaml
