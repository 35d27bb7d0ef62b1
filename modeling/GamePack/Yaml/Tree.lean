import GamePack.Yaml.Lexer

/-!
The grammar of YAML documents: from tokens to a tree of scalars,
sequences and mappings in which aliases are still names. A text holds
one document at most; a text without any is an empty scalar.

Every step of the grammar takes a token or stands right under one that
did, so the fuel that `Tree.parse` computes from the number of tokens is
enough.
-/
namespace GamePack.Yaml

/-- A document whose aliases are given as `ρ`. -/
inductive Tree (ρ : Type) where
  | alias (target : ρ)
  | scalar (anchor : Option String) (tag : Option Tag) (style : Style)
      (text : String)
  | sequence (anchor : Option String) (tag : Option Tag)
      (items : List (Tree ρ))
  | mapping (anchor : Option String) (tag : Option Tag)
      (entries : List (Tree ρ × Tree ρ))
  deriving Repr, Inhabited

namespace Tree

/-- What a place without content stands for. -/
def missing : Tree String := .scalar none none .plain ""

/-- Tag handles and what they stand for. -/
abbrev Handles := List (String × Bytes)

/-- The handles that need no directive. -/
def defaultHandles : Handles :=
  [("!", [0x21]), ("!!", CoreType.lead)]

/-- The tag that a handle and a suffix make. -/
def tagOf (handles : Handles) (handle : String) (suffix : Bytes) :
    Except Fault Tag :=
  if handle.isEmpty then .ok (.ofBytes suffix)
  else match handles.lookup handle with
    | some lead => .ok (.ofBytes (lead ++ suffix))
    | none => .error (.unknownTagHandle handle)

/-- The anchor and the tag in front of a node, in either order. -/
def properties (handles : Handles) (ts : List Token) :
    Except Fault (Option String × Option Tag × List Token) :=
  match ts with
  | .anchor a :: .tag h s :: rest => do
    return (some a, some (← tagOf handles h s), rest)
  | .tag h s :: .anchor a :: rest => do
    return (some a, some (← tagOf handles h s), rest)
  | .anchor a :: rest => .ok (some a, none, rest)
  | .tag h s :: rest => do
    return (none, some (← tagOf handles h s), rest)
  | _ => .ok (none, none, ts)

/-- Tokens that show that a place in a block mapping has no content. -/
def endsBlockPlace : Token → Bool
  | .key | .value | .blockEnd => true
  | _ => false

/-- Tokens that show that an entry of a block sequence has no
content. -/
def endsEntry : Token → Bool
  | .blockEntry | .blockEnd => true
  | _ => false

/-- Tokens that show that a place in a bracketed sequence has no
content. -/
def endsFlowItem : Token → Bool
  | .flowEntry | .flowSequenceEnd => true
  | _ => false

/-- Tokens that show that a place in a bracketed mapping has no
content. -/
def endsFlowPlace : Token → Bool
  | .flowEntry | .flowMappingEnd => true
  | _ => false

mutual

/-- A node. Block collections are allowed in `block` places, and a list
that is not indented in `loose` ones. -/
def node (handles : Handles) (fuel : Nat) (block loose : Bool)
    (ts : List Token) : Except Fault (Tree String × List Token) :=
  match fuel with
  | 0 => .error (.badStructure "node content")
  | fuel + 1 =>
    match ts with
    | .alias name :: rest => .ok (.alias name, rest)
    | _ => do
      let (anchor, tag, ts) ← properties handles ts
      match ts with
      | .blockEntry :: _ =>
        if loose then
          let (items, rest) ← looseItems handles fuel ts
          return (.sequence anchor tag items, rest)
        else bare anchor tag ts
      | .scalar style text :: rest =>
        return (.scalar anchor tag style text, rest)
      | .flowSequenceStart :: rest =>
        let (items, rest) ← flowItems handles fuel true rest
        return (.sequence anchor tag items, rest)
      | .flowMappingStart :: rest =>
        let (entries, rest) ← flowEntries handles fuel true rest
        return (.mapping anchor tag entries, rest)
      | .blockSequenceStart :: rest =>
        if block then
          let (items, rest) ← blockItems handles fuel rest
          return (.sequence anchor tag items, rest)
        else bare anchor tag ts
      | .blockMappingStart :: rest =>
        if block then
          let (entries, rest) ← blockEntries handles fuel rest
          return (.mapping anchor tag entries, rest)
        else bare anchor tag ts
      | _ => bare anchor tag ts
where
  /-- A node of which only the anchor or the tag is there. -/
  bare (anchor : Option String) (tag : Option Tag) (ts : List Token) :
      Except Fault (Tree String × List Token) :=
    if anchor.isSome || tag.isSome then
      .ok (.scalar anchor tag .plain "", ts)
    else .error (.badStructure "node content")

/-- The entries of a block sequence and its end. -/
def blockItems (handles : Handles) (fuel : Nat) (ts : List Token) :
    Except Fault (List (Tree String) × List Token) :=
  match fuel, ts with
  | fuel + 1, .blockEntry :: ts => do
    let (item, ts) ← place handles fuel endsEntry true false ts
    let (items, ts) ← blockItems handles fuel ts
    return (item :: items, ts)
  | _ + 1, .blockEnd :: ts => .ok ([], ts)
  | _, _ => .error (.badStructure "'-' indicator")

/-- The entries of a list that is not indented. -/
def looseItems (handles : Handles) (fuel : Nat) (ts : List Token) :
    Except Fault (List (Tree String) × List Token) :=
  match fuel, ts with
  | fuel + 1, .blockEntry :: ts => do
    let ends (t : Token) := endsEntry t || endsBlockPlace t
    let (item, ts) ← place handles fuel ends true false ts
    let (items, ts) ← looseItems handles fuel ts
    return (item :: items, ts)
  | _, _ => .ok ([], ts)

/-- The entries of a block mapping and its end. -/
def blockEntries (handles : Handles) (fuel : Nat) (ts : List Token) :
    Except Fault (List (Tree String × Tree String) × List Token) :=
  match fuel, ts with
  | fuel + 1, .key :: ts => do
    let (key, ts) ← place handles fuel endsBlockPlace true true ts
    let (value, ts) ← match ts with
      | .value :: ts => place handles fuel endsBlockPlace true true ts
      | _ => pure (missing, ts)
    let (entries, ts) ← blockEntries handles fuel ts
    return ((key, value) :: entries, ts)
  | _ + 1, .blockEnd :: ts => .ok ([], ts)
  | _, _ => .error (.badStructure "key")

/-- The items of a bracketed sequence and its end; between items stand
commas, and one may follow the last. -/
def flowItems (handles : Handles) (fuel : Nat) (first : Bool)
    (ts : List Token) : Except Fault (List (Tree String) × List Token) :=
  match fuel, ts with
  | _ + 1, .flowSequenceEnd :: ts => .ok ([], ts)
  | fuel + 1, ts => do
    let ts ← if first then pure ts else match ts with
      | .flowEntry :: ts => pure ts
      | _ => throw (.badStructure "',' or ']'")
    match ts with
    | .flowSequenceEnd :: ts => return ([], ts)
    | .key :: ts =>
      let (pair, ts) ← flowPair handles fuel ts
      let (items, ts) ← flowItems handles fuel false ts
      return (pair :: items, ts)
    | _ =>
      let (item, ts) ← node handles fuel false false ts
      let (items, ts) ← flowItems handles fuel false ts
      return (item :: items, ts)
  | _, _ => .error (.badStructure "',' or ']'")

/-- A key and its value as an item of a bracketed sequence. A missing
key takes the token it is missing in front of. -/
def flowPair (handles : Handles) (fuel : Nat) (ts : List Token) :
    Except Fault (Tree String × List Token) :=
  match fuel with
  | 0 => .error (.badStructure "',' or ']'")
  | fuel + 1 => do
    let (key, ts) ← match ts with
      | .value :: ts | .flowEntry :: ts | .flowSequenceEnd :: ts =>
        pure (missing, ts)
      | _ => node handles fuel false false ts
    let (value, ts) ← match ts with
      | .value :: ts => place handles fuel endsFlowItem false false ts
      | _ => pure (missing, ts)
    return (.mapping none none [(key, value)], ts)

/-- The entries of a bracketed mapping and its end. -/
def flowEntries (handles : Handles) (fuel : Nat) (first : Bool)
    (ts : List Token) :
    Except Fault (List (Tree String × Tree String) × List Token) :=
  match fuel, ts with
  | _ + 1, .flowMappingEnd :: ts => .ok ([], ts)
  | fuel + 1, ts => do
    let ts ← if first then pure ts else match ts with
      | .flowEntry :: ts => pure ts
      | _ => throw (.badStructure "',' or '\x7d'")
    match ts with
    | .flowMappingEnd :: ts => return ([], ts)
    | .key :: ts =>
      let ends (t : Token) := endsFlowPlace t || t == .value
      let (key, ts) ← place handles fuel ends false false ts
      let (value, ts) ← match ts with
        | .value :: ts => place handles fuel endsFlowPlace false false ts
        | _ => pure (missing, ts)
      let (entries, ts) ← flowEntries handles fuel false ts
      return ((key, value) :: entries, ts)
    | _ =>
      let (key, ts) ← node handles fuel false false ts
      let (entries, ts) ← flowEntries handles fuel false ts
      return ((key, missing) :: entries, ts)
  | _, _ => .error (.badStructure "',' or '\x7d'")

/-- A place that may be empty: what the next token shows. -/
def place (handles : Handles) (fuel : Nat) (ends : Token → Bool)
    (block loose : Bool) (ts : List Token) :
    Except Fault (Tree String × List Token) :=
  match fuel with
  | 0 => .error (.badStructure "node content")
  | fuel + 1 =>
    if (ts.head?.map ends).getD true then .ok (missing, ts)
    else node handles fuel block loose ts

end

/-- The directives in front of a document. -/
def directives (handles : Handles) (version : Bool) :
    List Token → Except Fault (Handles × List Token)
  | .version major minor :: ts =>
    if version ∨ major ≠ 1 ∨ (minor ≠ 1 ∧ minor ≠ 2) then
      .error .badDirective
    else directives handles true ts
  | .tagDirective handle lead :: ts =>
    if (handles.lookup handle).isSome then .error .badDirective
    else directives (handles ++ [(handle, lead)]) version ts
  | ts => .ok (handles, ts)

/-- The root of a document and what follows it. -/
def document (fuel : Nat) (ts : List Token) :
    Except Fault (Tree String × List Token) :=
  match ts with
  | .streamEnd :: _ => .ok (missing, ts)
  | .version .. :: _ | .tagDirective .. :: _ | .documentStart :: _ => do
    let (handles, ts) ← directives [] false ts
    match ts with
    | .documentStart :: ts =>
      match ts with
      | .version .. :: _ | .tagDirective .. :: _ | .documentStart :: _
      | .documentEnd :: _ | .streamEnd :: _ => return (missing, ts)
      | _ => node (handles ++ defaultHandles) fuel true false ts
    | _ => throw (.badStructure "<document start>")
  | _ => node defaultHandles fuel true false ts

/-- Whether nothing but ends of a document follows. -/
def isFinished : List Token → Bool
  | .documentEnd :: ts => isFinished ts
  | [.streamEnd] => true
  | _ => false

/-- The one document of a text. -/
def parse (text : String) : Except Fault (Tree String) := do
  let ts ← Token.scan text
  let (root, rest) ← document (4 * ts.length + 4) ts
  if isFinished rest then return root else throw .severalDocuments

end Tree

end GamePack.Yaml
