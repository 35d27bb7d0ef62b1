import GamePack.Yaml.Token

/-!
Places in a YAML text, and the scalars and names that are read from one.
Breaks between the lines of a scalar are folded: one break is a space,
and of several all but the first are kept. Block scalars keep or fold
their breaks as their header says, and are cut at their indentation.
-/
namespace GamePack.Yaml

/-- How many bytes characters take. -/
def byteCount (cs : List Char) : Nat :=
  cs.foldl (fun n c => n + c.utf8Size) 0

/-- A place in a text. -/
structure Cursor where
  rest : List Char
  /-- The bytes before the place. -/
  index : Nat := 0
  line : Nat := 0
  column : Nat := 0
  deriving Repr

namespace Cursor

/-- Go on by characters of one line. -/
def skip (c : Cursor) (count : Nat) : Cursor :=
  { c with
    rest := c.rest.drop count
    index := c.index + byteCount (c.rest.take count)
    column := c.column + count }

/-- Go on past a line break and give the character that stands for it in
a scalar; nothing happens anywhere else. -/
def skipBreak (c : Cursor) : Cursor × List Char :=
  match c.rest with
  | '\r' :: '\n' :: rest => (⟨rest, c.index + 2, c.line + 1, 0⟩, ['\n'])
  | b :: rest =>
    if isBreak b then
      let kept := b.toNat == 0x2028 || b.toNat == 0x2029
      (⟨rest, c.index + b.utf8Size, c.line + 1, 0⟩, [if kept then b else '\n'])
    else (c, [])
  | [] => (c, [])

/-- Whether a line starts here with `---` or `...` on its own. -/
def atDocumentMark (c : Cursor) : Bool :=
  c.column == 0 && (match c.rest with
    | '-' :: '-' :: '-' :: rest => atGap rest
    | '.' :: '.' :: '.' :: rest => atGap rest
    | _ => false)

/-- Go on past the characters of a class, which are given. -/
def span (c : Cursor) (p : Char → Bool) : Cursor × List Char :=
  let taken := c.rest.takeWhile p
  (c.skip taken.length, taken)

/-- Go on to the end of the line. -/
def skipLine (c : Cursor) : Cursor := (c.span fun x => !isBreak x).1

-- ============================================================== gaps

/-- Blanks and line breaks between the words of a scalar. -/
structure Gap where
  /-- The blanks, when there is no line break. -/
  blanks : List Char := []
  /-- Whether a line ended. -/
  lines : Bool := false
  first : List Char := []
  more : List Char := []
  deriving Repr

/-- What a gap stands for in the scalar. -/
def Gap.fold (g : Gap) : List Char :=
  if g.lines then
    if g.first = ['\n'] then
      if g.more.isEmpty then [' '] else g.more
    else g.first ++ g.more
  else g.blanks

/-- The gap from here on; in a plain scalar tabs must not stand before a
column on a new line. -/
def readGap (plainColumn : Nat) (fuel : Nat) (c : Cursor) (g : Gap) :
    Except Fault (Cursor × Gap) :=
  match fuel, c.rest with
  | fuel + 1, b :: _ =>
    if isBlank b then
      if g.lines then
        if b = '\t' ∧ c.column < plainColumn then .error .tabIndentation
        else readGap plainColumn fuel (c.skip 1) g
      else readGap plainColumn fuel (c.skip 1)
        { g with blanks := g.blanks ++ [b] }
    else if isBreak b then
      let (c, kept) := c.skipBreak
      if g.lines then
        readGap plainColumn fuel c { g with more := g.more ++ kept }
      else readGap plainColumn fuel c { lines := true, first := kept }
    else .ok (c, g)
  | _, _ => .ok (c, g)

-- ===================================================== plain scalars

/-- The word of a plain scalar that starts here, last character first. -/
def plainWord (flow : Bool) (fuel : Nat) (c : Cursor)
    (word : List Char) : Except Fault (Cursor × List Char) :=
  match fuel, c.rest with
  | fuel + 1, x :: rest =>
    if isBlank x || isBreak x then .ok (c, word)
    else if flow && x == ':' && (match rest with
        | y :: _ => y == '?' || flowMarks.contains y
        | [] => false) then
      .error .strayColon
    else if (x == ':' && atGap rest) || (flow && flowMarks.contains x) then
      .ok (c, word)
    else plainWord flow fuel (c.skip 1) (x :: word)
  | _, _ => .ok (c, word)

/-- The rest of a plain scalar after a gap: where it ends, its text last
character first, and whether a line ended behind it. -/
def plainFrom (flow : Bool) (indent : Nat) (fuel : Nat) (c : Cursor)
    (text : List Char) (gap : Gap) :
    Except Fault (Cursor × List Char × Bool) :=
  match fuel with
  | 0 => .ok (c, text, gap.lines)
  | fuel + 1 =>
    if c.atDocumentMark || c.rest.head? == some '#' then
      .ok (c, text, gap.lines)
    else do
      let (next, word) ← plainWord flow c.rest.length c []
      if word.isEmpty then return (c, text, gap.lines)
      let text := word ++ (gap.fold.reverse ++ text)
      let (after, gap) ← readGap indent next.rest.length next {}
      if after.index = next.index then return (next, text, false)
      if !flow && after.column < indent then
        return (after, text, gap.lines)
      plainFrom flow indent fuel after text gap

/-- The plain scalar that starts here: where it ends, its text, and
whether a line ended behind it. Its lines must be indented by `indent`
columns outside of brackets. -/
def readPlain (c : Cursor) (flow : Bool) (indent : Nat) :
    Except Fault (Cursor × String × Bool) := do
  let (c, text, lines) ← plainFrom flow indent (c.rest.length + 1) c [] {}
  return (c, String.ofList text.reverse, lines)

-- ==================================================== quoted scalars

/-- The character that a simple escape stands for. -/
def escaped? : Char → Option Char
  | '0' => some '\x00'
  | 'a' => some '\x07'
  | 'b' => some '\x08'
  | 't' => some '\t'
  | '\t' => some '\t'
  | 'n' => some '\n'
  | 'v' => some '\x0b'
  | 'f' => some '\x0c'
  | 'r' => some '\r'
  | 'e' => some '\x1b'
  | ' ' => some ' '
  | '\"' => some '\"'
  | '/' => some '/'
  | '\\' => some '\\'
  | 'N' => some (Char.ofNat 0x85)
  | '_' => some (Char.ofNat 0xa0)
  | 'L' => some (Char.ofNat 0x2028)
  | 'P' => some (Char.ofNat 0x2029)
  | _ => none

/-- How many hexadecimal digits follow an escape, if any do. -/
def escapeWidth? : Char → Option Nat
  | 'x' => some 2
  | 'u' => some 4
  | 'U' => some 8
  | _ => none

/-- The value of a hexadecimal digit. -/
def hexDigit? (c : Char) : Option Nat :=
  if '0' ≤ c ∧ c ≤ '9' then some (c.toNat - 0x30)
  else if 'a' ≤ c ∧ c ≤ 'f' then some (c.toNat - 0x61 + 10)
  else if 'A' ≤ c ∧ c ≤ 'F' then some (c.toNat - 0x41 + 10)
  else none

/-- The number that hexadecimal digits spell. -/
def hexValue? (cs : List Char) : Option Nat :=
  cs.foldlM (fun n c => (hexDigit? c).map (16 * n + ·)) 0

/-- The character of a number, when it is one. -/
def charOf? (n : Nat) : Option Char :=
  if n < 0xd800 ∨ (0xdfff < n ∧ n ≤ 0x10ffff) then some (Char.ofNat n)
  else none

/-- The escape after a backslash: what it stands for, and how many
characters it takes. -/
def readEscape (cs : List Char) : Except Fault (Char × Nat) :=
  match cs with
  | [] => .error .badEscape
  | kind :: rest =>
    match escaped? kind, escapeWidth? kind with
    | some c, _ => .ok (c, 1)
    | none, some width =>
      let digits := rest.take width
      if digits.length < width then .error .badEscape
      else match (hexValue? digits).bind charOf? with
        | some c => .ok (c, 1 + width)
        | none => .error .badEscape
    | none, none => .error .badEscape

/-- The characters of a quoted scalar up to a gap or the closing quote,
last character first; whether an escaped line break ended them. -/
def quotedWord (single : Bool) (fuel : Nat) (c : Cursor)
    (word : List Char) : Except Fault (Cursor × List Char × Bool) :=
  match fuel, c.rest with
  | fuel + 1, x :: rest =>
    if isBlank x || isBreak x then .ok (c, word, false)
    else if single then
      if x = '\'' then
        if rest.head? == some '\'' then
          quotedWord single fuel (c.skip 2) ('\'' :: word)
        else .ok (c, word, false)
      else quotedWord single fuel (c.skip 1) (x :: word)
    else if x = '\"' then .ok (c, word, false)
    else if x = '\\' then
      if atLineEnd rest && !rest.isEmpty then
        .ok ((c.skip 1).skipBreak.1, word, true)
      else do
        let (e, width) ← readEscape rest
        quotedWord single fuel (c.skip (1 + width)) (e :: word)
    else quotedWord single fuel (c.skip 1) (x :: word)
  | _, _ => .ok (c, word, false)

/-- The rest of a quoted scalar up to its closing quote, its text last
character first. -/
def quotedFrom (single : Bool) (fuel : Nat) (c : Cursor)
    (text : List Char) : Except Fault (Cursor × List Char) :=
  match fuel with
  | 0 => .error .openQuote
  | fuel + 1 => do
    if c.atDocumentMark then throw .openQuote
    if c.rest.isEmpty then throw .openQuote
    let (c, word, broken) ← quotedWord single c.rest.length c []
    let text := word ++ text
    if !broken && c.rest.head? == some (if single then '\'' else '\"') then
      return (c.skip 1, text)
    let (c, gap) ← readGap 0 c.rest.length c { lines := broken }
    quotedFrom single fuel c (gap.fold.reverse ++ text)

/-- The quoted scalar that starts here. -/
def readQuoted (c : Cursor) (single : Bool) :
    Except Fault (Cursor × String) := do
  let (c, text) ← quotedFrom single (c.rest.length + 1) (c.skip 1) []
  return (c, String.ofList text.reverse)

-- ===================================================== block scalars

/-- What a block scalar keeps of the breaks behind its text. -/
inductive Chomp where
  | strip
  | clip
  | keep
  deriving DecidableEq, Repr

/-- The sign of a block header. -/
def chomp? : Char → Option Chomp
  | '-' => some .strip
  | '+' => some .keep
  | _ => none

/-- The digit of a block header; zero is refused. -/
def indentDigit? (c : Char) : Except Fault (Option Nat) :=
  if c = '0' then .error .badBlockHeader
  else if '1' ≤ c ∧ c ≤ '9' then .ok (some (c.toNat - 0x30))
  else .ok none

/-- The digit at the front of a text, if there is one. -/
def headDigit? : List Char → Except Fault (Option Nat)
  | [] => .ok none
  | c :: _ => indentDigit? c

/-- The header of a block scalar: its sign and its digit, in either
order. -/
def readHeader (c : Cursor) :
    Except Fault (Cursor × Chomp × Option Nat) := do
  match c.rest.head?.bind chomp? with
  | some chomp =>
    let c := c.skip 1
    match ← headDigit? c.rest with
    | some n => return (c.skip 1, chomp, some n)
    | none => return (c, chomp, none)
  | none =>
    match ← headDigit? c.rest with
    | some n =>
      let c := c.skip 1
      match c.rest.head?.bind chomp? with
      | some chomp => return (c.skip 1, chomp, some n)
      | none => return (c, .clip, some n)
    | none => return (c, .clip, none)

/-- Indentation and empty lines: the breaks, and the widest indentation
seen. Without a known indentation all spaces count. -/
def readIndent (indent : Option Nat) (fuel : Nat) (c : Cursor)
    (widest : Nat) (breaks : List Char) :
    Except Fault (Cursor × Nat × List Char) :=
  match fuel with
  | 0 => .ok (c, widest, breaks)
  | fuel + 1 =>
    let spaces := (c.rest.takeWhile (· == ' ')).length
    let c := match indent with
      | none => c.skip spaces
      | some n => c.skip (min spaces (n - c.column))
    let widest := max widest c.column
    let inside := match indent with
      | none => true
      | some n => c.column < n
    if inside && c.rest.head? == some '\t' then .error .tabIndentation
    else
      let (next, kept) := c.skipBreak
      if kept.isEmpty then .ok (c, widest, breaks)
      else readIndent indent fuel next widest (breaks ++ kept)

/-- The lines of a block scalar: the text so far, last character first,
the last break, and the breaks behind it. -/
def blockLines (folded : Bool) (indent : Nat) (fuel : Nat) (c : Cursor)
    (text first more : List Char) (afterBlank : Bool) :
    Except Fault (Cursor × List Char × List Char × List Char) :=
  match fuel with
  | 0 => .ok (c, text, first, more)
  | fuel + 1 =>
    if c.column ≠ indent ∨ c.rest.isEmpty then .ok (c, text, first, more)
    else do
      let startsBlank := (c.rest.head?.map isBlank).getD false
      let joined :=
        if folded && first == ['\n'] && !afterBlank && !startsBlank then
          if more.isEmpty then [' '] else more
        else first ++ more
      let (c, line) := c.span fun x => !isBreak x
      let text := line.reverse ++ (joined.reverse ++ text)
      let (c, first) := c.skipBreak
      let (c, _, more) ←
        readIndent (some indent) (c.rest.length + 1) c 0 []
      blockLines folded indent fuel c text first more startsBlank

/-- The block scalar that starts here, in a block indented by `parent`
columns, if it is in one. -/
def readBlock (c : Cursor) (folded : Bool) (parent : Option Nat) :
    Except Fault (Cursor × String) := do
  let (c, chomp, digit) ← readHeader (c.skip 1)
  let (c, _) := c.span isBlank
  let c := if c.rest.head? == some '#' then c.skipLine else c
  if !atLineEnd c.rest then throw .badBlockHeader
  let (c, _) := c.skipBreak
  let known := digit.map fun n => (parent.getD 0) + n
  let (c, widest, more) ← readIndent known (c.rest.length + 1) c 0 []
  let least := max 1 ((parent.map (· + 1)).getD 0)
  let indent := known.getD (max widest least)
  let (c, text, first, more) ←
    blockLines folded indent (c.rest.length + 1) c [] [] more false
  let tail := match chomp with
    | .strip => []
    | .clip => first
    | .keep => first ++ more
  return (c, String.ofList (text.reverse ++ tail))

-- ============================================ anchors, tags, directives

/-- The name of the anchor or alias that starts here. -/
def readName (c : Cursor) : Except Fault (Cursor × String) :=
  let (c, name) := (c.skip 1).span isNameChar
  let ends := atGap c.rest || (match c.rest with
    | x :: _ => ['?', ':', ',', ']', '\x7d', '%', '@', '\x60'].contains x
    | [] => true)
  if name.isEmpty || !ends then .error .badAnchor
  else .ok (c, String.ofList name)

/-- The byte of an escape in a tag. -/
def tagByte? : List Char → Option Nat
  | '%' :: a :: b :: _ => hexValue? [a, b]
  | _ => none

/-- How many bytes a character takes whose first byte is given. -/
def byteLength? (first : Nat) : Option Nat :=
  if first < 0x80 then some 1
  else if 0xc0 ≤ first ∧ first < 0xe0 then some 2
  else if 0xe0 ≤ first ∧ first < 0xf0 then some 3
  else if 0xf0 ≤ first ∧ first < 0xf8 then some 4
  else none

/-- The escaped bytes of one character in a tag. Those after the first
must look like the rest of a character; that the bytes are text is not
asked for. -/
def readTagEscape (cs : List Char) : Except Fault (List Nat) := do
  let some first := tagByte? cs | throw .badTag
  let some count := byteLength? first | throw .badTag
  let some rest := (List.range (count - 1)).mapM fun i =>
    (tagByte? (cs.drop (3 * (i + 1)))).filter fun b => 0x80 ≤ b ∧ b < 0xc0
    | throw .badTag
  return first :: rest

/-- The bytes of a tag from here on, the last first. -/
def tagBytes (bracketed : Bool) (fuel : Nat) (c : Cursor)
    (bytes : Bytes) : Except Fault (Cursor × Bytes) :=
  match fuel, c.rest with
  | fuel + 1, x :: _ =>
    if x = '%' then do
      let escaped ← readTagEscape c.rest
      tagBytes bracketed fuel (c.skip (3 * escaped.length))
        ((escaped.map UInt8.ofNat).reverse ++ bytes)
    else if isTagChar bracketed x then
      tagBytes bracketed fuel (c.skip 1) (UInt8.ofNat x.toNat :: bytes)
    else .ok (c, bytes)
  | _, _ => .ok (c, bytes)

/-- The bytes of a tag from here on, after a start that has been read. A
tag ends in front of its first zero byte. -/
def readTagText (c : Cursor) (bracketed : Bool) (start : List Char) :
    Except Fault (Cursor × Bytes) := do
  let (next, bytes) ← tagBytes bracketed c.rest.length c []
  if start.isEmpty && bytes.isEmpty then throw .badTag
  let start := (start.drop 1).map fun x => UInt8.ofNat x.toNat
  return (next, (start ++ bytes.reverse).takeWhile (· != 0))

/-- A handle from here on: a `!`, name characters, and another `!`. -/
def readHandle (c : Cursor) (directive : Bool) :
    Except Fault (Cursor × List Char) := do
  if c.rest.head? ≠ some '!' then throw .badTag
  let (c, name) := (c.skip 1).span isNameChar
  if c.rest.head? == some '!' then
    return (c.skip 1, '!' :: (name ++ ['!']))
  else if directive && !name.isEmpty then throw .badTag
  else return (c, '!' :: name)

/-- The tag that starts here: its handle and the rest of it. -/
def readTag (c : Cursor) (flow : Bool) :
    Except Fault (Cursor × String × Bytes) := do
  let (c, handle, suffix) ←
    if (c.rest.drop 1).head? == some '<' then do
      let (c, suffix) ← readTagText (c.skip 2) true []
      if c.rest.head? ≠ some '>' then throw .badTag
      pure (c.skip 1, "", suffix)
    else do
      let (next, handle) ← readHandle c false
      if 1 < handle.length && handle.getLast? == some '!' then do
        let (next, suffix) ← readTagText next false []
        pure (next, String.ofList handle, suffix)
      else do
        let (next, suffix) ← readTagText next false handle
        if suffix.isEmpty then pure (next, "", [0x21])
        else pure (next, "!", suffix)
  let ends := atGap c.rest || (flow && c.rest.head? == some ',')
  if ends then return (c, handle, suffix) else throw .badTag

/-- A number of at most nine digits. -/
def readNumber (c : Cursor) : Except Fault (Cursor × Nat) :=
  let (c, digits) := c.span fun x => '0' ≤ x && x ≤ '9'
  if digits.isEmpty || 9 < digits.length then .error .badDirective
  else .ok (c, digits.foldl (fun n d => 10 * n + (d.toNat - 0x30)) 0)

/-- The directive that starts here, and the end of its line. -/
def readDirective (c : Cursor) : Except Fault (Cursor × Token) := do
  let (c, name) := (c.skip 1).span isNameChar
  if name.isEmpty || !atGap c.rest then throw .badDirective
  let (c, _) := c.span isBlank
  let (c, token) ← match String.ofList name with
    | "YAML" => do
      let (c, major) ← readNumber c
      if c.rest.head? ≠ some '.' then throw .badDirective
      let (c, minor) ← readNumber (c.skip 1)
      pure (c, Token.version major minor)
    | "TAG" => do
      let (c, handle) ← readHandle c true
      if !(c.rest.head?.map isBlank).getD false then throw .badDirective
      let (c, _) := c.span isBlank
      let (c, lead) ← readTagText c true []
      if !atGap c.rest then throw .badDirective
      pure (c, Token.tagDirective (String.ofList handle) lead)
    | _ => throw .badDirective
  let (c, _) := c.span isBlank
  let c := if c.rest.head? == some '#' then c.skipLine else c
  if !atLineEnd c.rest then throw .badDirective
  return (c.skipBreak.1, token)

end Cursor

end GamePack.Yaml
