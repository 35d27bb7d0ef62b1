import GamePack.Yaml.Cursor

/-!
From the characters of a YAML text to its tokens. Indentation opens and
closes block collections outside of brackets. A key is only known to be
one when its colon is met, so places where a key may start are
remembered, and the tokens of the key and of the mapping it opens are
put in front of it afterwards.
-/
namespace GamePack.Yaml

/-- A place where a key without a mark of its own may have started. -/
structure KeyStart where
  /-- The number of the token that starts there. -/
  number : Nat
  /-- Nothing but a key can start there. -/
  required : Bool
  index : Nat
  line : Nat
  column : Nat
  deriving Repr

/-- The state of the division into tokens. -/
structure Lexer where
  cursor : Cursor
  tokens : Array Token := #[]
  /-- The columns of the open block collections, innermost first. -/
  indents : List Nat := []
  /-- The possible key start of each bracket level, innermost first, and
  of the level without brackets. -/
  outer : Option KeyStart := none
  flow : List (Option KeyStart) := []
  /-- Whether a key without a mark may start here. -/
  keyAllowed : Bool := true
  deriving Repr

namespace Lexer

/-- The longest key without a mark, in bytes. -/
def maxKey : Nat := 1024

/-- Whether the place is inside brackets. -/
def inFlow (l : Lexer) : Bool := !l.flow.isEmpty

/-- The column of the innermost block collection, if there is one. -/
def indent? (l : Lexer) : Option Nat := l.indents.head?

/-- Add a token. -/
def push (l : Lexer) (t : Token) : Lexer :=
  { l with tokens := l.tokens.push t }

/-- Add a token of some characters, after which a key may start or
not. -/
def mark (l : Lexer) (t : Token) (length : Nat) (keyAllowed : Bool) :
    Lexer :=
  { l.push t with cursor := l.cursor.skip length, keyAllowed }

-- ======================================================= indentation

/-- Close the block collections that are indented deeper than a column;
no column closes all. -/
def closeBlocks (column : Option Nat) : List Nat → Lexer → Lexer
  | [], l => { l with indents := [] }
  | i :: rest, l =>
    if column.all (· < i) then
      closeBlocks column rest (l.push .blockEnd)
    else { l with indents := i :: rest }

/-- Close block collections outside of brackets. -/
def unindent (l : Lexer) (column : Option Nat) : Lexer :=
  if l.inFlow then l else closeBlocks column l.indents l

/-- Open a block collection at a column that is deeper than the
innermost one. Its token goes in front of the token of a number. -/
def openBlock (l : Lexer) (column number : Nat) (t : Token) : Lexer :=
  if l.inFlow || !l.indent?.all (· < column) then l
  else { l with
    indents := column :: l.indents
    tokens := l.tokens.insertIdxIfInBounds number t }

-- ============================================================== keys

/-- The place where a key may have started on this level. -/
def keyStart? (l : Lexer) : Option KeyStart :=
  match l.flow with
  | [] => l.outer
  | start :: _ => start

/-- Replace the key start of this level. -/
def setKeyStart (l : Lexer) (start : Option KeyStart) : Lexer :=
  match l.flow with
  | [] => { l with outer := start }
  | _ :: rest => { l with flow := start :: rest }

/-- Give up the key start of this level, which must not be required. -/
def dropKeyStart (l : Lexer) : Except Fault Lexer :=
  match l.keyStart? with
  | some ⟨_, true, _, _, _⟩ => .error .missingColon
  | _ => .ok (l.setKeyStart none)

/-- Remember that a key may start here. -/
def saveKeyStart (l : Lexer) : Except Fault Lexer :=
  if l.keyAllowed then do
    let c := l.cursor
    let required := !l.inFlow && l.indent? == some c.column
    return (← l.dropKeyStart).setKeyStart
      (some ⟨l.tokens.size, required, c.index, c.line, c.column⟩)
  else .ok l

/-- The key start that a colon here belongs to: on the same line and not
too far back. -/
def usableKeyStart (l : Lexer) : Except Fault (Option KeyStart) :=
  match l.keyStart? with
  | none => .ok none
  | some start =>
    if start.line < l.cursor.line ∨ start.index + maxKey < l.cursor.index then
      if start.required then .error .missingColon else .ok none
    else .ok (some start)

-- ============================================================ tokens

/-- Blanks, comments and line breaks in front of a token. After a line
break a key may start, outside of brackets. A byte order mark may start
a line. -/
def skipToToken (fuel : Nat) (l : Lexer) : Lexer :=
  match fuel with
  | 0 => l
  | fuel + 1 =>
    match l.cursor.rest with
    | [] => l
    | c :: _ =>
      if c = ' ' ∨ (c = '\t' ∧ (l.inFlow || !l.keyAllowed)) ∨
          (isOrderMark c ∧ l.cursor.column = 0) then
        skipToToken fuel { l with cursor := l.cursor.skip 1 }
      else if c = '#' then
        skipToToken fuel { l with cursor := l.cursor.skipLine }
      else if isBreak c then
        skipToToken fuel { l with
          cursor := l.cursor.skipBreak.1
          keyAllowed := l.keyAllowed || !l.inFlow }
      else l

/-- The end of the text. -/
def readEnd (l : Lexer) : Except Fault Lexer := do
  let l ← (l.unindent none).dropKeyStart
  return l.push .streamEnd

/-- A directive. -/
def readDirective (l : Lexer) : Except Fault Lexer := do
  let l ← (l.unindent none).dropKeyStart
  let (cursor, t) ← l.cursor.readDirective
  return { l.push t with cursor, keyAllowed := false }

/-- A mark between documents. -/
def readDocumentMark (l : Lexer) : Except Fault Lexer := do
  let t : Token :=
    if l.cursor.rest.head? == some '-' then .documentStart else .documentEnd
  let l ← (l.unindent none).dropKeyStart
  return l.mark t 3 false

/-- An opening bracket. -/
def readOpen (l : Lexer) (t : Token) : Except Fault Lexer := do
  let l ← l.saveKeyStart
  return { l with flow := none :: l.flow }.mark t 1 true

/-- A closing bracket. -/
def readClose (l : Lexer) (t : Token) : Except Fault Lexer := do
  let l ← l.dropKeyStart
  return { l with flow := l.flow.drop 1 }.mark t 1 false

/-- A comma between brackets. -/
def readComma (l : Lexer) : Except Fault Lexer := do
  return (← l.dropKeyStart).mark .flowEntry 1 true

/-- The mark of a list entry. -/
def readEntry (l : Lexer) : Except Fault Lexer := do
  if !l.inFlow && !l.keyAllowed then throw .misplacedEntry
  let l := l.openBlock l.cursor.column l.tokens.size .blockSequenceStart
  return (← l.dropKeyStart).mark .blockEntry 1 true

/-- The mark of a key. -/
def readKey (l : Lexer) : Except Fault Lexer := do
  if !l.inFlow && !l.keyAllowed then throw .misplacedKey
  let l := l.openBlock l.cursor.column l.tokens.size .blockMappingStart
  return (← l.dropKeyStart).mark .key 1 (!l.inFlow)

/-- The mark of a value. -/
def readValue (l : Lexer) : Except Fault Lexer := do
  match ← l.usableKeyStart with
  | some start =>
    let l := { l with
      tokens := l.tokens.insertIdxIfInBounds start.number .key }
    let l := l.openBlock start.column start.number .blockMappingStart
    return (l.setKeyStart none).mark .value 1 false
  | none =>
    if !l.inFlow && !l.keyAllowed then throw .misplacedValue
    let l := l.openBlock l.cursor.column l.tokens.size .blockMappingStart
    return (l.setKeyStart none).mark .value 1 (!l.inFlow)

/-- An anchor or an alias. -/
def readName (l : Lexer) (t : String → Token) : Except Fault Lexer := do
  let l ← l.saveKeyStart
  let (cursor, name) ← l.cursor.readName
  return { l.push (t name) with cursor, keyAllowed := false }

/-- A tag. -/
def readTag (l : Lexer) : Except Fault Lexer := do
  let l ← l.saveKeyStart
  let (cursor, handle, suffix) ← l.cursor.readTag l.inFlow
  return { l.push (.tag handle suffix) with cursor, keyAllowed := false }

/-- A block scalar. -/
def readBlock (l : Lexer) (folded : Bool) : Except Fault Lexer := do
  let l ← l.dropKeyStart
  let (cursor, text) ← l.cursor.readBlock folded l.indent?
  let style : Style := if folded then .folded else .literal
  return { l.push (.scalar style text) with cursor, keyAllowed := true }

/-- A quoted scalar. -/
def readQuoted (l : Lexer) (single : Bool) : Except Fault Lexer := do
  let l ← l.saveKeyStart
  let (cursor, text) ← l.cursor.readQuoted single
  return { l.push (.scalar .quoted text) with cursor, keyAllowed := false }

/-- A plain scalar. When a line ended behind it, a key may follow. -/
def readPlain (l : Lexer) : Except Fault Lexer := do
  let l ← l.saveKeyStart
  let indent := (l.indent?.map (· + 1)).getD 0
  let (cursor, text, lines) ← l.cursor.readPlain l.inFlow indent
  return { l.push (.scalar .plain text) with cursor, keyAllowed := lines }

/-- Whether a plain scalar may start with a character, given what
follows it. -/
def startsPlain (l : Lexer) (c : Char) (rest : List Char) : Bool :=
  let blankNext := (rest.head?.map isBlank).getD false
  !(isBlank c || indicators.contains c) || (c == '-' && !blankNext)
    || (!l.inFlow && (c == '?' || c == ':') && !atGap rest)

/-- The next token, for a place that is not at the end. -/
def readToken (l : Lexer) (c : Char) (rest : List Char) :
    Except Fault Lexer :=
  let flow := l.inFlow
  if l.cursor.column = 0 ∧ c = '%' then l.readDirective
  else if l.cursor.atDocumentMark then l.readDocumentMark
  else if c = '[' then l.readOpen .flowSequenceStart
  else if c = '\x7b' then l.readOpen .flowMappingStart
  else if c = ']' then l.readClose .flowSequenceEnd
  else if c = '\x7d' then l.readClose .flowMappingEnd
  else if c = ',' then l.readComma
  else if c = '-' ∧ atGap rest then l.readEntry
  else if c = '?' ∧ (flow || atGap rest) then l.readKey
  else if c = ':' ∧ (flow || atGap rest) then l.readValue
  else if c = '*' then l.readName .alias
  else if c = '&' then l.readName .anchor
  else if c = '!' then l.readTag
  else if c = '|' ∧ !flow then l.readBlock false
  else if c = '>' ∧ !flow then l.readBlock true
  else if c = '\'' then l.readQuoted true
  else if c = '\"' then l.readQuoted false
  else if l.startsPlain c rest then l.readPlain
  else .error (.strayCharacter c)

/-- The tokens from here to the end. Every token takes a character at
least, so as much fuel as there are characters, and one more for the end,
is enough. -/
def readTokens (fuel : Nat) (l : Lexer) : Except Fault (Array Token) :=
  match fuel with
  | 0 => .error .openQuote
  | fuel + 1 =>
    let l := skipToToken l.cursor.rest.length l
    let l := l.unindent (some l.cursor.column)
    match l.cursor.rest with
    | [] => do
      return (← l.readEnd).tokens
    | c :: rest => do
      readTokens fuel (← l.readToken c rest)

end Lexer

/-- The tokens of a text. -/
def Token.scan (text : String) : Except Fault (List Token) :=
  let cs := text.toList
  match cs.find? (!isAllowed ·) with
  | some c => .error (.badCharacter c.toNat)
  | none => do
    let tokens ← Lexer.readTokens (cs.length + 1) { cursor := { rest := cs } }
    return tokens.toList

end GamePack.Yaml
