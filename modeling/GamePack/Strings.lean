import GamePack.Block

/-!
Localized strings: named texts, each in some languages, each with its
plural forms. Names and languages are kept in order, so the payload of
the same strings is always the same. In the payload every string and
every language entry starts with its own length, so a reader can step
over what it does not know.
-/
namespace GamePack

/-- Plural forms by language. -/
abbrev Localizations := Dictionary (List String)

/-- Localizations by string name. -/
structure Strings where
  entries : Dictionary Localizations := []
  deriving DecidableEq, Repr, Inhabited

namespace Strings

/-- The language every string must have. -/
def defaultLanguage : String := "en_GB"

/-- The version of blocks of localized strings. -/
def blockVersion : Nat := 3

/-- Names and languages have fewer bytes than this. -/
def maxName : Nat := 255

/-- Whether a text holds the character that ends stored texts. -/
def hasNul (s : String) : Bool := s.toList.contains '\x00'

/-- The bytes of a text. -/
def bytesOf (s : String) : Bytes := s.toUTF8.toList

/-- Refuses a name or language that cannot be stored. -/
def checkName (what name : String) : Except ValueError Unit :=
  if name.isEmpty || maxName ≤ name.utf8ByteSize || hasNul name then
    .error (.text (.badName what name))
  else .ok ()

/-- Add the plural forms of a string in a language, in place of earlier
ones. -/
def add (s : Strings) (name language : String) (forms : List String) :
    Except ValueError Strings := do
  checkName "string name" name
  checkName "language" language
  if forms.isEmpty || 255 < forms.length then
    throw (.text (.formCount name language forms.length))
  match forms.find? hasNul with
  | some form => throw (.text (.nulInForm form))
  | none =>
    let languages := (s.entries.find? name).getD []
    return ⟨s.entries.insert name (languages.insert language forms)⟩

/-- Refuses strings of which there are none, or one that lacks the
default language. -/
def check (s : Strings) : Except ValueError Unit :=
  if s.entries.isEmpty then .error (.text .noStrings)
  else
    match List.find? (fun (entry : String × Localizations) =>
        !entry.2.contains defaultLanguage) s.entries with
    | some (name, _) =>
      .error (.text (.missingLanguage name defaultLanguage))
    | none => .ok ()

-- =========================================================== payload

/-- A name behind its length, with the NUL that ends it. -/
def encodeName (name : String) : Bytes :=
  UInt8.ofNat (name.utf8ByteSize + 1) :: (bytesOf name ++ [0])

/-- Plural forms behind their count, each ended by NUL. -/
def encodeForms (forms : List String) : Bytes :=
  UInt8.ofNat forms.length :: forms.flatMap fun form => bytesOf form ++ [0]

/-- Bytes behind the word of their whole length, for a string of a
name. -/
def encodeNode (name : String) (body : Bytes) : Except ValueError Bytes :=
  let size := 2 + body.length
  if 0x10000 ≤ size then .error (.text (.tooLong name size))
  else .ok (leBytes 2 size ++ body)

/-- The size of a language entry. -/
def entrySize (language : String) (forms : List String) : Nat :=
  2 + (encodeName language).length + (encodeForms forms).length

/-- The size of a string with all its languages. -/
def nodeSize (name : String) (languages : Localizations) : Nat :=
  2 + (encodeName name).length +
    total (languages.map fun entry => entrySize entry.1 entry.2)

/-- A string with all its languages. The size of the whole is judged
before that of any entry. -/
def encodeString (name : String) (languages : Localizations) :
    Except ValueError Bytes := do
  let size := nodeSize name languages
  if 0x10000 ≤ size then throw (.text (.tooLong name size))
  let entries ← languages.mapM fun (language, forms) =>
    encodeNode name (encodeName language ++ encodeForms forms)
  return leBytes 2 size ++ encodeName name ++ entries.flatten

/-- The payload of localized strings. -/
def payload (s : Strings) : Except ValueError Bytes := do
  s.check
  let nodes ← s.entries.mapM fun (name, languages) =>
    encodeString name languages
  return nodes.flatten

/-- The block of localized strings. -/
def toBlock (s : Strings) : Except ValueError Block := do
  return { magic := .strings, version := blockVersion
           fields := [("strings", .raw)]
           values := [("strings", .raw (← s.payload))] }

end Strings

end GamePack
