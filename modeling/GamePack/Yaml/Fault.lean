/-!
Why a YAML text cannot be read, from its characters to the values that
are wanted from it.
-/
namespace GamePack.Yaml

/-- Why a YAML text cannot be read. -/
inductive Fault where
  | badCharacter (code : Nat)
  | strayCharacter (c : Char)
  /-- A key that must be followed by a colon and is not. -/
  | missingColon
  | misplacedEntry
  | misplacedKey
  | misplacedValue
  | strayColon
  | badDirective
  | badAnchor
  | badTag
  | openQuote
  | badEscape
  | badBlockHeader
  | tabIndentation
  /-- The tokens do not form a document. -/
  | badStructure (expected : String)
  | unknownTagHandle (handle : String)
  | unknownAlias (name : String)
  | tooDeep
  | tooManyAliases
  | severalDocuments
  | unexpected (wanted : String)
  | unknownKey (key : String)
  | missingKey (key : String)
  | repeatedKey (key : String)
  deriving DecidableEq, Repr

/-- The words for a fault. -/
def Fault.message : Fault → String
  | .badCharacter code => s!"character {code} is not allowed"
  | .strayCharacter c => s!"no token starts with '{c}'"
  | .missingColon => "could not find expected ':'"
  | .misplacedEntry => "a list entry is not allowed here"
  | .misplacedKey => "a mapping key is not allowed here"
  | .misplacedValue => "a mapping value is not allowed here"
  | .strayColon => "unexpected ':' in a plain scalar"
  | .badDirective => "malformed directive"
  | .badAnchor => "malformed anchor or alias"
  | .badTag => "malformed tag"
  | .openQuote => "a quoted scalar does not end"
  | .badEscape => "unknown escape in a quoted scalar"
  | .badBlockHeader => "malformed start of a block scalar"
  | .tabIndentation => "a tab is used for indentation"
  | .badStructure expected => s!"did not find expected {expected}"
  | .unknownTagHandle handle => s!"undefined tag handle {handle}"
  | .unknownAlias name => s!"unknown anchor {name}"
  | .tooDeep => "nested too deeply"
  | .tooManyAliases => "aliases are repeated too often"
  | .severalDocuments => "more than one document"
  | .unexpected wanted => s!"expected {wanted}"
  | .unknownKey key => s!"unknown field {key}"
  | .missingKey key => s!"missing field {key}"
  | .repeatedKey key => s!"duplicate field {key}"

end GamePack.Yaml
