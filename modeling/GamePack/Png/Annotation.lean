import GamePack.Png.Chunk

/-!
Annotations: chunks that say more about a picture and leave its pixels
alone, such as texts and the size of its pixels. Nothing of them is
kept, but each must be what its kind asks for, even where its checksum
is wrong.
-/
namespace GamePack.Png.Annotation

/-- What a kind of annotation asks for. -/
structure Rule where
  kind : String
  /-- It must not occur twice. -/
  once : Bool
  /-- Whether data is valid. -/
  accepts : Bytes → Bool

/-- The longest keyword of a text. -/
def maxKeyword : Nat := 79

/-- The bytes up to the first zero and those behind it, if there is a
zero. -/
def splitZero (data : Bytes) : Option (Bytes × Bytes) :=
  let (field, rest) := data.span (· != 0)
  rest.tail?.map fun rest => (field, rest)

/-- What follows the keyword at the front of a text, if the keyword is
valid. -/
def afterKeyword (data : Bytes) : Option Bytes := do
  let (keyword, rest) ← splitZero data
  if keyword.isEmpty || maxKeyword < keyword.length then none else rest

/-- Whether bytes are a text. -/
def isText (bytes : Bytes) : Bool :=
  (String.fromUTF8? ⟨bytes.toArray⟩).isSome

/-- The size of a pixel: two numbers and a unit. -/
def acceptsPixelSize (data : Bytes) : Bool :=
  data[8]?.any (· ≤ 1)

/-- A compressed text: a keyword, and the one method there is. -/
def acceptsCompressedText (data : Bytes) : Bool :=
  ((afterKeyword data).bind List.head?).any (· == 0)

/-- A text in any script: a keyword, whether and how it is compressed,
its language, the keyword in that language, and the text itself. -/
def acceptsText (data : Bytes) : Bool :=
  match afterKeyword data with
  | some (flag :: method :: rest) =>
    match splitZero rest with
    | none => false
    | some (language, rest) =>
      match splitZero rest with
      | none => false
      | some (keyword, text) =>
        flag ≤ 1 && (flag == 0 || method == 0)
          && language.all (· < 0x80) && isText keyword
          && (flag == 1 || isText text)
  | _ => false

/-- The kinds of annotations that ask for something. -/
def rules : List Rule := [
  ⟨"gAMA", true, fun data => 4 ≤ data.length⟩,
  ⟨"cHRM", true, fun data => 32 ≤ data.length⟩,
  ⟨"sRGB", true, fun data => data.head?.any (· ≤ 3)⟩,
  ⟨"pHYs", true, acceptsPixelSize⟩,
  ⟨"acTL", false, fun data => 8 ≤ data.length⟩,
  ⟨"tEXt", false, fun data => (afterKeyword data).isSome⟩,
  ⟨"zTXt", false, acceptsCompressedText⟩,
  ⟨"iTXt", false, acceptsText⟩]

/-- The rule for a kind of chunk, if there is one. -/
def rule? (kind : Bytes) : Option Rule :=
  rules.find? fun rule => kindOf rule.kind == kind

end GamePack.Png.Annotation
