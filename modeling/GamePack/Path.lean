/-!
Paths as texts. A path keeps the text it was written with, since that is
what messages show; where paths are compared, their components count, so
doubled separators and inner `.` pieces make no difference. Joining,
taking the parent and cutting off a leading directory work on the text
and leave the inner pieces as they are.
-/
namespace GamePack

/-- A path, as written. -/
structure Path where
  text : String
  deriving DecidableEq, Repr, Inhabited

namespace Path

-- ======================================================== components

/-- What a path names on its way. -/
inductive Component where
  /-- The root directory. -/
  | root
  /-- A leading `.`. -/
  | current
  /-- The piece `..`. -/
  | parent
  /-- A named entry. -/
  | name (name : String)
  deriving DecidableEq, Repr

/-- The pieces of a text between slashes; there is always one. -/
def pieces : List Char → List (List Char)
  | [] => [[]]
  | c :: rest =>
    if c = '/' then [] :: pieces rest
    else match pieces rest with
      | [] => [[c]]
      | piece :: more => (c :: piece) :: more

/-- Whether a piece leads nowhere: it is empty or `.`. -/
def isIdle (piece : List Char) : Bool := piece.isEmpty || piece == ['.']

/-- The component a piece in the body of a path stands for, if any. -/
def componentOf (piece : List Char) : Option Component :=
  if isIdle piece then none
  else if piece = ['.', '.'] then some .parent
  else some (.name (String.ofList piece))

/-- The leading characters that are a component of their own: the root
slash, or a leading `.` that ends there or before a slash. -/
def headOf : List Char → List Char
  | '/' :: _ => ['/']
  | ['.'] => ['.']
  | '.' :: '/' :: _ => ['.']
  | _ => []

/-- The characters after `headOf`. -/
def bodyOf (cs : List Char) : List Char := cs.drop (headOf cs).length

/-- The component the head of a path stands for. -/
def headComponent (cs : List Char) : List Component :=
  match headOf cs with
  | ['/'] => [.root]
  | ['.'] => [.current]
  | _ => []

/-- The components of a path, first to last. -/
def components (p : Path) : List Component :=
  let cs := p.text.toList
  headComponent cs ++ (pieces (bodyOf cs)).filterMap componentOf

/-- Whether a path starts at the root. -/
def isAbsolute (p : Path) : Bool := p.text.toList.head? == some '/'

-- ============================================================= order

/-- Whether one component comes before another: the root first, then a
leading `.`, then `..`, then names in their own order. -/
def Component.before : Component → Component → Bool
  | .root, .root => false
  | .root, _ => true
  | _, .root => false
  | .current, .current => false
  | .current, _ => true
  | _, .current => false
  | .parent, .parent => false
  | .parent, _ => true
  | _, .parent => false
  | .name a, .name b => a < b

/-- Whether one row of components comes before another or equals it. -/
def componentsLe : List Component → List Component → Bool
  | [], _ => true
  | _ :: _, [] => false
  | a :: as, b :: bs =>
    if a = b then componentsLe as bs else a.before b

/-- The order of paths by their components. -/
def le (p q : Path) : Bool := componentsLe p.components q.components

/-- Whether two paths have the same components. -/
def same (p q : Path) : Bool := p.components == q.components

-- ======================================================= text pieces

/-- A body without the idle pieces at its start. -/
def trimStart (body : List Char) : List Char :=
  match body with
  | [] => []
  | c :: cs =>
    let piece := (c :: cs).takeWhile (· != '/')
    if isIdle piece then trimStart ((c :: cs).drop (piece.length + 1))
    else c :: cs
termination_by body.length
decreasing_by
  simp only [List.length_drop, List.length_cons]
  omega

/-- A body without the idle pieces at its end: an idle piece reads the
same in both directions. -/
def trimEnd (body : List Char) : List Char :=
  (trimStart body.reverse).reverse

/-- What stands before the last slash of a body. -/
def beforeLast (body : List Char) : List Char :=
  ((body.reverse.dropWhile (· != '/')).drop 1).reverse

-- ======================================================== operations

/-- A path below another; an absolute path stands for itself. -/
def join (base p : Path) : Path :=
  if p.isAbsolute then p
  else if base.text.isEmpty || base.text.toList.getLast? == some '/' then
    ⟨base.text ++ p.text⟩
  else ⟨base.text ++ "/" ++ p.text⟩

/-- A named entry of a directory. -/
def entry (dir : Path) (name : String) : Path := dir.join ⟨name⟩

/-- The path without its last component; the root and the empty path
have none. -/
def parent? (p : Path) : Option Path :=
  let cs := p.text.toList
  let head := headOf cs
  match trimEnd (bodyOf cs) with
  | [] => if head = ['.'] then some ⟨""⟩ else none
  | body =>
    some ⟨String.ofList (head ++ trimEnd (beforeLast body))⟩

/-- The last component, when it is a name. -/
def fileName? (p : Path) : Option String :=
  match p.components.getLast? with
  | some (.name n) => some n
  | _ => none

/-- The rest of a body after the given names, when it starts with
them. -/
def afterNames : List String → List Char → Option (List Char)
  | [], body => some (trimEnd (trimStart body))
  | name :: names, body =>
    let body := trimStart body
    let piece := body.takeWhile (· != '/')
    if String.ofList piece = name then
      afterNames names (body.drop (piece.length + 1))
    else none

/-- The names of an absolute path, where it has no `..`. -/
def names (p : Path) : List String :=
  p.components.filterMap fun
    | .name n => some n
    | _ => none

/-- The path relative to an absolute directory, when it lies in it. -/
def below? (dir p : Path) : Option Path :=
  if p.isAbsolute then
    (afterNames dir.names (bodyOf p.text.toList)).map
      fun body => ⟨String.ofList body⟩
  else none

/-- How a path is shown to someone working in `dir`: relative to it
when it lies below, `.` when it is the directory itself. -/
def shown (dir p : Path) : String :=
  match below? dir p with
  | some q => if q.text.isEmpty then "." else q.text
  | none => p.text

end Path

end GamePack
