import GamePack.Bytes
import GamePack.Path

/-!
Files and directories as a value. A disk maps the absolute names of its
entries to what they are and knows the working directory that relative
paths start from. Looking a path up walks its pieces one by one, so `..`
and missing directories behave as on a real disk without links; reading,
making directories and writing are functions from disks to disks.

The main facts: what is written is read back, and writing leaves every
other entry alone.
-/
namespace GamePack

-- ============================================================ faults

/-- Why a file operation is refused. -/
inductive IoFault where
  | notFound
  | alreadyExists
  | notDirectory
  | isDirectory
  /-- The bytes of a file are not UTF-8. -/
  | notText
  /-- A path holds a NUL character. -/
  | nulInPath
  /-- A path, or a name in it, is longer than the system allows. -/
  | nameTooLong
  deriving DecidableEq, Repr

/-- The system's words for a fault. -/
def IoFault.message : IoFault → String
  | .notFound => "No such file or directory (os error 2)"
  | .alreadyExists => "File exists (os error 17)"
  | .notDirectory => "Not a directory (os error 20)"
  | .isDirectory => "Is a directory (os error 21)"
  | .notText => "stream did not contain valid UTF-8"
  | .nulInPath => "file name contained an unexpected NUL byte"
  | .nameTooLong => "File name too long (os error 36)"

-- ============================================================= disks

/-- An entry of a disk. -/
inductive DiskNode where
  | directory
  | file (content : Bytes)
  deriving DecidableEq, Repr

/-- A disk: entries by absolute names, and the working directory. The
root directory is always there and is not listed. -/
structure Disk where
  workDir : List String
  entries : List (List String × DiskNode)

namespace Disk

/-- The working directory as a path. -/
def workPath (d : Disk) : Path :=
  ⟨"/" ++ String.intercalate "/" d.workDir⟩

/-- The entry of the given absolute names. -/
def node? (d : Disk) (names : List String) : Option DiskNode :=
  if names = [] then some .directory else d.entries.lookup names

/-- The disk with an entry put in place. -/
def put (d : Disk) (names : List String) (node : DiskNode) : Disk :=
  if (d.entries.lookup names).isSome then
    { d with entries := d.entries.map fun entry =>
        if entry.1 = names then (names, node) else entry }
  else { d with entries := d.entries ++ [(names, node)] }

-- =========================================================== look-up

/-- The most bytes of a name. -/
def maxName : Nat := 255

/-- The most bytes of a path. -/
def maxPath : Nat := 4095

/-- Walk the pieces of a path from a place. Every place that is left
must be a directory; the last one reached need not exist. -/
def walk (d : Disk) (place : List String) :
    List (List Char) → Except IoFault (List String)
  | [] => .ok place
  | piece :: rest =>
    match d.node? place with
    | none => .error .notFound
    | some (.file _) => .error .notDirectory
    | some .directory =>
      if Path.isIdle piece then walk d place rest
      else if piece = ['.', '.'] then walk d place.dropLast rest
      else
        let name := String.ofList piece
        if maxName < name.utf8ByteSize then .error .nameTooLong
        else walk d (place ++ [name]) rest

/-- A place on a disk that a path leads to. -/
structure Place where
  names : List String
  /-- The path ends in a slash, so it can only mean a directory. -/
  slash : Bool
  deriving Repr

/-- The place a path leads to. -/
def locate (d : Disk) (p : Path) : Except IoFault Place :=
  let cs := p.text.toList
  if cs.isEmpty then .error .notFound
  else if cs.contains '\x00' then .error .nulInPath
  else if maxPath < p.text.utf8ByteSize then .error .nameTooLong
  else
    let start := if p.isAbsolute then [] else d.workDir
    let pieces := (Path.pieces cs).filter (!·.isEmpty)
    match walk d start pieces with
    | .error fault => .error fault
    | .ok names => .ok ⟨names, cs.getLast? == some '/'⟩

/-- What a path leads to. -/
def find (d : Disk) (p : Path) : Except IoFault DiskNode :=
  match d.locate p with
  | .error fault => .error fault
  | .ok place =>
    match d.node? place.names with
    | none => .error .notFound
    | some .directory => .ok .directory
    | some (.file content) =>
      if place.slash then .error .notDirectory else .ok (.file content)

/-- Whether a path leads to anything. -/
def hasEntry (d : Disk) (p : Path) : Bool :=
  match d.find p with
  | .ok _ => true
  | .error _ => false

/-- Whether a path leads to a file. -/
def isFile (d : Disk) (p : Path) : Bool :=
  match d.find p with
  | .ok (.file _) => true
  | _ => false

/-- Whether a path leads to a directory. -/
def isDirectory (d : Disk) (p : Path) : Bool :=
  match d.find p with
  | .ok .directory => true
  | _ => false

-- =========================================================== reading

/-- The bytes of a file. -/
def read (d : Disk) (p : Path) : Except IoFault Bytes :=
  match d.find p with
  | .error fault => .error fault
  | .ok .directory => .error .isDirectory
  | .ok (.file content) => .ok content

/-- The text that bytes spell in UTF-8. -/
def textOf? (bytes : Bytes) : Option String :=
  String.fromUTF8? (ByteArray.mk bytes.toArray)

/-- The text of a file. -/
def readText (d : Disk) (p : Path) : Except IoFault String :=
  match d.read p with
  | .error fault => .error fault
  | .ok bytes =>
    match textOf? bytes with
    | some text => .ok text
    | none => .error .notText

/-- The names of what stands right in a directory. -/
def namesIn (d : Disk) (dir : List String) : List String :=
  d.entries.filterMap fun entry =>
    if entry.1.dropLast = dir then entry.1.getLast? else none

/-- The names that lead from a directory to each file that is found by
walking down from it, at most so many levels. Every directory is opened
by its path; one whose path is too long for that is passed over, with
all that is below it. -/
def filesBelow (d : Disk) : Nat → List String → Path → List (List String)
  | 0, _, _ => []
  | levels + 1, dir, p =>
    if maxPath < p.text.utf8ByteSize then []
    else (d.namesIn dir).flatMap fun name =>
      let rest := match d.node? (dir ++ [name]) with
        | none => []
        | some (.file _) => [[]]
        | some .directory =>
          d.filesBelow levels (dir ++ [name]) (p.entry name)
      rest.map (name :: ·)

/-- How many levels a disk has below the root. -/
def levels (d : Disk) : Nat :=
  d.entries.foldr (fun entry deepest => max entry.1.length deepest) 0

/-- The paths of the files below a directory, each below the path the
directory was given by. -/
def filesIn (d : Disk) (p : Path) : List Path :=
  match d.locate p with
  | .error _ => []
  | .ok place =>
    (d.filesBelow d.levels place.names p).map (·.foldl Path.entry p)

-- =========================================================== writing

/-- Make one directory. -/
def makeDirectory (d : Disk) (p : Path) : Except IoFault Disk :=
  match d.locate p with
  | .error fault => .error fault
  | .ok place =>
    match d.node? place.names with
    | some _ => .error .alreadyExists
    | none => .ok (d.put place.names .directory)

/-- Make a directory and the directories it lies in, where they are
missing; `fuel` bounds how many levels are tried. A fault comes with the
disk as it is by then. -/
def makeDirectoriesWithin (fuel : Nat) (d : Disk) (p : Path) :
    Except IoFault Unit × Disk :=
  if p.text.isEmpty then (.ok (), d)
  else match d.makeDirectory p with
    | .ok d => (.ok (), d)
    | .error .notFound =>
      match fuel, p.parent? with
      | fuel + 1, some above =>
        match makeDirectoriesWithin fuel d above with
        | (.error fault, d) => (.error fault, d)
        | (.ok (), d) =>
          match d.makeDirectory p with
          | .ok d => (.ok (), d)
          | .error fault =>
            (if d.isDirectory p then .ok () else .error fault, d)
      | _, _ => (.error .notFound, d)
    | .error fault => (if d.isDirectory p then .ok () else .error fault, d)

/-- Make a directory and the directories it lies in. -/
def makeDirectories (d : Disk) (p : Path) : Except IoFault Unit × Disk :=
  makeDirectoriesWithin p.text.length d p

/-- Write a file, in place of an earlier one. -/
def write (d : Disk) (p : Path) (content : Bytes) : Except IoFault Disk :=
  match d.locate p with
  | .error fault => .error fault
  | .ok place =>
    match d.node? place.names, place.slash with
    | some .directory, _ => .error .isDirectory
    | some (.file _), true => .error .notDirectory
    | none, true => .error .isDirectory
    | _, false => .ok (d.put place.names (.file content))

/-- The files of a disk that an earlier disk lacks or holds with other
bytes. -/
def filesSince (earlier d : Disk) : List (List String × Bytes) :=
  d.entries.filterMap fun
    | (names, .file content) =>
      if earlier.node? names = some (.file content) then none
      else some (names, content)
    | _ => none

/-- A disk with a file and the directories it lies in, whatever was
there. -/
def withFile (d : Disk) (names : List String) (content : Bytes) : Disk :=
  (withDirectory d names.dropLast).put names (.file content)
where
  /-- A disk with a directory and those it lies in. -/
  withDirectory (d : Disk) (names : List String) : Disk :=
    ((List.range names.length).map fun k => names.take (k + 1)).foldl
      (fun d above => d.put above .directory) d

end Disk

end GamePack
