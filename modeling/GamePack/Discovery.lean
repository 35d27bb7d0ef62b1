import GamePack.Manifest

/-!
Discovery: finding the data files of a project. A source is a file,
which is taken as it is, or a directory, which is searched to any depth
for data files that are not excluded. What one search finds is ordered
by path; sources keep their order, and a path that follows itself is
listed once.
-/
namespace GamePack

/-- Whether a path has the name of a data file. -/
def Path.isDataFile (p : Path) : Bool :=
  match p.fileName? with
  | some name => dataSuffix.toList.isSuffixOf name.toList
  | none => false

/-- The data files below a directory, ordered by path. -/
def Manifest.search (m : Manifest) (disk : Disk) (directory : Path) :
    List Path :=
  let found := (disk.filesIn directory).filter fun p =>
    p.isDataFile && !m.excludesPath p
  found.mergeSort Path.le

/-- The data files of a source, given by a path. -/
def Manifest.filesOf (m : Manifest) (disk : Disk) (source : Path) :
    List Path :=
  if disk.isFile source then [source]
  else if disk.isDirectory source then m.search disk source
  else []

/-- The first of every run of paths that are the same. -/
def Path.dropRepeats : List Path → List Path
  | [] => []
  | p :: rest => p :: (go p rest)
where
  /-- The paths after `p` and its repeats. -/
  go (p : Path) : List Path → List Path
    | [] => []
    | q :: rest => if p.same q then go p rest else q :: go q rest

/-- The data files of sources that start from a base directory. -/
def Manifest.filesOfSources (m : Manifest) (disk : Disk) (base : Path)
    (sources : List String) : List Path :=
  Path.dropRepeats
    (sources.flatMap fun source => m.filesOf disk (base.join ⟨source⟩))

/-- A project with its data files. -/
structure Project where
  root : Path
  manifest : Manifest
  /-- Whether the manifest was found in the project's directory. -/
  hasManifest : Bool
  dataFiles : List Path
  deriving Repr

namespace Project

/-- The schema file. -/
def schemaPath (p : Project) : Path := p.root.join p.manifest.schema

/-- The directory that output is written to. -/
def outputDir (p : Project) : Path := p.root.join p.manifest.output

/-- The project in a directory. -/
def discover (disk : Disk) (root : Path) : Except Error Project := do
  let path := root.entry Manifest.fileName
  let hasManifest := disk.hasEntry path
  let manifest ←
    if hasManifest then Manifest.load disk path else pure {}
  return {
    root, manifest, hasManifest
    dataFiles := manifest.filesOfSources disk root manifest.sources }

end Project

end GamePack
