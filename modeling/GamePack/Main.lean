import GamePack.Command.Run

/-!
The program. It reads the trees that a command works on into a disk,
runs the command on it, says what the command said, and makes the
entries that the command made. Nothing is decided here.
-/
namespace GamePack.Program

/-- The paths whose trees a command may look at. -/
def places : Command → List Path
  | .build o output =>
    o.project :: o.data ++ o.schema.toList ++ output.toList
  | .validate o => o.project :: o.data ++ o.schema.toList
  | .inspect o => o.file :: o.palette.toList ++ o.dump.toList

/-- A disk with a real file, or a real directory and all below it. -/
partial def readTree (disk : Disk) (names : List String) : IO Disk := do
  let path := (← IO.currentDir) / ("/" ++ "/".intercalate names)
  if ← path.isDir then
    let mut disk := disk.put names .directory
    for entry in ← path.readDir do
      disk ← readTree disk (names ++ [entry.fileName])
    return disk
  else if ← path.pathExists then
    return disk.put names (.file (← IO.FS.readBinFile path).toList)
  else return disk

/-- A disk with what a path really leads to, if anything, and the
directories it lies in. -/
def readPlace (disk : Disk) (p : Path) : IO Disk := do
  let path := (← IO.currentDir) / p.text
  if ← path.pathExists then
    let names := Path.names ⟨(← IO.FS.realPath path).toString⟩
    let above := "/" ++ "/".intercalate names.dropLast
    readTree (disk.makeDirectories ⟨above⟩).2 names
  else return disk

/-- The disk that a command works on. -/
def readDisk (command : Command) : IO Disk := do
  let here : Path := ⟨(← IO.currentDir).toString⟩
  let empty : Disk := { workDir := here.names, entries := [] }
  (places command).foldlM readPlace (empty.makeDirectories here).2

/-- Make the entries that a command has made. -/
def writeChanges (earlier later : Disk) : IO Unit := do
  for (names, node) in later.entries do
    if earlier.node? names ≠ some node then
      let path := (← IO.currentDir) / ("/" ++ "/".intercalate names)
      match node with
      | .directory => IO.FS.createDirAll path
      | .file content =>
        IO.FS.writeBinFile path (ByteArray.mk content.toArray)

/-- Carry out an invocation; the exit code. -/
def run (call : Invocation) : IO UInt32 := do
  let disk ← readDisk call.command
  let (result, session) := call.run disk
  writeChanges disk session.disk
  session.progress.forM fun line => IO.eprintln line
  session.output.forM fun line => IO.println line
  match result with
  | .ok () => return 0
  | .error (.panic step) =>
    IO.eprintln (Error.panic step).message
    return 101
  | .error e =>
    IO.eprintln s!"Error: {e.message}"
    match e.help? with
    | some help => IO.eprintln s!"  help: {help}"
    | none => pure ()
    return 1

end GamePack.Program

/-- Carry out the command line. -/
def main (arguments : List String) : IO UInt32 := do
  match GamePack.Invocation.ofWords? arguments with
  | some call => GamePack.Program.run call
  | none =>
    IO.eprintln "usage: rcdgen [-v] build|validate|inspect [arguments]"
    return 2
