import SnapTree.Command.Line

/-
  The program: it reads the files that a command line is
  about, carries out the command on them, writes what has
  changed, and prints the outcome.
-/

namespace SnapTree

namespace Program

/- The location that a path leads to from another. -/
def location
    (start : Location)
    (p : Path) : Location :=
  p.components.foldl
    (fun l component =>
      match component with
      | .root => []
      | .here => l
      | .up => l.dropLast
      | .name text => l ++ [text])
    start

/- A location as the path of a file. -/
def absolute
    (l : Location) : String :=
  "/" ++ "/".intercalate l

/- Read what is at a path and above it into a tree. -/
def readPath
    (t : FileTree)
    (p : Path) : IO FileTree := do
  let base ← IO.currentDir
  let mut t := t
  for q in p.ancestors do
    let file := base / q.text
    let l := location t.workingDirectory q
    if ← file.isDir then
      t := t.place l .directory
    else if ← file.pathExists then
      let bytes ← IO.FS.readBinFile file
      t := t.place l (.file bytes.toList)
  return t

/- Read all that is in a directory into a tree. -/
def readDirectory
    (t : FileTree)
    (p : Path) : IO FileTree := do
  let directory := (← IO.currentDir) / p.text
  let mut t ← readPath t p
  if ← directory.isDir then
    for file in ← directory.walkDir do
      t ← readPath t ⟨file.toString⟩
  return t

/- Read the files that a manifest names into a tree. -/
def readManifest
    (t : FileTree)
    (file : Path) : IO FileTree := do
  let t ← readPath t file
  match ((Manifest.load file).run t).1 with
  | .error _ => return t
  | .ok m =>
      (m.paths (file.parent?.getD ".")).foldlM readPath t

/- Read what a command needs into a tree. -/
def readInputs
    (config : Option Path)
    (command : Command) : IO FileTree := do
  let here := (← IO.currentDir).toString
  let t := FileTree.ofWorkingDirectory (Path.names here)
  let t ← readPath t (config.getD Configuration.standardFile)
  match command with
  | .snapshot manifest store =>
      readDirectory (← readManifest t manifest) store
  | .sync store _ _ _ => readDirectory t store
  | .diff store _ _ _ => readDirectory t store
  | .check store _ _ => readDirectory t store

/- Write what is in one tree and not in another. -/
def writeChanges
    (old new : FileTree) : IO Unit := do
  for (l, node) in new.nodes.toList do
    if old.nodes[l]? != some node then
      match node with
      | .directory => IO.FS.createDirAll (absolute l)
      | .file bytes =>
          IO.FS.createDirAll (absolute l.dropLast)
          IO.FS.writeBinFile (absolute l) ⟨bytes.toArray⟩

/- Carry out a command line; the result is the exit code. -/
def run
    (words : List String) : IO UInt32 := do
  match CommandLine.parse words with
  | none =>
      IO.eprint generalHelp
      return 2
  | some (.message text) =>
      IO.print text
      return 0
  | some (.run config command) =>
      let files ← readInputs config command
      let (result, changed) :=
        (runConfigured config command).run files
      writeChanges files changed
      match result with
      | .error failure =>
          IO.eprintln s!"Error: {failure.message}"
          return 1
      | .ok output =>
          IO.print output.text
          return 0

end Program

end SnapTree

def main
    (words : List String) : IO UInt32 :=
  SnapTree.Program.run words
