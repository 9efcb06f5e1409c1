import Bundler.Command.Handlers

/-!
# The program

The program takes the files it may need from the disk, does what its arguments say, and puts the files
that are new or changed back. It sees everything below the current directory, everything below the
paths among its arguments, and the settings files in the directories above these.
-/

namespace Bundler.Program

/-- There are no plugins from outside but those of the standard library. -/
def host : Host Empty Empty Unit where
  library := Library.standard
  shown := Empty.elim
  install := Empty.elim
  perform callback := callback.elim

/-- Puts a node and the directories above it into a tree. -/
def place (tree : FileTree) (name : String) (node : FileNode) : FileTree :=
  let steps := FilePath.settle (FilePath.ofString name).parts
  let above := (List.range steps.length).map steps.take
  let tree := above.foldl (fun tree place => if (tree.node? place).isSome then tree
    else tree.put place .directory) tree
  tree.put steps node

/-- The columns of a terminal whose width is not known. -/
def terminalWidth : Nat := 80

def run (tree : FileTree) (arguments : List String) :
    Except Failure Command.Ending × World Unit :=
  let tree := place tree templatePath.toString (.file Artifact.standardTemplate.toUTF8)
  (Command.execute host arguments).start
    { tree, console := Console.start [] terminalWidth, registry := {}, memory := () }

/-- The values among arguments, with and without the name of an option before them. -/
def pathsAmong (arguments : List String) : List String :=
  arguments.flatMap fun argument => [argument, (argument.splitOn "=").getLastD ""]

/-- The nodes of a tree that are new or changed. -/
def changes (before after : FileTree) : List (String × FileNode) :=
  (after.nodes.filter fun (place, node) => before.node? place ≠ some node).map fun (place, node) =>
    (FilePath.toString ⟨.root, place⟩, node)

end Bundler.Program

open Bundler in
def main (arguments : List String) : IO UInt32 := do
  let current ← IO.currentDir
  let mut tree : FileTree := { FileTree.empty with current := .ofString current.toString }
  tree := Program.place tree current.toString .directory
  for name in "." :: Program.pathsAmong arguments do
    let start := current / name
    let found ← if ← start.isDir then start.walkDir else pure #[start]
    let mut above := start
    let mut settings := #[]
    for _ in start.components do
      settings := settings.push (above / "pyproject.toml")
      above := above.parent.getD above
    for path in found ++ settings do
      if ← path.isDir then tree := Program.place tree path.toString .directory
      else if ← path.pathExists then
        tree := Program.place tree path.toString (.file (← IO.FS.readBinFile path))
  let (result, world) := Program.run tree arguments
  for line in world.console.output do IO.println line.text
  for (name, node) in Program.changes tree world.tree do
    if name ≠ templatePath.toString then
      match node with
      | .directory => IO.FS.createDirAll name
      | .file content => IO.FS.writeBinFile name content
  match result with
  | .ok ending =>
    IO.print (ending.shown.getD "")
    return ending.status.toUInt32
  | .error failure =>
    IO.eprintln failure.message
    return Command.failed.toUInt32
