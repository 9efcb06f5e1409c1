import Bundler.Path.Basic
import Bundler.Text.Quoted

/-!
# File trees

A tree of directories and files as a program sees it that works in one of the directories. There are
no links. Paths are followed step by step, so that `..` leads out of directories that exist only.
-/

namespace Bundler

/-- What stands at a place of the tree. -/
inductive FileNode
  | directory
  | file (content : ByteArray)

instance : DecidableEq FileNode
  | .directory, .directory => isTrue rfl
  | .directory, .file _ => isFalse nofun
  | .file _, .directory => isFalse nofun
  | .file content, .file other =>
    match decEq content.data other.data with
    | isTrue h => isTrue (congrArg FileNode.file (ByteArray.ext h))
    | isFalse h => isFalse fun heq => h (congrArg ByteArray.data (FileNode.file.inj heq))

inductive PathReason
  | missing
  | exists
  | notDirectory
  | isDirectory
  | nameTooLong
  deriving DecidableEq, Repr

def PathReason.number : PathReason → Nat
  | .missing => 2
  | .exists => 17
  | .notDirectory => 20
  | .isDirectory => 21
  | .nameTooLong => 36

def PathReason.message : PathReason → String
  | .missing => "No such file or directory"
  | .exists => "File exists"
  | .notDirectory => "Not a directory"
  | .isDirectory => "Is a directory"
  | .nameTooLong => "File name too long"

/-- A path that cannot be used. No path with a null character can. -/
inductive PathFault
  | system (reason : PathReason) (path : FilePath)
  | null
  deriving DecidableEq, Repr

def PathFault.message : PathFault → String
  | .system reason path =>
    s!"[Errno {reason.number}] {reason.message}: {Text.quotedString path.toString}"
  | .null => "embedded null byte"

def FilePath.hasNull (path : FilePath) : Bool :=
  path.parts.any (·.text.toList.contains '\x00')

/-- The absolute path without `..` that a path means in a current directory. -/
def FilePath.resolve? (cwd path : FilePath) : Except PathFault FilePath :=
  if path.hasNull then .error .null else .ok (FilePath.resolve cwd path)

/-- A place in a tree: the steps that lead there from the root. -/
abbrev Place := List Component

/-- A tree of files, seen from a current directory. -/
structure FileTree where
  current : FilePath
  nodes : List (Place × FileNode)

namespace FileTree

def empty : FileTree := ⟨.root, []⟩

/-- What stands at a place. The root is always a directory. -/
def node? (tree : FileTree) (place : Place) : Option FileNode :=
  if place = [] then some .directory
  else (tree.nodes.find? fun entry => entry.1 = place).map (·.2)

def put (tree : FileTree) (place : Place) (node : FileNode) : FileTree :=
  if (tree.nodes.any fun entry => entry.1 = place) then
    { tree with nodes := tree.nodes.map fun entry => if entry.1 = place then (place, node) else entry }
  else { tree with nodes := tree.nodes ++ [(place, node)] }

/-- The tree without a place and everything below it. -/
def remove (tree : FileTree) (place : Place) : FileTree :=
  { tree with nodes := tree.nodes.filter fun entry => !place.isPrefixOf entry.1 }

/-- Where following a path ends: at something, or at a free place in a directory. -/
inductive Spot
  | taken (place : Place) (node : FileNode)
  | free (place : Place)

/-- The most bytes a name may have. -/
def nameLimit : Nat := 255

/-- The most bytes a path may have. -/
def pathLimit : Nat := 4095

def follow (tree : FileTree) (place : Place) : List Component → Except PathReason Spot
  | [] =>
    match tree.node? place with
    | some node => .ok (.taken place node)
    | none => .error .missing
  | step :: rest =>
    match tree.node? place with
    | none => .error .missing
    | some (.file _) => .error .notDirectory
    | some .directory =>
      if step = .parent then tree.follow place.dropLast rest
      else if nameLimit < step.text.utf8ByteSize then .error .nameTooLong
      else if (tree.node? (place ++ [step])).isSome then tree.follow (place ++ [step]) rest
      else if rest = [] then .ok (.free (place ++ [step]))
      else .error .missing

/-- Follows a path from the current directory or the root. -/
def locate (tree : FileTree) (path : FilePath) : Except PathReason Spot :=
  if pathLimit < path.toString.utf8ByteSize then .error .nameTooLong
  else tree.follow [] (tree.current.join path).parts

/-- What a path names, if it names anything. Only a name that is too long is a fault. -/
def lookUp (tree : FileTree) (path : FilePath) : Except PathFault (Option FileNode) :=
  if path.hasNull then .ok none
  else
    match tree.locate path with
    | .ok (.taken _ node) => .ok (some node)
    | .ok (.free _) | .error .missing | .error .notDirectory => .ok none
    | .error reason => .error (.system reason path)

def isFile (tree : FileTree) (path : FilePath) : Except PathFault Bool := do
  match ← tree.lookUp path with
  | some (.file _) => return true
  | _ => return false

def read (tree : FileTree) (path : FilePath) : Except PathFault ByteArray :=
  if path.hasNull then .error .null
  else
    match tree.locate path with
    | .ok (.taken _ (.file content)) => .ok content
    | .ok (.taken _ .directory) => .error (.system .isDirectory path)
    | .ok (.free _) => .error (.system .missing path)
    | .error reason => .error (.system reason path)

/-- The tree with the bytes as the content of the file that a path names; its directory has to exist. -/
def write (tree : FileTree) (path : FilePath) (content : ByteArray) : Except PathFault FileTree :=
  if path.hasNull then .error .null
  else
    match tree.locate path with
    | .ok (.taken place (.file _)) | .ok (.free place) => .ok (tree.put place (.file content))
    | .ok (.taken _ .directory) => .error (.system .isDirectory path)
    | .error reason => .error (.system reason path)

/-- The tree with a new directory at a free place of an existing one. -/
def makeDirectory (tree : FileTree) (path : FilePath) : Except PathFault FileTree :=
  if path.hasNull then .error .null
  else
    match tree.locate path with
    | .ok (.taken ..) => .error (.system .exists path)
    | .ok (.free place) => .ok (tree.put place .directory)
    | .error reason => .error (.system reason path)

def isDirectory (tree : FileTree) (path : FilePath) : Except PathFault Bool := do
  match ← tree.lookUp path with
  | some .directory => return true
  | _ => return false

/-- The result of making a directory where an existing one is as good as a new one. -/
def settled (tree : FileTree) (path : FilePath) (fault : PathFault) : FileTree × Option PathFault :=
  match fault with
  | .null => (tree, some fault)
  | .system .. =>
    match tree.isDirectory path with
    | .ok true => (tree, none)
    | .ok false => (tree, some fault)
    | .error fault => (tree, some fault)

/-- The tree made, or the old one and the fault if it counts. -/
def settledOr (tree : FileTree) (path : FilePath) :
    Except PathFault FileTree → FileTree × Option PathFault
  | .ok tree => (tree, none)
  | .error fault => tree.settled path fault

/-- Makes a directory and, first, those above it that are missing; one that is there already is no
fault. The number bounds the directories above that are tried. A fault leaves the directories made
before it. -/
def makeDirectories (tree : FileTree) (path : FilePath) : Nat → FileTree × Option PathFault
  | 0 => tree.settledOr path (tree.makeDirectory path)
  | above + 1 =>
    match tree.makeDirectory path with
    | .error (.system .missing _) =>
      match tree.makeDirectories path.parent above with
      | (tree, none) => tree.settledOr path (tree.makeDirectory path)
      | faulty => faulty
    | made => tree.settledOr path made

end FileTree
end Bundler
