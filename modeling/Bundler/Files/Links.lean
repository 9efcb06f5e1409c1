import Bundler.Fault.Basic

/-!
# Paths through symbolic links

Resolving a path follows the symbolic links on its way. A path that meets none is resolved as it is read
(`FilePath.resolve`). A link that leads back to itself stays in the result together with what was left of
the path, and resolving fails if the system, too, goes round in a circle there.
-/

namespace Bundler

/-- Symbolic links: the places where they stand, and what they lead to. -/
abbrev Links := List (Place × FilePath)

/-- The path one step up. From the current directory, and from what lies above it, the step is kept. -/
def FilePath.up (path : FilePath) : FilePath :=
  if path.anchor = .relative ∧ (path.parts = [] ∨ path.parts.getLast? = some .parent) then
    { path with parts := path.parts ++ [.parent] }
  else path.parent

def FilePath.child (path : FilePath) (step : Component) : FilePath :=
  { path with parts := path.parts ++ [step] }

namespace Links

def start (path target : FilePath) : FilePath := if target.isAbsolute then .root else path.parent

/-- Follows steps from a path; `enter` says what becomes of a link at a path. Where a link leads round in a
circle, the path to it and the steps behind it are left as they are. -/
def walk (enter : FilePath → Option (Except FilePath FilePath)) :
    FilePath → List Component → Except FilePath FilePath
  | path, [] => .ok path
  | path, step :: rest =>
    if step = .parent then walk enter path.up rest
    else
      match enter (path.child step) with
      | none => walk enter (path.child step) rest
      | some (.ok reached) => walk enter reached rest
      | some (.error left) => .error (left.join ⟨.relative, rest⟩)

/-- The link at a path, as seen from a current directory. -/
def target? (links : Links) (cwd path : FilePath) : Option FilePath :=
  links.lookup (cwd.resolve path).parts

/-- Follows the link at a path, if there is one. `entered` are the paths to the links on the way to it. They
are compared as they are written, so that a link may be entered twice, on a relative path and on an absolute
one. The number bounds those still to be entered. -/
def enter (links : Links) (cwd : FilePath) :
    Nat → List FilePath → FilePath → Option (Except FilePath FilePath)
  | 0, _, path => (links.target? cwd path).map fun _ => .error path
  | left + 1, entered, path =>
    (links.target? cwd path).map fun target =>
      if path ∈ entered then .error path
      else walk (links.enter cwd left (path :: entered)) (start path target)
        target.parts

/-- Where a path leads, or what is left of one that goes round in a circle. -/
def reach (links : Links) (cwd path : FilePath) : Except FilePath FilePath :=
  walk (links.enter cwd (2 * links.length) []) ⟨path.anchor, []⟩ path.parts

/-- The most links that the system follows on the way along one path. -/
def followLimit : Nat := 40

/-- The system follows steps from a place and gives up for having met too many links; `enter` says what
becomes of a link's steps. -/
def tires (tree : FileTree) (links : Links) (enter : Place → List Component → Bool) :
    Place → List Component → Bool
  | _, [] => false
  | place, step :: rest =>
    match tree.node? place with
    | some .directory =>
      if step = .parent then tires tree links enter place.dropLast rest
      else if FileTree.nameLimit < step.text.utf8ByteSize then false
      else
        match links.lookup (place ++ [step]) with
        | some target => enter (if target.isAbsolute then [] else place) (target.parts ++ rest)
        | none => tires tree links enter (place ++ [step]) rest
    | _ => false

/-- The system gives up on the way along steps after it has met a number of links. -/
def tiresAfter (tree : FileTree) (links : Links) : Nat → Place → List Component → Bool
  | 0 => fun _ _ => true
  | left + 1 => tires tree links (tiresAfter tree links left)

end Links

/-- What is raised for a path that goes round in a circle. -/
def loopRaised (path : FilePath) : Raised :=
  let message := s!"Symlink loop from {Text.quotedString path.toString}"
  ⟨"RuntimeError", message, message⟩

/-- The absolute path without `..` and without links that a path means in a tree with some links. -/
def FileTree.resolveThrough (tree : FileTree) (links : Links) (path : FilePath) :
    Except Failure FilePath :=
  if path.hasNull then .error (.path .null)
  else
    match links.reach tree.current path with
    | .ok reached => .ok (tree.current.resolve reached)
    | .error left =>
      let resolved := tree.current.resolve left
      if FileTree.pathLimit < resolved.toString.utf8ByteSize then .ok resolved
      else if Links.tiresAfter tree links (Links.followLimit + 1) [] resolved.parts then
        .error (.raised (loopRaised resolved))
      else .ok resolved

end Bundler
