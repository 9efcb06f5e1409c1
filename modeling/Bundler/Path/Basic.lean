import Bundler.Text.Pieces

/-!
# File paths

A path is an anchor and a list of components. The components carry the normal form: no empty
component, no `.`, no slash inside one; `..` is kept, because only a directory tree can say what
it means. `resolve` removes it lexically, which is right in a tree without links. A path that is resolved
where links can lie on its way goes through `FileTree.resolveThrough`.
-/

namespace Bundler

/-- A text can stand between two slashes of a path in normal form. -/
def isComponent (text : String) : Bool :=
  text != "" && text != "." && !text.toList.contains '/'

/-- One step of a path: not empty, not `.`, and without a slash. -/
structure Component where
  text : String
  isComponent : isComponent text = true
  deriving DecidableEq

instance : Repr Component := ⟨fun c n => reprPrec c.text n⟩

namespace Component

def ofText? (text : List Char) : Option Component :=
  if h : Bundler.isComponent (String.ofList text) = true then some ⟨String.ofList text, h⟩ else none

/-- The step to the parent directory. -/
def parent : Component := ⟨"..", by decide +kernel⟩

end Component

/-- Where a path starts: at the current directory, at the root, or at `//`, which stays apart from
the root. -/
inductive Anchor
  | relative
  | root
  | doubleRoot
  deriving DecidableEq, Repr

def Anchor.text : Anchor → String
  | .relative => ""
  | .root => "/"
  | .doubleRoot => "//"

/-- Exactly two leading slashes make an anchor of their own; any other positive number is the root. -/
def Anchor.ofText : List Char → Anchor
  | '/' :: '/' :: '/' :: _ => .root
  | '/' :: '/' :: _ => .doubleRoot
  | '/' :: _ => .root
  | _ => .relative

structure FilePath where
  anchor : Anchor
  parts : List Component
  deriving DecidableEq, Repr

namespace FilePath

/-- The components of a text that mean a step. -/
def partsOf (text : List Char) : List Component :=
  (Text.pieces '/' text).filterMap Component.ofText?

/-- Reads a path: doubled slashes, a trailing slash and `.` leave no trace. -/
def ofString (text : String) : FilePath :=
  ⟨Anchor.ofText text.toList, partsOf text.toList⟩

/-- The written form; the empty relative path is `.`. -/
def toString (path : FilePath) : String :=
  match path.anchor, path.parts with
  | .relative, [] => "."
  | anchor, parts => anchor.text ++ Text.joinWith "/" (parts.map (·.text))

instance : ToString FilePath := ⟨FilePath.toString⟩

def root : FilePath := ⟨.root, []⟩

/-- The path does not depend on the current directory. -/
def isAbsolute (path : FilePath) : Bool := path.anchor != .relative

/-- `base.join path` is `path` as seen from `base`; an absolute `path` stands for itself. -/
def join (base path : FilePath) : FilePath :=
  if path.isAbsolute then path else ⟨base.anchor, base.parts ++ path.parts⟩

instance : HDiv FilePath FilePath FilePath := ⟨join⟩

/-- Takes a step from the place reached so far, the last component first. Above the root there is
only the root. -/
def walk (place : List Component) (step : Component) : List Component :=
  if step = .parent then place.tail else step :: place

/-- The steps of a path taken from the root, without any `..`. -/
def settle (parts : List Component) : List Component :=
  (parts.foldl walk []).reverse

/-- The absolute path without `..` that a path means in a current directory. -/
def resolve (cwd path : FilePath) : FilePath :=
  ⟨.root, settle (cwd.join path).parts⟩

/-- What is left of a path below a directory, if it starts with the directory component by component. -/
def relativeTo? (path base : FilePath) : Option (List Component) :=
  if path.anchor = base.anchor ∧ base.parts <+: path.parts then
    some (path.parts.drop base.parts.length)
  else none

/-- The directory holding the last component; a bare anchor is its own parent. -/
def parent (path : FilePath) : FilePath := ⟨path.anchor, path.parts.dropLast⟩

/-- The path itself and every directory above it, nearest first. -/
def selfAndParents (path : FilePath) : List FilePath :=
  (List.range (path.parts.length + 1)).map fun up =>
    ⟨path.anchor, path.parts.take (path.parts.length - up)⟩

@[simp] theorem join_of_isAbsolute {base path : FilePath} (h : path.isAbsolute = true) :
    base.join path = path := by simp [join, h]

theorem resolve_anchor (cwd path : FilePath) : (resolve cwd path).anchor = .root := rfl

theorem parent_notMem_walk {place : List Component} {step : Component}
    (h : Component.parent ∉ place) : Component.parent ∉ walk place step := by
  rw [walk]
  split
  · exact fun hm => h (List.mem_of_mem_tail hm)
  · next hs => simp [h, Ne.symm hs]

/-- A settled path holds no step to a parent. -/
theorem parent_notMem_settle (parts : List Component) : Component.parent ∉ settle parts := by
  suffices h : ∀ place : List Component, Component.parent ∉ place →
      Component.parent ∉ parts.foldl walk place by
    simpa [settle] using h [] (by simp)
  induction parts with
  | nil => exact fun _ h => h
  | cons step rest ih => exact fun place h => ih _ (parent_notMem_walk h)

end FilePath
end Bundler
