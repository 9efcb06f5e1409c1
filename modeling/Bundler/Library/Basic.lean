import Bundler.Config.Mistake
import Bundler.Path.Basic
import Bundler.Text.Quoted
import Bundler.Transform.Basic

/-!
# Libraries

A configuration may refer to a member of a module outside the bundler by `module:member`. A library
holds the modules that can be referred to. The name of a module inside a package starts with the name
of the package and a dot, and a module is found only after everything its name starts with.
-/

namespace Bundler

inductive MakeFault
  | raised (raised : Raised)
  | invalid (record : String) (mistakes : List Mistake)
  deriving DecidableEq, Repr

/-- Something that makes objects. Used as a transform, it gets the text to make one from. -/
structure Maker (π ω : Type) where
  shown : String
  transform : Transform ω
  make : Except MakeFault (Option π)

/-- Something from outside the bundler. An object may be a plugin. -/
inductive Thing (π ω : Type)
  | transform (transform : Transform ω)
  | maker (maker : Maker π ω)
  | object (shown : String) (plugin : Option π)
  | path (path : FilePath)

namespace Thing

variable {π ω : Type}

def shown : Thing π ω → String
  | .transform inner => inner.name
  | .maker inner => inner.shown
  | .object text _ => text
  | .path inner => s!"PosixPath({Text.quotedString inner.toString})"

/-- What calling it with a text does, if it can be called. -/
def transform? : Thing π ω → Option (Transform ω)
  | .transform inner => some inner
  | .maker inner => some inner.transform
  | .object .. | .path _ => none

end Thing

/-- A module of a library. Some modules call themselves by another name than the one they are found
under. -/
structure LibraryModule (π ω : Type) where
  name : String
  ownName : String := name
  isPackage : Bool := false
  members : List (String × Thing π ω) := []

/-- The modules that can be referred to. -/
abbrev Library (π ω : Type) := List (LibraryModule π ω)

inductive ImportFault
  | missing (name : String)
  | notPackage (name parent : String)
  | noMember (module member : String)
  deriving DecidableEq, Repr

def ImportFault.message : ImportFault → String
  | .missing name => s!"No module named {Text.quotedString name}"
  | .notPackage name parent =>
    s!"No module named {Text.quotedString name}; {Text.quotedString parent} is not a package"
  | .noMember module member => s!"module '{module}' has no attribute '{member}'"

namespace Library

variable {π ω : Type}

def module? (library : Library π ω) (name : String) : Option (LibraryModule π ω) :=
  library.find? (·.name = name)

/-- Finds one module after the other: every name is the one before with another part. -/
def walk (library : Library π ω) (found : Option (LibraryModule π ω)) (name : String) :
    List String → Except ImportFault (Option (LibraryModule π ω))
  | [] => .ok found
  | part :: rest =>
    let longer := if found.isNone then part else name ++ "." ++ part
    match library.module? longer, found with
    | some module, _ => walk library (some module) longer rest
    | none, some parent =>
      if parent.isPackage then .error (.missing longer) else .error (.notPackage longer name)
    | none, none => .error (.missing longer)

def member (library : Library π ω) (module member : String) : Except ImportFault (Thing π ω) := do
  let parts := (Text.pieces '.' module.toList).map String.ofList
  match ← library.walk none "" parts with
  | none => .error (.missing module)
  | some found =>
    match found.members.find? (·.1 = member) with
    | some (_, thing) => .ok thing
    | none => .error (.noMember found.ownName member)

end Library

/-- The parts of a reference before and after its first colon. -/
def splitReference (reference : String) : String × String :=
  match Text.cut? ':' reference.toList with
  | some (module, member) => (String.ofList module, String.ofList member)
  | none => (reference, "")

end Bundler
