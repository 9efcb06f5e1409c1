import Bundler.Path.Basic
import Bundler.Path.Lexical

/-!
# Module identities

A module is known by `./` and its path below the project root. There are two ways to an identity:
from a file's path (`ofPath?`) and from a load target as written in the directory of the loading
module (`ofTarget`).
-/

namespace Bundler

/-- The canonical name of a module, such as `./lib/util.py`. -/
abbrev Identity := String

/-- Why a load target names no module. -/
inductive TargetFault
  | empty
  | notRelative (target : String)
  | escapes (target directory : String)
  deriving DecidableEq, Repr

def TargetFault.message : TargetFault → String
  | .empty => "Load target must not be empty."
  | .notRelative target => s!"Load target '{target}' must be a relative forward-slash path."
  | .escapes target directory =>
    s!"Load target '{target}' from '{directory}' escapes the project root."

namespace Identity

/-- The target with the default extension where it has none. -/
def complete (extension : String) (target : List Char) : List Char :=
  if Lexical.hasExtension target then target else target ++ extension.toList

/-- A normal form that starts with a step up leads out of the directory it is taken in. -/
def leadsOut (normal : List Char) : Bool :=
  normal == ['.', '.'] || ['.', '.', '/'].isPrefixOf normal

/-- The identity a load target means for a module in a directory below the root. -/
def ofTarget (extension directory target : String) : Except TargetFault Identity :=
  let chars := target.toList
  if chars = [] then .error .empty
  else if chars.head? = some '/' ∨ '\\' ∈ chars then .error (.notRelative target)
  else
    let full := complete extension chars
    let normal := Lexical.normalise (Lexical.join directory.toList full)
    if leadsOut normal then .error (.escapes (String.ofList full) directory)
    else .ok ("./" ++ String.ofList normal)

/-- The identity of a file, if its path lies below the root. -/
def ofPath? (root path : FilePath) : Option Identity :=
  (path.relativeTo? root).map fun parts => "./" ++ FilePath.toString ⟨.relative, parts⟩

/-- The directory of a module, as its load targets see it. -/
def directory (identity : Identity) : String :=
  String.ofList (Lexical.directory identity.toList)

end Identity
end Bundler
