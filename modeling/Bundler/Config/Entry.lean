import Bundler.Config.Basic
import Bundler.Fault.Basic
import Bundler.Text.Blank

/-!
# Entries as arguments

An entry is written `name=path` or, under the default name, as a path alone.
-/

namespace Bundler.Config

/-- The name and the path that an argument gives. -/
def splitEntry (argument : String) : String × String :=
  match Text.cut? '=' argument.toList with
  | some (name, path) =>
    (String.ofList (Text.strip name), String.ofList (Text.strip path))
  | none => (defaultEntryName, String.ofList (Text.strip argument.toList))

/-- The entries that arguments give, after those known already; `resolve` says what a path means. -/
def addEntries (resolve : FilePath → Except Failure FilePath) :
    List String → List (String × FilePath) → Except Failure (List (String × FilePath))
  | [], entries => .ok entries
  | argument :: rest, entries => do
    let (name, path) := splitEntry argument
    if entries.any (·.1 = name) then .error (.config (.duplicateEntry name))
    else
      let path ← resolve (.ofString path)
      addEntries resolve rest (entries ++ [(name, path)])

/-- What a path means in a current directory where no links are on its way. -/
def resolveFrom (cwd path : FilePath) : Except Failure FilePath := (cwd.resolve? path).mapError .path

/-- The entries that arguments give, seen from a current directory. -/
def entriesOfArguments (cwd : FilePath) (arguments : List String)
    (resolve : FilePath → Except Failure FilePath := resolveFrom cwd) :
    Except Failure (List (String × FilePath)) :=
  addEntries resolve arguments []

end Bundler.Config
