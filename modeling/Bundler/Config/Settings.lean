import Bundler.Config.Validate

/-!
# Settings of a project

A project's settings stand in the table `tool.minipack` of a `pyproject.toml`: of the one nearest to
the directory where the search starts that has the table. Relative paths in the table are relative to
the directory of the file, which is also the project's root if the table names none. A caller can
override the entries, the place of the result and the root.
-/

namespace Bundler

open Data

/-- Settings that take the place of those in the file. -/
structure Overrides where
  entries : List (String × FilePath) := []
  directory : Option FilePath := none
  fileName : Option String := none
  root : Option FilePath := none
  deriving DecidableEq, Repr

namespace Settings

variable {π ω : Type}

def typeName : Setting π ω → String := Value.typeName fun _ => "object"

def fileName : FilePath := .ofString "pyproject.toml"

def document (tree : FileTree) (path : FilePath) :
    Except Failure (List (String × Setting π ω)) := do
  let bytes ← (tree.read path).mapError fun fault => .config (.unreadable path (.path fault))
  let text ← (Text.Utf8.decode bytes).mapError .settingsNotText
  match Toml.parse text with
  | .ok fields => .ok fields
  | .error (.integerTooLong digits) => .error (.settingsInteger (.integerTooLong digits))
  | .error fault => .error (.config (.unreadable path (.malformed fault)))

/-- The value is the name of the table that is looked for. -/
def isOwnName : Setting π ω → Bool
  | .string text => text == "minipack"
  | _ => false

/-- The table of the bundler among those of all tools. -/
def ownTable? : Setting π ω → Except TableFault (Option (Setting π ω))
  | .table fields => .ok (fieldOf? "minipack" fields)
  | .string text =>
    if 1 < (text.splitOn "minipack").length then .error .textIndexedByText else .ok none
  | .list items => if items.any isOwnName then .error .listIndexedByText else .ok none
  | value => .error (.notSearchable (typeName value))

/-- Looks for the table in one directory after the other. -/
def search (tree : FileTree) :
    List FilePath → Except Failure (Option (Setting π ω × FilePath))
  | [] => .ok none
  | directory :: rest => do
    let path := directory.join fileName
    if ← (tree.isFile path).mapError .path then
      let tool := (fieldOf? "tool" (← document tree path)).getD (.table [])
      match ← (ownTable? tool).mapError .table with
      | some own => return some (own, directory)
      | none => search tree rest
    else search tree rest

/-- The pair that an element of a list stands for: a key, if it is a text, and a value. -/
def pairOf (index : Nat) (element : Setting π ω) :
    Except TableFault (Option (String × Setting π ω)) := do
  let parts : List (Setting π ω) ←
    match element with
    | .list items => .ok items
    | .string text => .ok (text.toList.map fun c => .string c.toString)
    | .table fields => .ok (fields.map fun field => .string field.1)
    | _ => .error (.notSequence index)
  match parts with
  | [.string key, value] => .ok (some (key, value))
  | [.list _, _] => .error (.unhashable "list")
  | [.table _, _] => .error (.unhashable "dict")
  | [_, _] => .ok none
  | parts => .error (.notPair index parts.length)

/-- The table that pairs make, the later ones winning. Keys that are no texts do not count. -/
def tableOfPairs : List (Setting π ω × Nat) → List (String × Setting π ω) →
    Except TableFault (List (String × Setting π ω))
  | [], fields => .ok fields
  | (element, index) :: rest, fields => do
    match ← pairOf index element with
    | some (key, value) => tableOfPairs rest (setField key value fields)
    | none => tableOfPairs rest fields

/-- A copy of a value as a table. -/
def asTable : Setting π ω → Except TableFault (List (String × Setting π ω))
  | .table fields => .ok fields
  | .list items => tableOfPairs items.zipIdx []
  | .string text => if text = "" then .ok [] else .error (.notPair 0 1)
  | value => .error (.notIterable (typeName value))

def ofPath (path : FilePath) : Setting π ω := .foreign (.path path)

/-- A path seen from a directory. -/
def anchored (base path : FilePath) : Except Failure FilePath :=
  if path.isAbsolute then .ok path else (base.resolve? path).mapError .path

/-- A value that may be a path, seen from a directory. -/
def anchor (base : FilePath) : Setting π ω → Except Failure (Setting π ω)
  | .string text => (anchored base (.ofString text)).map ofPath
  | .foreign (.path path) => (anchored base path).map ofPath
  | value => .ok value

/-- Entries of the table, seen from a directory. -/
def anchorEntries (base : FilePath) : Setting π ω → Except Failure (Setting π ω)
  | .string text => do
    return .table [(defaultEntryName, ← anchor base (.string text))]
  | .table fields => do
    return .table (← fields.mapM fun (name, value) => do return (name, ← anchor base value))
  | value => .ok value

/-- The root: the one given, or the one of the table. -/
def rootOf (cwd base : FilePath) (given : Option FilePath) (fields : List (String × Setting π ω)) :
    Except Failure (Setting π ω) :=
  match given with
  | some root => ((cwd.resolve? root).map ofPath).mapError .path
  | none => anchor base ((fieldOf? "root" fields).getD (.string "."))

/-- The entries: the ones given, or those of the table, if there are any. -/
def entriesOf (base : FilePath) (given : List (String × FilePath))
    (fields : List (String × Setting π ω)) : Except Failure (Option (Setting π ω)) :=
  if given = [] then (fieldOf? "entry" fields).mapM (anchorEntries base)
  else .ok (some (.table (given.map fun (name, path) => (name, ofPath path))))

/-- The place of the result: what is given takes the place of what the table says. -/
def outputOf (base : FilePath) (given : Overrides) (fields : List (String × Setting π ω)) :
    Except Failure (Setting π ω) := do
  let output ← (asTable ((fieldOf? "output" fields).getD (.table []))).mapError .table
  let output ←
    match given.directory, fieldOf? "path" output with
    | some directory, _ => pure (setField "path" (ofPath directory) output)
    | none, some path => do pure (setField "path" (← anchor base path) output)
    | none, none => pure output
  match given.fileName with
  | some name => return .table (if name = "" then output else setField "filename" (.string name) output)
  | none => return .table output

/-- The value of a field, if there is one, in a table. -/
def setOption (name : String) (value : Option (Setting π ω)) (fields : List (String × Setting π ω)) :
    List (String × Setting π ω) :=
  match value with
  | some value => setField name value fields
  | none => fields

/-- The settings in force, from the table of a directory and what is given. -/
def merge (cwd base : FilePath) (given : Overrides) (own : Setting π ω) :
    Except Failure (Setting π ω) := do
  let fields ← (asTable own).mapError .table
  let root ← rootOf cwd base given.root fields
  let entries ← entriesOf base given.entries fields
  let output ← outputOf base given fields
  return .table (setField "output" output (setOption "entry" entries (setField "root" root fields)))

end Settings

def Config.load {π ω : Type} (tree : FileTree) (directory : Option FilePath) (given : Overrides) :
    Except Failure (Config π ω) := do
  let start ← (tree.current.resolve? (directory.getD tree.current)).mapError .path
  let settings ←
    match ← Settings.search tree start.selfAndParents with
    | some (own, base) => Settings.merge tree.current base given own
    | none => Settings.merge tree.current start given (.table [])
  Config.ofSetting tree.current settings

end Bundler
