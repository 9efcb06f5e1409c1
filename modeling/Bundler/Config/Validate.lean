import Bundler.Config.Basic
import Bundler.Fault.Basic
import Bundler.Text.Identifier

/-!
# Checking a configuration

A configuration is read from a value field by field. All mistakes are collected, in the order of the
fields; a field is looked at closely only if its parts are of the right kind. Numbers and other values
never stand for texts, and fields that no configuration has are passed over.
-/

namespace Bundler

/-- Why a value is no configuration: its mistakes, or a pattern that repeats something too often. -/
inductive Refusal
  | mistakes (list : List Mistake)
  | hugeRepetition
  deriving DecidableEq, Repr

/-- What a field of a value gives. -/
abbrev Checked (α : Type) := Except Refusal α

namespace Checked

variable {α β : Type}

def fail (place : List Step) (wrong : Wrong) : Checked α := .error (.mistakes [⟨place, wrong⟩])

/-- Puts two checked values together, and the mistakes of both. -/
def both (f : Checked (α → β)) (a : Checked α) : Checked β :=
  match f, a with
  | .ok f, .ok a => .ok (f a)
  | .error .hugeRepetition, _ => .error .hugeRepetition
  | .error (.mistakes first), .error (.mistakes more) => .error (.mistakes (first ++ more))
  | .error (.mistakes _), .error .hugeRepetition => .error .hugeRepetition
  | .error (.mistakes first), .ok _ => .error (.mistakes first)
  | .ok _, .error refusal => .error refusal

/-- Puts a list of checked values together. -/
def all : List (Checked α) → Checked (List α)
  | [] => .ok []
  | first :: rest => both (first.map List.cons) (all rest)

end Checked

namespace Config

variable {π ω : Type}

def asText (place : List Step) : Setting π ω → Checked String
  | .string text => .ok text
  | _ => .fail place .notString

/-- A path, written or not. -/
def asPath (place : List Step) : Setting π ω → Checked FilePath
  | .string text => .ok (.ofString text)
  | .foreign (.path path) => .ok path
  | _ => .fail place .notPath

def asList (place : List Step) : Setting π ω → Checked (List (List Step × Setting π ω))
  | .list items => .ok (items.zipIdx.map fun (item, index) => (place ++ [.item index], item))
  | _ => .fail place .notList

def asRecord (name : String) (place : List Step) :
    Setting π ω → Checked (List (String × Setting π ω))
  | .table fields => .ok fields
  | _ => .fail place (.notRecord name)

/-- A field that may be missing. -/
def fieldOr {α : Type} (default : α) (place : List Step) (name : String)
    (check : List Step → Setting π ω → Checked α) (fields : List (String × Setting π ω)) : Checked α :=
  match Data.fieldOf? name fields with
  | some value => check (place ++ [.field name]) value
  | none => .ok default

/-- A field that may not be missing. -/
def field {α : Type} (place : List Step) (name : String)
    (check : List Step → Setting π ω → Checked α) (fields : List (String × Setting π ω)) : Checked α :=
  match Data.fieldOf? name fields with
  | some value => check (place ++ [.field name]) value
  | none => .fail (place ++ [.field name]) .missing

/-- A pattern of a rule, and what it means. -/
def asPattern (place : List Step) (value : Setting π ω) : Checked (String × Regex.Pattern) := do
  let text ← asText place value
  match Regex.parse text with
  | .ok pattern => .ok (text, pattern)
  | .error .hugeRepetition => .error .hugeRepetition
  | .error .incompatibleFlags => .fail place (.refused (Regex.Fault.incompatibleFlags.message text))
  | .error fault =>
    .fail place (.refused s!"Invalid rule pattern {Text.quotedString text}: {fault.message text}")

/-- An element of a chain. -/
def asTransform (place : List Step) : Setting π ω → Checked (TransformRef ω)
  | .string reference => .ok (.named reference)
  | .foreign thing =>
    match thing.transform? with
    | some transform => .ok (.direct transform)
    | none => noTransform
  | _ => noTransform
where
  /-- The mistakes of an element that is neither a text nor a transform. -/
  noTransform : Checked (TransformRef ω) :=
    .error (.mistakes
      [⟨place ++ [.field "str"], .notString⟩, ⟨place ++ [.field "callable"], .notCallable⟩])

/-- A chain; a single transform stands for a chain of its own. -/
def asChain (place : List Step) (value : Setting π ω) : Checked (List (TransformRef ω)) :=
  match value with
  | .list _ => do Checked.all ((← asList place value).map fun (place, item) => asTransform place item)
  | .string reference => .ok [.named reference]
  | .foreign thing =>
    match thing.transform? with
    | some transform => .ok [.direct transform]
    | none => .fail place .notList
  | _ => .fail place .notList

def asRule (place : List Step) (value : Setting π ω) : Checked (Rule (TransformRef ω)) := do
  let fields ← asRecord "Rule" place value
  Checked.both
    ((field place "test" asPattern fields).map fun (test, pattern) use => ⟨test, pattern, use⟩)
    (fieldOr [] place "use" asChain fields)

def asRules (place : List Step) (value : Setting π ω) : Checked (List (Rule (TransformRef ω))) := do
  Checked.all ((← asList place value).map fun (place, item) => asRule place item)

/-- The name of an entry ends up in a comment, so it has to be visible on one line. -/
def isEntryName (name : String) : Bool := name != "" && name.toList.all Text.isPrintable

/-- The entries, if their names can be used. -/
def checkEntryNames (place : List Step) (entries : List (String × FilePath)) :
    Checked (List (String × FilePath)) :=
  match entries.find? fun entry => !isEntryName entry.1 with
  | some (name, _) =>
    .fail place
      (.refused s!"Entry name {Text.quotedString name} must be non-empty printable text.")
  | none => .ok entries

/-- The entries: a table of paths, or a single path. -/
def asEntries (place : List Step) (value : Setting π ω) : Checked (List (String × FilePath)) :=
  match value with
  | .table [] => .fail place (.refused "At least one entry is required.")
  | .table fields => do
    checkEntryNames place (← Checked.all (fields.map fun (name, value) =>
      (asPath (place ++ [.field name]) value).map (name, ·)))
  | .string text => .ok [(defaultEntryName, .ofString text)]
  | .foreign (.path path) => .ok [(defaultEntryName, path)]
  | _ => .fail place .notTable

def asOutput (place : List Step) (value : Setting π ω) : Checked OutputOptions := do
  let fields ← asRecord "OutputOptions" place value
  let standard : OutputOptions := {}
  Checked.both
    ((fieldOr standard.directory place "path" asPath fields).map OutputOptions.mk)
    (fieldOr standard.fileName place "filename" asText fields)

/-- The plugins. Nothing is asked of them here. -/
def asPlugins (place : List Step) (value : Setting π ω) : Checked (List (Setting π ω)) := do
  return (← asList place value).map (·.2)

def asIdentifier (place : List Step) (value : Setting π ω) : Checked String := do
  let text ← asText place value
  if Text.isIdentifier text.toList then return text
  else .fail place (.refused s!"{Text.quotedString text} is not a valid Python identifier.")

/-- A file extension: a dot and something after it. -/
def isExtension (text : String) : Bool := text.startsWith "." && 2 ≤ text.length

def asExtension (place : List Step) (value : Setting π ω) : Checked String := do
  let text ← asText place value
  if isExtension text then return text
  else .fail place (.refused s!"Extension must look like '.py', got {Text.quotedString text}.")

/-- A configuration, in a project whose root is `root` if the value names no other. -/
def check (root : FilePath) (value : Setting π ω) : Checked (Config π ω) := do
  let fields ← asRecord "BundleConfig" [] value
  let naming : Naming := {}
  let make entries rules output plugins root load runtime extension : Config π ω :=
    { entries, rules, output, plugins, root, naming := { load, runtime, extension } }
  let entries := (field [] "entry" asEntries fields).map make
  let rules := Checked.both entries (fieldOr [] [] "rules" asRules fields)
  let output := Checked.both rules (fieldOr {} [] "output" asOutput fields)
  let plugins := Checked.both output (fieldOr [] [] "plugins" asPlugins fields)
  let root := Checked.both plugins (fieldOr root [] "root" asPath fields)
  let load := Checked.both root (fieldOr naming.load [] "load_function" asIdentifier fields)
  let runtime := Checked.both load (fieldOr naming.runtime [] "runtime_function" asIdentifier fields)
  Checked.both runtime (fieldOr naming.extension [] "default_extension" asExtension fields)

def ofSetting (root : FilePath) (value : Setting π ω) : Except Failure (Config π ω) :=
  match check root value with
  | .ok config => .ok config
  | .error (.mistakes list) => .error (.config (.invalid list))
  | .error .hugeRepetition => .error .hugeRepetition

/-- A rule of its own, or why the value is none, as a failure. -/
def ruleOfSetting (value : Setting π ω) : Except Failure (Rule (TransformRef ω)) :=
  match asRule [] value with
  | .ok rule => .ok rule
  | .error (.mistakes list) => .error (.invalid "Rule" list)
  | .error .hugeRepetition => .error .hugeRepetition

end Config
end Bundler
