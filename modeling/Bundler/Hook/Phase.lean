import Bundler.Text.Case
import Bundler.Text.Pieces

/-!
# Phases

A run of the compiler goes through eight phases in a fixed order. The hook of a phase stands under a name
of small letters with underscores between the words, such as `before_compile`. A text is looked up as
the name that it becomes when an underscore is put before each further capital letter and the whole is
taken in lower case, so that `beforeCompile` is found there as well.
-/

namespace Bundler

inductive Phase
  | run
  | beforeEntryOptions
  | afterEntryOptions
  | beforeCompile
  | afterCompile
  | beforeEmitFile
  | afterEmitFile
  | done
  deriving DecidableEq, Repr

namespace Phase

/-- The phases in the order of a run. -/
def all : List Phase :=
  [.run, .beforeEntryOptions, .afterEntryOptions, .beforeCompile, .afterCompile, .beforeEmitFile,
   .afterEmitFile, .done]

def name : Phase → String
  | .run => "run"
  | .beforeEntryOptions => "beforeEntryOptions"
  | .afterEntryOptions => "afterEntryOptions"
  | .beforeCompile => "beforeCompile"
  | .afterCompile => "afterCompile"
  | .beforeEmitFile => "beforeEmitFile"
  | .afterEmitFile => "afterEmitFile"
  | .done => "done"

/-- The name under which the hook of a phase stands. -/
def snakeName : Phase → String
  | .run => "run"
  | .beforeEntryOptions => "before_entry_options"
  | .afterEntryOptions => "after_entry_options"
  | .beforeCompile => "before_compile"
  | .afterCompile => "after_compile"
  | .beforeEmitFile => "before_emit_file"
  | .afterEmitFile => "after_emit_file"
  | .done => "done"

/-- What a phase hands to its callbacks. -/
def arguments : Phase → List String
  | .run | .done => ["status"]
  | _ => []

/-- The character, after an underscore if it is one of the letters A to Z. -/
def underscored (c : Char) : List Char := if c.isUpper then ['_', c] else [c]

/-- The text with an underscore before each capital letter that is not its first character. -/
def wordsApart : List Char → List Char
  | [] => []
  | first :: rest => first :: rest.flatMap underscored

/-- The name that a text is looked up as. -/
def snakeCase (text : String) : String := String.ofList (Text.lowerCase (wordsApart text.toList))

/-- The names under which something else than a hook stands: operations on hooks, and what every object
has. -/
def otherNames : List String :=
  ["get", "__class__", "__delattr__", "__dict__", "__dir__", "__doc__", "__eq__", "__format__", "__ge__",
   "__getattribute__", "__getstate__", "__gt__", "__hash__", "__init__", "__init_subclass__", "__iter__",
   "__le__", "__lt__", "__module__", "__ne__", "__new__", "__reduce__", "__reduce_ex__", "__repr__",
   "__setattr__", "__sizeof__", "__str__", "__subclasshook__", "__weakref__"]

/-- What stands under a name. -/
inductive Member
  | hook (phase : Phase)
  | other (name : String)
  deriving DecidableEq, Repr

def Member.ofName? (name : String) : Option Member :=
  match all.find? fun phase => phase.snakeName == name with
  | some phase => some (.hook phase)
  | none => (otherNames.find? (· == name)).map .other

/-- The phase that a text spells: a hook has to stand under the name that it is looked up as. -/
def ofSpelling? (text : String) : Option Phase :=
  match Member.ofName? (snakeCase text) with
  | some (.hook phase) => some phase
  | _ => none

end Phase

/-- A text that spells no phase. -/
structure UnknownPhase where
  text : String
  deriving DecidableEq, Repr

def UnknownPhase.message (fault : UnknownPhase) : String :=
  s!"Unknown hook phase '{fault.text}'. Known phases: "
    ++ Text.joinWith ", " (Phase.all.map Phase.name)

def Phase.ofSpelling (text : String) : Except UnknownPhase Phase :=
  match ofSpelling? text with
  | some phase => .ok phase
  | none => .error ⟨text⟩

end Bundler
