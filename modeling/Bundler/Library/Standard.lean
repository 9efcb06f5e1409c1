import Bundler.Data.Integer
import Bundler.Fault.Basic
import Bundler.Library.Basic
import Bundler.Plugin
import Bundler.Text.Blank
import Bundler.Transform.Builtin

/-!
# The standard library

The modules that every configuration can refer to: some well-known functions on texts, and the
bundler's own modules.
-/

namespace Bundler

namespace Transform

/-- A character as it stands in a document with tags. -/
def entityOf (c : Char) : List Char :=
  match c with
  | '&' => "&amp;".toList
  | '<' => "&lt;".toList
  | '>' => "&gt;".toList
  | '"' => "&quot;".toList
  | '\'' => "&#x27;".toList
  | c => [c]

/-- A text whose characters mean no tags. -/
def withEntities (text : String) : String := String.ofList (text.toList.flatMap entityOf)

def valueError (message : String) : Raised := ⟨"ValueError", message, message⟩

/-- A call that is not possible. -/
def typeError (message : String) : Raised := ⟨"TypeError", message, message⟩

variable {ω : Type}

/-- A transform that gives something else than a text. -/
def ofType (name typeName : String) : Transform ω := ofResult name fun _ => .ok (.other typeName)

def raising (name : String) (raised : Raised) : Transform ω := ofResult name fun _ => .error raised

def jsonLoads : Transform ω :=
  ofResult "loads" fun text =>
    match (Data.Json.parse text : Except _ (Data.Value Empty)) with
    | .ok (.string inner) => .ok (.text inner)
    | .ok value => .ok (.other (value.typeName Empty.elim))
    | .error fault => .error (jsonFault fault)

def integer : Transform ω :=
  ofResult "int" fun text =>
    match Data.checkInteger text with
    | .ok () => .ok (.other "int")
    | .error fault => .error (valueError fault.message)

/-- Reads a table. Only the empty text is one. -/
def table : Transform ω :=
  ofResult "dict" fun text =>
    if text = "" then .ok (.other "dict") else .error (valueError (TableFault.notPair 0 1).message)

end Transform

namespace Library

variable {π ω : Type}

/-- A class whose objects are no plugins. -/
def plainMaker (transform : Transform ω) : Thing (Plugin π) ω :=
  .maker ⟨s!"<class '{transform.name}'>", transform, .ok none⟩

def function (transform : Transform ω) : String × Thing (Plugin π) ω :=
  (transform.name, .transform transform)

def statsMaker : Maker (Plugin π) ω where
  shown := "<class 'minipack.plugins.stats.StatsPlugin'>"
  transform := .raising "StatsPlugin" (Transform.typeError
    "StatsPlugin.__init__() takes 1 positional argument but 2 were given")
  make := .ok (some .stats)

/-- The maker of compilers. It needs a configuration. -/
def compilerMaker : Maker (Plugin π) ω where
  shown := "<class 'minipack.core.compiler.Compiler'>"
  transform := .raising "Compiler"
    (let message := (ConfigFault.invalid [⟨[], .notRecord "BundleConfig"⟩]).message
     ⟨"ConfigError", message, message⟩)
  make := .error (.raised (Transform.typeError
    "Compiler.__init__() missing 1 required positional argument: 'config'"))

/-- The maker of rules. A rule needs a pattern. -/
def ruleMaker : Maker (Plugin π) ω where
  shown := "<class 'minipack.config.Rule'>"
  transform := .raising "Rule" (Transform.typeError
    "BaseModel.__init__() takes 1 positional argument but 2 were given")
  make := .error (.invalid "Rule" [⟨[.field "test"], .missing⟩])

/-- Something that can neither be called nor installed. -/
def constant (shown : String) : Thing (Plugin π) ω := .object shown none

/-- The modules that every configuration can refer to. -/
def standard : Library (Plugin π) ω :=
  [{ name := "textwrap"
     members := [function (.ofFunction "dedent" fun text =>
       String.ofList (Text.dedent text.toList))] },
   { name := "html", isPackage := true
     members := [function (.ofFunction "escape" Transform.withEntities)] },
   { name := "json", isPackage := true
     members := [function Transform.jsonLoads, function (.ofFunction "dumps" Data.Json.encodeString)] },
   { name := "builtins"
     members :=
       [function (.ofType "len" "int"), function (.ofFunction "repr" Text.quotedString),
        ("str", plainMaker (.ofFunction "str" id)), ("list", plainMaker (.ofType "list" "list")),
        ("int", plainMaker Transform.integer), ("dict", plainMaker Transform.table)] },
   { name := "os"
     members := [("sep", constant "'/'"), ("path", constant "<module 'posixpath' (frozen)>")] },
   { name := "os.path", ownName := "posixpath"
     members := [function (.ofFunction "join" id), ("sep", constant "'/'")] },
   { name := "minipack", isPackage := true
     members := [("Compiler", .maker compilerMaker)] },
   { name := "minipack.config", members := [("Rule", .maker ruleMaker)] },
   { name := "minipack.errors" },
   { name := "minipack.transforms"
     members := [function Transform.jsonModule, function Transform.textModule] },
   { name := "minipack.core", isPackage := true },
   { name := "minipack.core.compiler", members := [("Compiler", .maker compilerMaker)] },
   { name := "minipack.plugins", isPackage := true },
   { name := "minipack.plugins.stats", members := [("StatsPlugin", .maker statsMaker)] },
   { name := "minipack.utils", isPackage := true }]

end Library
end Bundler
