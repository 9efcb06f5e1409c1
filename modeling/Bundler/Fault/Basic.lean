import Bundler.Config.Mistake
import Bundler.Console.Markup
import Bundler.Data.Toml
import Bundler.Files.Tree
import Bundler.Identity
import Bundler.Library.Basic
import Bundler.Load.Retarget
import Bundler.Template.Token
import Bundler.Text.Utf8

/-!
# Faults

`BundleFault` is every way in which bundling is meant to fail: a command reports it and ends. The
other members of `Failure` are not caught by anything here: they come out of transforms, callbacks and
the parts below the bundler, or from inputs that the bundler does not look at closely.
-/

namespace Bundler

inductive ReadReason
  | path (fault : PathFault)
  | notText (fault : Text.Utf8.Fault)
  deriving DecidableEq, Repr

def ReadReason.message : ReadReason → String
  | .path fault => fault.message
  | .notText fault => fault.message

inductive SettingsReason
  | path (fault : PathFault)
  | malformed (fault : Data.Toml.Fault)
  deriving Repr

def SettingsReason.message : SettingsReason → String
  | .path fault => fault.message
  | .malformed fault => fault.message

inductive ConfigFault
  | invalid (mistakes : List Mistake)
  | duplicateEntry (name : String)
  | unreadable (path : FilePath) (reason : SettingsReason)
  | unknownTransform (reference : String)
  | transformNotFound (reference : String) (fault : ImportFault)
  | pluginForm (reference : String)
  | pluginNotFound (reference : String) (fault : ImportFault)
  | notAPlugin (shown : String)
  deriving Repr

def ConfigFault.message : ConfigFault → String
  | .invalid mistakes =>
    "Invalid minipack configuration: " ++ mistakesHeading "BundleConfig" mistakes
  | .duplicateEntry name => s!"Duplicate entry name '{name}'."
  | .unreadable path reason => s!"Cannot read {path}: {reason.message}"
  | .unknownTransform reference => s!"Unknown transform '{reference}'."
  | .transformNotFound reference fault => s!"Cannot load transform '{reference}': {fault.message}"
  | .pluginForm reference =>
    s!"Plugin reference '{reference}' must look like 'package.module:Attr'."
  | .pluginNotFound reference fault => s!"Cannot load plugin '{reference}': {fault.message}"
  | .notAPlugin shown => s!"Plugin {shown} does not define install(compiler)."

/-- Every way in which bundling is meant to fail. -/
inductive BundleFault
  | config (fault : ConfigFault)
  | read (path : FilePath) (reason : ReadReason)
  | write (path : FilePath) (fault : PathFault)
  | notAModule (identity : Identity)
  | load (identity : Identity) (fault : LoadFault)
  | transform (path : FilePath) (rule : String) (raised : Raised)
  | unresolved (identity : Identity) (importer : Option Identity)
  | outside (path root : FilePath)
  | cycle (identities : List Identity)
  deriving Repr

/-- A value that cannot be copied as a table. -/
inductive TableFault
  | notIterable (typeName : String)
  | notSequence (index : Nat)
  | notPair (index length : Nat)
  | unhashable (typeName : String)
  | textIndexedByText
  | listIndexedByText
  | notSearchable (typeName : String)
  deriving DecidableEq, Repr

def TableFault.message : TableFault → String
  | .notIterable typeName => s!"'{typeName}' object is not iterable"
  | .notSequence index =>
    s!"cannot convert dictionary update sequence element #{index} to a sequence"
  | .notPair index length =>
    s!"dictionary update sequence element #{index} has length {length}; 2 is required"
  | .unhashable typeName => s!"unhashable type: '{typeName}'"
  | .textIndexedByText => "string indices must be integers, not 'str'"
  | .listIndexedByText => "list indices must be integers or slices, not str"
  | .notSearchable typeName => s!"argument of type '{typeName}' is not iterable"

/-- The wording for a call of a phase with a wrong number of arguments. -/
structure ArgumentFault where
  hook : String
  expected : List String
  given : Nat
  deriving DecidableEq, Repr

/-- Names in parentheses; a single one is followed by a comma. -/
def namesInParentheses (names : List String) : String :=
  match names with
  | [name] => s!"({Text.quotedString name},)"
  | names => "(" ++ Text.joinWith ", " (names.map Text.quotedString) ++ ")"

def ArgumentFault.message (fault : ArgumentFault) : String :=
  s!"Hook '{fault.hook}' expects arguments {namesInParentheses fault.expected}, got {fault.given}"

/-- Everything that can end a call of the bundler early. -/
inductive Failure
  | bundle (fault : BundleFault)
  | raised (raised : Raised)
  | invalid (record : String) (mistakes : List Mistake)
  | relativeImport (module : String)
  | hugeRepetition
  | path (fault : PathFault)
  | settingsNotText (fault : Text.Utf8.Fault)
  | settingsInteger (fault : Data.Toml.Fault)
  | table (fault : TableFault)
  | literal (fault : Source.LiteralFault)
  | shape (fault : ShapeFault)
  | notOnStack (identity : Identity)
  | template (fault : Template.Fault)
  | markup (fault : Console.MarkupFault)
  | arguments (fault : ArgumentFault)
  | tooDeep
  deriving Repr

def Failure.config (fault : ConfigFault) : Failure := .bundle (.config fault)

end Bundler
