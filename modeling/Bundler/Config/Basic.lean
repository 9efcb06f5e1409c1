import Bundler.Data.Value
import Bundler.Load.Call
import Bundler.Library.Basic
import Bundler.Regex.Match

/-!
# Configurations

A configuration names the entries of a bundle, the rules for loading files, the place of the result,
the plugins, the project's root and the names that loading goes by.
-/

namespace Bundler

/-- Where the bundle is written. -/
structure OutputOptions where
  directory : FilePath := .ofString "dist"
  fileName : String := "bundle.py"
  deriving DecidableEq, Repr

/-- The name of an entry that is given without one. -/
def defaultEntryName : String := "main"

/-- A value as a caller puts it into a configuration. -/
abbrev Setting (π ω : Type) := Data.Value (Thing π ω)

/-- A configuration that was checked. -/
structure Config (π ω : Type) where
  entries : List (String × FilePath)
  rules : List (Rule (TransformRef ω)) := []
  output : OutputOptions := {}
  plugins : List (Setting π ω) := []
  root : FilePath
  naming : Naming := {}

namespace Config

variable {π ω : Type}

/-- The file that the bundle is written to: a relative directory is one below the root. -/
def outputFile (config : Config π ω) : FilePath :=
  (config.root.join config.output.directory).join (.ofString config.output.fileName)

end Config

def Rule.matches {τ : Type} (rule : Rule τ) (path : FilePath) : Bool :=
  Regex.search rule.pattern path.toString

end Bundler
