import Bundler.Artifact
import Bundler.Config.Validate
import Bundler.Hook.Basic
import Bundler.Plugin
import Bundler.Processing

/-!
# Compilers

A compiler holds everything that a run works on. Plugins are installed when it is made, one after the
other, and add callbacks to its hooks; a callback can look at and change the whole compiler. Plugins
from outside are known to a host, which says what installing one does and what a callback does. The host
has the press, too, that bundles are made with.
-/

namespace Bundler

/-- A callback of the bundler's own plugin, given by its place among the plugins, or of another one. -/
inductive Callback (κ : Type)
  | stats (place : Nat) (duty : Duty)
  | foreign (callback : κ)
  deriving DecidableEq, Repr

/-- A plugin that was installed. -/
inductive Installed (π : Type)
  | stats (stats : Stats)
  | foreign (plugin : π)
  deriving DecidableEq, Repr

/-- What a run works on. -/
structure Compiler (π κ ω : Type) where
  config : Config (Plugin π) ω
  root : FilePath
  naming : Naming
  pipeline : Pipeline ω
  graph : Graph := {}
  outputFile : FilePath
  hooks : Hooks (Callback κ) := Hooks.empty
  plugins : List (Installed π) := []
  assets : List (FilePath × String) := []

abbrev Job (π κ ω α : Type) := Attempt (Compiler π κ ω × World ω) Failure α

/-- What lies outside the bundler: the plugins, what they do when they are installed and what their
callbacks do, and the press for bundles. -/
structure Host (π κ ω : Type) where
  library : Library (Plugin π) ω
  shown : π → String
  install : π → Job π κ ω Unit
  perform : κ → List String → Job π κ ω Unit
  press : Press := .standard

namespace Job

variable {π κ ω α : Type}

def compiler : Job π κ ω (Compiler π κ ω) := Attempt.look fun state => .ok state.1

def change (f : Compiler π κ ω → Compiler π κ ω) : Job π κ ω Unit :=
  Attempt.update fun state => (f state.1, state.2)

def outside (act : Act ω α) : Job π κ ω α :=
  Attempt.within (·.2) (fun world state => (state.1, world)) act

def onGraph (build : Build (World ω) Failure α) : Job π κ ω α :=
  Attempt.within (fun state => (state.1.graph, state.2))
    (fun (graph, world) state => ({ state.1 with graph }, world)) build

/-- Does a job with a compiler of its own: what it gave, and the compiler it left. -/
def startWith (compiler : Compiler π κ ω) (job : Job π κ ω α) : Act ω (α × Compiler π κ ω) :=
  fun world =>
    match job.start (compiler, world) with
    | (.ok value, (compiler, world)) => (.ok (value, compiler), world)
    | (.error failure, (_, world)) => (.error failure, world)

def tap (phase : Phase) (label : String) (callback : Callback κ) : Job π κ ω Unit :=
  change fun compiler => { compiler with hooks := compiler.hooks.tap phase label callback }

end Job
end Bundler
