import Bundler.Graph.Basic
import Bundler.Load.Retarget
import Bundler.Pipeline

/-!
# Processing modules

What a graph of modules needs of a world: a file's text goes through the rules and then has its load
calls retargeted.
-/

namespace Bundler

namespace Processing

variable {ω : Type}

def retargetFailure (identity : Identity) : RetargetFault → Failure
  | .notAModule => .bundle (.notAModule identity)
  | .shape fault => .shape fault
  | .load (.literal fault) => .literal fault
  | .load fault => .bundle (.load identity fault)

def graphFailure : GraphFault → Failure
  | .outside path root => .bundle (.outside path root)
  | .missing identity importer => .bundle (.unresolved identity importer)
  | .cycle identities => .bundle (.cycle identities)
  | .notOnStack identity => .notOnStack identity
  | .tooDeep => .tooDeep

def notice (identity : Identity) (count : Nat) : String :=
  s!"Built [path]{identity}[/path] ({count} dependencies)"

/-- The code of a module and the modules it loads. -/
def process (naming : Naming) (pipeline : Pipeline ω) (path : FilePath) (identity : Identity) :
    Act ω (String × List Identity) := do
  let text ← pipeline.load path
  let (code, dependencies) ← Attempt.ofExcept
    ((Load.retargetText naming identity.directory text).mapError (retargetFailure identity))
  World.log .debug (notice identity dependencies.length)
  return (code, dependencies)

/-- What a graph needs of a world. -/
def surroundings (root : FilePath) (naming : Naming) (pipeline : Pipeline ω) :
    Surroundings (World ω) Failure where
  root
  isFile path := World.files fun tree => (tree.isFile path).mapError .path
  process := process naming pipeline
  fault := graphFailure

/-- Builds a module and the modules it loads, perhaps as an entry. Modules in progress are files, each
only once, so they cannot lie deeper inside one another than there are files. -/
def build (root : FilePath) (naming : Naming) (pipeline : Pipeline ω) (entry : Option String)
    (path : FilePath) : Build (World ω) Failure Identity := fun state =>
  Build.start (surroundings root naming pipeline) (state.2.tree.nodes.length + 2) entry path state

end Processing
end Bundler
