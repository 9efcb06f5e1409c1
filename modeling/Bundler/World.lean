import Bundler.Console.Basic
import Bundler.Files.Tree
import Bundler.Transform.Registry

/-!
# The world of a run

What a run of the bundler sees and changes: the files, the console, the registered transforms, and a
memory for the transforms and plugins from outside.
-/

namespace Bundler

/-- What a run sees and changes. -/
structure World (ω : Type) where
  tree : FileTree
  console : Console
  registry : Registry ω
  memory : ω

abbrev Act (ω α : Type) := Attempt (World ω) Failure α

namespace World

variable {ω α : Type}

def log (level : Level) (message : String) : Act ω Unit := fun world =>
  match world.console.log level message with
  | .ok console => (.ok (), { world with console })
  | .error fault => (.error (.markup fault), world)

def print (message : String) : Act ω Unit := fun world =>
  match world.console.print message with
  | .ok console => (.ok (), { world with console })
  | .error fault => (.error (.markup fault), world)

def withMemory {ε : Type} (attempt : Attempt ω ε α) : Attempt (World ω) ε α :=
  attempt.within (·.memory) fun memory world => { world with memory }

def withRegistry (attempt : Attempt (Registry ω) Failure α) : Act ω α :=
  attempt.within (·.registry) fun registry world => { world with registry }

def files (f : FileTree → Except Failure α) : Act ω α := Attempt.look fun world => f world.tree

end World
end Bundler
