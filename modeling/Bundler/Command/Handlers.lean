import Bundler.Command.Arguments
import Bundler.Compiler.Run
import Bundler.Config.Entry
import Bundler.Config.Settings
import Bundler.Console.Table
import Bundler.Fault.Report

/-!
# Commands

One command writes a bundle, the other one shows the graph of modules and writes nothing. Faults of
bundling are logged and end a command with a status of its own; other failures are not held up.
-/

namespace Bundler.Command

variable {π κ ω : Type}

def success : Nat := 0

def failed : Nat := 1

def misused : Nat := 2

/-- The configuration that options stand for, in the world as it is. -/
def loadConfig (options : Options) : Act ω (Config (Plugin π) ω) :=
  World.files fun tree => do
    let entries ← Config.entriesOfArguments tree.current (options.entries.getD [])
    let directory ← (options.out.mapM fun out =>
      tree.current.resolve? (.ofString out)).mapError .path
    Config.load tree (options.configDir.map .ofString)
      { entries, directory, fileName := options.filename, root := options.root.map .ofString }

def faultNotice (fault : BundleFault) : String :=
  s!"{fault.report.kind.name}: {Console.escape fault.report.message}"

/-- Does something and logs a fault of bundling: what it gave, if there was none. -/
def reporting {α : Type} (act : Act ω α) : Act ω (Option α) := fun world =>
  match act world with
  | (.ok value, world) => (.ok (some value), world)
  | (.error (.bundle fault), world) =>
    Attempt.start (do World.log .error (faultNotice fault); return none) world
  | (.error failure, world) => (.error failure, world)

def compiling {α : Type} (host : Host π κ ω) (options : Options) (job : Job π κ ω α) :
    Act ω (α × Compiler π κ ω) := do
  Job.startWith (← Compiler.ofConfig host (← loadConfig options)) job

/-- The first line of the command that writes a bundle. -/
def greeting : String := "[bold]minipack[/bold] bundling..."

/-- The last line of the command that writes a bundle. -/
def summary (result : BundleResult) : String :=
  s!"{result.modules.length} modules -> [path]{result.outputFile}[/path]"

def bundle (host : Host π κ ω) (options : Options) : Act ω Nat := do
  World.print greeting
  match ← reporting (compiling host options (Job.run host)) with
  | some (result, _) =>
    World.print (summary result)
    return success
  | none => return failed

/-- The texts without those that came before. -/
def distinct (texts : List String) : List String :=
  texts.foldl (fun seen text => if seen.contains text then seen else seen ++ [text]) []

/-- The name of the last entry that is a module. -/
def entryName (graph : Graph) (identity : Identity) : String :=
  ((graph.entries.reverse.find? (·.2 = identity)).map (·.1)).getD ""

/-- The row of a module: its name as an entry, its identity and the modules it loads. -/
def moduleRow (graph : Graph) (module : ModuleRecord) : List String :=
  let dependencies := distinct module.dependencies
  [entryName graph module.identity, module.identity,
   if dependencies = [] then "-" else Text.joinWith ", " dependencies]

def graphTable (graph : Graph) : Table where
  title := "Module Graph"
  headings := ["Entry", "Module", "Dependencies"]
  rows := graph.modules.map fun (_, module) => moduleRow graph module

def printTable (table : Table) : Act ω Unit := fun world =>
  match table.lines world.console.words world.console.width with
  | .ok lines => (.ok (), { world with console := world.console.write world.console.backend lines })
  | .error fault => (.error (.markup fault), world)

/-- The last line of the command that shows a graph. -/
def graphSummary (graph : Graph) : String :=
  s!"{graph.modules.length} modules reachable from {graph.entries.length} entries."

/-- Shows the graph of modules. -/
def graph (host : Host π κ ω) (options : Options) : Act ω Nat := do
  match ← reporting (compiling host options Job.build) with
  | some (_, compiler) =>
    printTable (graphTable compiler.graph)
    World.log .success (graphSummary compiler.graph)
    return success
  | none => return failed

/-- What a command line ends with: a status, and what is shown apart from the console. -/
structure Ending where
  status : Nat
  shown : Option String := none
  deriving DecidableEq, Repr

/-- The ending of a command line that leads to no command. How to use the bundler is not told here. -/
def Stop.ending : Stop → Ending
  | .help => ⟨success, some ""⟩
  | .version => ⟨success, some s!"minipack {Bundler.version}\n"⟩
  | .misuse => ⟨misused, some ""⟩

def perform (host : Host π κ ω) (options : Options) : Name → Act ω Nat
  | .bundle => bundle host options
  | .graph => graph host options

def raiseVerbosity : Act ω Unit :=
  Attempt.update fun world => { world with console := world.console.setLevel Level.debug.number }

/-- Does what a command line says. -/
def execute (host : Host π κ ω) (arguments : List String) : Act ω Ending :=
  match parse arguments with
  | .error stop => pure stop.ending
  | .ok (name, options) => do
    if options.verbose then raiseVerbosity
    return ⟨← perform host options name, none⟩

end Bundler.Command
