import Bundler.Compiler.Install

/-!
# Runs

A run resolves the entries, builds the graph and writes the bundle; at the border of each stage it
calls the hooks of a phase. Any failure ends the run. Nothing is written before the graph is complete.
-/

namespace Bundler

structure BundleResult where
  outputFile : FilePath
  entries : List (String × Identity)
  modules : List Identity
  deriving DecidableEq, Repr

def runStatus : String := "minipack run"

def doneStatus : String := "minipack done"

namespace Compiler

variable {π κ ω : Type}

/-- The entries as absolute paths. -/
def entryPaths (compiler : Compiler π κ ω) : Except Failure (List (String × FilePath)) :=
  compiler.config.entries.mapM fun (name, path) => do
    return (name, ← (compiler.root.resolve? path).mapError .path)

def artifact (compiler : Compiler π κ ω) : Artifact where
  runtime := compiler.naming.runtime
  modules := compiler.graph.codes
  entries := compiler.graph.entries

def result (compiler : Compiler π κ ω) : BundleResult where
  outputFile := compiler.outputFile
  entries := compiler.graph.entries
  modules := compiler.graph.identities

def changeStats (compiler : Compiler π κ ω) (place : Nat) (f : Stats → Stats) : Compiler π κ ω :=
  { compiler with
    plugins := compiler.plugins.modify place fun
      | .stats stats => .stats (f stats)
      | plugin => plugin }

def statsAt (compiler : Compiler π κ ω) (place : Nat) : Stats :=
  match compiler.plugins[place]? with
  | some (.stats stats) => stats
  | _ => {}

/-- The characters written to the result. -/
def writtenSize (compiler : Compiler π κ ω) : Nat :=
  (((compiler.assets.find? fun asset => asset.1 = compiler.outputFile).map (·.2)).getD "").length

/-- The compiler with a text as what was written to the result. -/
def addAsset (compiler : Compiler π κ ω) (text : String) : Compiler π κ ω :=
  { compiler with
    assets := (compiler.assets.filter fun asset => asset.1 ≠ compiler.outputFile)
      ++ [(compiler.outputFile, text)] }

end Compiler

namespace Job

variable {π κ ω : Type}

/-- Does a duty of the plugin that keeps statistics. -/
def doDuty (place : Nat) (arguments : List String) : Duty → Job π κ ω Unit
  | .start => pure ()
  | .stop stage => change fun compiler => compiler.changeStats place fun stats => stats.finish stage
  | .countModules => change fun compiler =>
      compiler.changeStats place fun stats => { stats with moduleCount := compiler.graph.modules.length }
  | .measureOutput => change fun compiler =>
      compiler.changeStats place fun stats => { stats with bundleSize := compiler.writtenSize }
  | .report => do
    let stats := (← compiler).statsAt place
    outside (World.log .info (stats.report (Text.joinWith " " arguments)))

def perform (host : Host π κ ω) : Callback κ → List String → Job π κ ω Unit
  | .stats place duty, arguments => doDuty place arguments duty
  | .foreign callback, arguments => host.perform callback arguments

def phase (host : Host π κ ω) (phase : Phase) (arguments : List String := []) : Job π κ ω Unit := do
  Hook.call Failure.arguments (perform host) ((← compiler).hooks phase) arguments

def resolveEntries : Job π κ ω (List (String × FilePath)) := do
  Attempt.ofExcept (← compiler).entryPaths

/-- Builds the graph of an entry. -/
def buildEntry (name : String) (path : FilePath) : Job π κ ω Identity := do
  let compiler ← compiler
  onGraph (Processing.build compiler.root compiler.naming compiler.pipeline (some name) path)

/-- Builds the graph of entries. -/
def compile (entries : List (String × FilePath)) : Job π κ ω Unit :=
  entries.forM fun (name, path) => discard (buildEntry name path)

/-- Builds the graph of all entries, without a bundle. -/
def build : Job π κ ω Unit := do compile (← resolveEntries)

def render (press : Press := .standard) : Job π κ ω String := do
  let compiler ← compiler
  outside (compiler.artifact.render compiler.pipeline press)

def emit (press : Press := .standard) : Job π κ ω String := do
  let compiler ← compiler
  let text ← outside (compiler.artifact.emit compiler.pipeline compiler.outputFile press)
  change fun compiler => compiler.addAsset text
  return text

def builtNotice (modules entries : Nat) : String :=
  let plural := if entries = 1 then "y" else "ies"
  s!"Built {modules} modules from {entries} entr{plural}"

def writtenNotice (path : FilePath) : String := s!"Bundle written to [path]{path}[/path]"

def runEntries (host : Host π κ ω) : Job π κ ω (List (String × FilePath)) := do
  phase host .beforeEntryOptions
  let entries ← resolveEntries
  phase host .afterEntryOptions
  return entries

def runCompile (host : Host π κ ω) (entries : List (String × FilePath)) : Job π κ ω Unit := do
  phase host .beforeCompile
  compile entries
  phase host .afterCompile
  outside (World.log .info (builtNotice (← compiler).graph.modules.length entries.length))

def runEmit (host : Host π κ ω) : Job π κ ω Unit := do
  phase host .beforeEmitFile
  discard (emit host.press)
  phase host .afterEmitFile
  outside (World.log .success (writtenNotice (← compiler).outputFile))

def run (host : Host π κ ω) : Job π κ ω BundleResult := do
  phase host .run [runStatus]
  let entries ← runEntries host
  runCompile host entries
  runEmit host
  phase host .done [doneStatus]
  return (← compiler).result

end Job
end Bundler
