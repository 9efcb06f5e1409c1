import Bundler.Compiler.Basic
import Bundler.Library.Standard

/-!
# Making a compiler

A configuration becomes a compiler in two steps: the references in its rules are resolved, and its
plugins are installed in their order.
-/

namespace Bundler

variable {π κ ω : Type}

/-- A member of a library that a plugin reference means. -/
def pluginMember (library : Library (Plugin π) ω) (reference : String) :
    Except Failure (Thing (Plugin π) ω) :=
  let (module, member) := splitReference reference
  if module = "" ∨ member = "" then .error (.config (.pluginForm reference))
  else if module.startsWith "." then .error (.relativeImport module)
  else (library.member module member).mapError fun fault => .config (.pluginNotFound reference fault)

/-- The plugin that something is, or makes. -/
def pluginOf (shown : String) : Thing (Plugin π) ω → Except Failure (Plugin π)
  | .object _ (some plugin) => .ok plugin
  | .maker inner =>
    match inner.make with
    | .ok (some plugin) => .ok plugin
    | .ok none => .error (.config (.notAPlugin shown))
    | .error (.raised raised) => .error (.raised raised)
    | .error (.invalid record mistakes) => .error (.invalid record mistakes)
  | _ => .error (.config (.notAPlugin shown))

/-- The plugin that a setting means: a reference, something that makes a plugin, or a plugin. -/
def loadPlugin (library : Library (Plugin π) ω) (setting : Setting (Plugin π) ω) :
    Except Failure (Plugin π) :=
  let shown := setting.shown Thing.shown
  match setting with
  | .string reference => do pluginOf shown (← pluginMember library reference)
  | .foreign thing => pluginOf shown thing
  | _ => .error (.config (.notAPlugin shown))

namespace Job

/-- Installs the bundler's own plugin. -/
def installStats : Job π κ ω Unit := do
  let place := (← compiler).plugins.length
  Stats.duties.forM fun (phase, duty) => tap phase Stats.label (.stats place duty)

def install (host : Host π κ ω) (setting : Setting (Plugin π) ω) : Job π κ ω Unit := do
  match ← Attempt.ofExcept (loadPlugin host.library setting) with
  | .stats =>
    installStats
    change fun compiler => { compiler with plugins := compiler.plugins ++ [.stats {}] }
  | .foreign plugin =>
    host.install plugin
    change fun compiler => { compiler with plugins := compiler.plugins ++ [.foreign plugin] }

end Job

namespace Compiler

/-- The compiler of a configuration, before any plugin is installed. -/
def prepare (library : Library (Plugin π) ω) (config : Config (Plugin π) ω) :
    Act ω (Compiler π κ ω) := do
  let root ← World.files fun tree => (tree.current.resolve? config.root).mapError .path
  let pipeline ← World.withRegistry (Pipeline.ofRules library config.rules)
  return { config, root, naming := config.naming, pipeline, outputFile := config.outputFile }

def ofConfig (host : Host π κ ω) (config : Config (Plugin π) ω) : Act ω (Compiler π κ ω) := do
  let installed ← Job.startWith (← prepare host.library config) (config.plugins.forM (Job.install host))
  return installed.2

/-- The compiler of a configuration that was not checked yet. -/
def ofSetting (host : Host π κ ω) (setting : Setting (Plugin π) ω) : Act ω (Compiler π κ ω) := do
  let config ← World.files fun tree => Config.ofSetting tree.current setting
  ofConfig host config

end Compiler
end Bundler
