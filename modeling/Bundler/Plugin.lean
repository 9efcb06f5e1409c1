import Bundler.Hook.Phase

/-!
# Plugins

A plugin is the bundler's own one or a foreign one. The bundler's own plugin keeps statistics: it counts the
modules and the characters of a bundle, and knows which stages of a run came to their end.
-/

namespace Bundler

inductive Plugin (π : Type)
  | stats
  | foreign (plugin : π)

/-- What the plugin knows. -/
structure Stats where
  moduleCount : Nat := 0
  bundleSize : Nat := 0
  stages : List String := []
  deriving DecidableEq, Repr

/-- What the plugin does in a phase. -/
inductive Duty
  | start
  | stop (stage : String)
  | countModules
  | measureOutput
  | report
  deriving DecidableEq, Repr

namespace Stats

def label : String := "stats"

def duties : List (Phase × Duty) :=
  [(.beforeEntryOptions, .start), (.afterEntryOptions, .stop "entry"), (.beforeCompile, .start),
   (.afterCompile, .stop "compile"), (.afterCompile, .countModules), (.beforeEmitFile, .start),
   (.afterEmitFile, .stop "emit"), (.afterEmitFile, .measureOutput), (.done, .report)]

/-- Notes that a stage came to its end. -/
def finish (stats : Stats) (stage : String) : Stats :=
  if stats.stages.contains stage then stats else { stats with stages := stats.stages ++ [stage] }

/-- The report at the end of a run. -/
def report (stats : Stats) (status : String) : String :=
  s!"{status}: {stats.moduleCount} modules, {stats.bundleSize} chars"

end Stats
end Bundler
