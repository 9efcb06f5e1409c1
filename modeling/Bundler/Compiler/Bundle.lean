import Bundler.Compiler.Run

/-!
# Bundling in one call

A request names what most callers want to say: the entries, the place of the result, rules, plugins
and a root. It is only another way to write a configuration, so everything in it is checked by the
same rules, and a place that is not named keeps its default. Rules or plugins without anything in
them, whatever their type, count as none; any other value of a wrong type is a mistake.
-/

namespace Bundler

/-- What a caller asks for. -/
structure BundleRequest (π ω : Type) where
  entry : Setting (Plugin π) ω
  directory : Setting (Plugin π) ω := .string "dist"
  fileName : Setting (Plugin π) ω := .string "bundle.py"
  rules : Setting (Plugin π) ω := .null
  plugins : Setting (Plugin π) ω := .null
  root : Setting (Plugin π) ω := .null

namespace BundleRequest

variable {π κ ω : Type}

/-- A setting, or no elements where there is nothing in it. -/
def orNone (setting : Setting (Plugin π) ω) : Setting (Plugin π) ω :=
  if setting.isVacant then .list [] else setting

/-- The configuration that says the same. -/
def setting (request : BundleRequest π ω) : Setting (Plugin π) ω :=
  let root := match request.root with
    | .null => []
    | root => [("root", root)]
  .table ([("entry", request.entry),
    ("output", .table [("path", request.directory), ("filename", request.fileName)]),
    ("rules", orNone request.rules), ("plugins", orNone request.plugins)] ++ root)

def run (host : Host π κ ω) (request : BundleRequest π ω) : Act ω BundleResult := do
  let (result, _) ← Job.startWith (← Compiler.ofSetting host request.setting) (Job.run host)
  return result

end BundleRequest
end Bundler
