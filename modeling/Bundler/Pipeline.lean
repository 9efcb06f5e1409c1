import Bundler.Config.Basic
import Bundler.Text.Pieces
import Bundler.World

/-!
# Loading files through rules

The text of a file goes through every rule with a match in the file's path, in the order of the rules;
within a rule the chain's last transform comes first. References are resolved when a pipeline is made,
so that no file is read for the sake of a wrong one.
-/

namespace Bundler

/-- Rules whose transforms are known. -/
abbrev Pipeline (ω : Type) := List (Rule (Transform ω))

namespace Pipeline

variable {π ω : Type}

def resolveRule (library : Library π ω) (rule : Rule (TransformRef ω)) :
    Attempt (Registry ω) Failure (Rule (Transform ω)) := do
  let use ← rule.use.mapM (Registry.resolve library)
  return { test := rule.test, pattern := rule.pattern, use }

def ofRules (library : Library π ω) (rules : List (Rule (TransformRef ω))) :
    Attempt (Registry ω) Failure (Pipeline ω) :=
  rules.mapM (resolveRule library)

def notice (rule : Rule (Transform ω)) (path : FilePath) : String :=
  s!"Applying rule [code]{Console.escape rule.test}[/code] to [path]{path}[/path]"

def applyRule (path : FilePath) (rule : Rule (Transform ω)) (text : String) : Act ω String :=
  Attempt.mapFault (fun raised => .bundle (.transform path rule.test raised))
    (World.withMemory (applyChain rule.use text))

def transform (path : FilePath) : Pipeline ω → String → Act ω String
  | [], text => pure text
  | rule :: rest, text =>
    if rule.matches path then do
      World.log .debug (notice rule path)
      transform path rest (← applyRule path rule text)
    else transform path rest text

/-- The text of a file, with every line break the same. -/
def readText (tree : FileTree) (path : FilePath) : Except Failure String :=
  match tree.read path with
  | .error .null => .error (.path .null)
  | .error fault => .error (.bundle (.read path (.path fault)))
  | .ok bytes =>
    match Text.Utf8.decode bytes with
    | .ok text => .ok (String.ofList (Text.uniformBreaks text.toList))
    | .error fault => .error (.bundle (.read path (.notText fault)))

def load (pipeline : Pipeline ω) (path : FilePath) : Act ω String := do
  pipeline.transform path (← World.files (readText · path))

end Pipeline
end Bundler
