import Bundler.Data.Json
import Bundler.Transform.Basic

/-!
# The transforms at hand

Two transforms make a module of a file that is none: one holds the file's text, the other the value of
a JSON document.
-/

namespace Bundler

namespace Transform

def jsonFault (fault : Data.Json.Fault) : Raised :=
  match fault with
  | .malformed .. => ⟨"JSONDecodeError", fault.message, fault.message⟩
  | .integerTooLong _ => ⟨"ValueError", fault.message, fault.message⟩

/-- A module that decodes a document when it runs. -/
def jsonModuleText (text : String) : String :=
  s!"import json as _json\n\ndata = _json.loads({Text.quotedString text})\n"

def textModuleText (text : String) : String :=
  s!"text = {Text.quotedString text}\n"

variable {ω : Type}

/-- Makes a module of a JSON document. A text that is no document is refused. -/
def jsonModule : Transform ω :=
  ofResult "json_module" fun text =>
    match (Data.Json.parse text : Except _ (Data.Value Empty)) with
    | .ok _ => .ok (.text (jsonModuleText text))
    | .error fault => .error (jsonFault fault)

def textModule : Transform ω := ofFunction "text_module" textModuleText

/-- The transforms that every project can refer to by a short name. -/
def builtins : List (String × Transform ω) := [("json", jsonModule), ("text", textModule)]

end Transform
end Bundler
