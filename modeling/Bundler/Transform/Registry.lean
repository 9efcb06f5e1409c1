import Bundler.Fault.Basic
import Bundler.Library.Basic
import Bundler.Transform.Builtin

/-!
# The registry of transforms

Transforms can be registered under short names. The ones at hand come in with the first look-up, and
again with the first look-up after the registry was cleared; they take the place of what stands under
their names.
-/

namespace Bundler

/-- Registered transforms, and whether the ones at hand came in. -/
structure Registry (ω : Type) where
  names : List (String × Transform ω) := []
  loaded : Bool := false

namespace Registry

variable {π ω : Type}

def register (registry : Registry ω) (name : String) (transform : Transform ω) : Registry ω :=
  { registry with names := Data.setField name transform registry.names }

/-- Forgets everything. -/
def clear (_ : Registry ω) : Registry ω := {}

/-- Brings in the transforms at hand. -/
def load (registry : Registry ω) : Registry ω :=
  if registry.loaded then registry
  else
    let full := Transform.builtins.foldl (fun all (name, transform) => all.register name transform) registry
    { full with loaded := true }

def find? (registry : Registry ω) (name : String) : Option (Transform ω) × Registry ω :=
  let registry := registry.load
  (Data.fieldOf? name registry.names, registry)

/-- The transform that a reference into a library means. -/
def imported (library : Library π ω) (reference : String) : Except Failure (Transform ω) :=
  let (module, member) := splitReference reference
  if module = "" ∨ member = "" then .error (.config (.unknownTransform reference))
  else if module.startsWith "." then .error (.relativeImport module)
  else
    match library.member module member with
    | .error fault => .error (.config (.transformNotFound reference fault))
    | .ok thing =>
      match thing.transform? with
      | some transform => .ok transform
      | none => .error (.config (.unknownTransform reference))

/-- The transform that a rule means. -/
def resolve (library : Library π ω) :
    TransformRef ω → Attempt (Registry ω) Failure (Transform ω)
  | .direct transform => pure transform
  | .named reference => fun registry =>
    match registry.find? reference with
    | (some transform, registry) => (.ok transform, registry)
    | (none, registry) => (imported library reference, registry)

end Registry
end Bundler
