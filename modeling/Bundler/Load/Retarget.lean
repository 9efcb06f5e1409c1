import Bundler.Load.Call
import Bundler.Load.Shape
import Bundler.Text.Quoted

/-!
# Retargeting load calls

A module in a bundle calls the bundle's own load function and names the modules it needs by identity.
`retarget` changes the load calls of a syntax tree in this way and lists the identities in the order
in which the calls begin. Nothing else in the tree changes.
-/

namespace Bundler

open Grammar Source

/-- Why a module's text cannot be put into a bundle. -/
inductive RetargetFault
  | notAModule
  | shape (fault : ShapeFault)
  | load (fault : LoadFault)
  deriving DecidableEq, Repr

namespace Load

/-- A literal for an identity, in the quotes of another literal where the identity allows it. -/
def literalLike (literal : List Char) (identity : Identity) : List Char :=
  let chars := identity.toList
  let quotes := ((stringParts? literal).map fun parts => parts.2.1).getD ['"']
  if chars.contains '\\' || chars.contains (quotes.headD '"') || chars.contains '\n' then
    Text.quoted chars
  else quotes ++ chars ++ quotes

/-- A token that takes the place of a tree. -/
def replace (tree : Tree) (kind : TokenKind) (text : List Char) : Tree :=
  match tree.leaves with
  | first :: _ => .leaf { first with kind := kind, text := text }
  | [] => .leaf ⟨kind, [], [], text⟩

/-- The argument of a load call with another literal as its value. -/
def replaceValue (text : List Char) : Tree → Tree
  | .node .argument [value] => .node .argument [replace value .string text]
  | tree => tree

mutual

/-- The tree with its load calls retargeted, and the identities they name. -/
def retarget (naming : Naming) (directory : String) :
    Tree → Except LoadFault (Tree × List Identity)
  | .leaf token => .ok (.leaf token, [])
  | .node kind children =>
    match callOf? naming.load (.node kind children) with
    | some (callee, rest) => do
      let literal ← literalOf naming.load rest
      let identity ← identityOf naming directory literal
      let callee := replace callee .name naming.runtime.toList
      let rest := rest.map (replaceValue (literalLike literal.text identity))
      return (.node kind (callee :: rest), [identity])
    | none => do
      let (children, identities) ← retargetAll naming directory children
      return (.node kind children, identities)

def retargetAll (naming : Naming) (directory : String) :
    List Tree → Except LoadFault (List Tree × List Identity)
  | [] => .ok ([], [])
  | tree :: rest => do
    let (tree, first) ← retarget naming directory tree
    let (rest, others) ← retargetAll naming directory rest
    return (tree :: rest, first ++ others)

end

/-- The text of a module in a bundle, and the modules it loads, in the order of its load calls. -/
def retargetText (naming : Naming) (directory text : String) :
    Except RetargetFault (String × List Identity) := do
  match read text.toList with
  | none => .error .notAModule
  | some module =>
    (Shape.check Shape.mixed? module).mapError .shape
    let (module, identities) ← (retargetAll naming directory module).mapError .load
    (Shape.check Shape.crowded? module).mapError .shape
    return (String.ofList (print module), identities)

end Load
end Bundler
