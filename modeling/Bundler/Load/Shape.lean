import Bundler.Grammar.Tree
import Bundler.Source.Literal

/-!
# The shape of a module

A few things that the grammar lets pass are refused all the same: text and bytes side by side in one
literal, and a name that follows a word with nothing between them. The latter is possible only where
parentheses were taken away that kept the two apart.
-/

namespace Bundler

open Grammar Source

/-- A place where nothing stands between a word and the name after it. -/
inductive Gap
  | negation
  | connective
  | comparison
  | await
  | keyword (word : String)
  | statement (word : String)
  | context
  | handler
  | renaming
  deriving DecidableEq, Repr

/-- Why a module of the right grammar is refused. -/
inductive ShapeFault
  | mixedStrings
  | noGap (gap : Gap)
  deriving DecidableEq, Repr

def ShapeFault.message : ShapeFault → String
  | .mixedStrings => "Cannot concatenate string and bytes."
  | .noGap .negation => "Must have at least one space after not operator."
  | .noGap .connective => "Must have at least one space around boolean operator."
  | .noGap .comparison => "Must have at least one space around comparison operator."
  | .noGap .await => "Must have at least one space after await"
  | .noGap (.keyword word) => s!"Must have at least one space after '{word}' keyword."
  | .noGap (.statement word) => s!"Must have at least one space after '{word}'."
  | .noGap .context => "Must have at least one space after with keyword."
  | .noGap .handler => "Must have at least one space after except when ExceptHandler has a type."
  | .noGap .renaming => "There must be at least one space between 'as' and name."

namespace Shape

def isBytes : Tree → Bool
  | .leaf token => ((stringParts? token.text).map fun parts => parts.1.contains 'b').getD false
  | .node .. => false

/-- All literals of a sequence hold text, or all hold bytes. -/
def isUniform (literals : List Tree) : Bool :=
  literals.all isBytes || literals.all fun literal => !isBytes literal

/-- The gap that a word of a statement asks for. The word at the beginning of the statement and one
further inside may mean different things. -/
def statementGap? (first : Bool) (word : String) : Option Gap :=
  match word with
  | "return" | "raise" | "assert" | "del" => some (.statement word)
  | "if" => if first then some (.keyword word) else none
  | "elif" => some (.keyword "if")
  | "while" | "for" | "in" | "from" => some (.keyword word)
  | "with" => some .context
  | "except" => some .handler
  | "as" => some .renaming
  | _ => none

/-- The gap that a word in a node asks for. -/
def gap? (node : Node) (first : Bool) (word : String) : Option Gap :=
  match node with
  | .unary => if word = "not" then some .negation else none
  | .boolean => if word = "and" ∨ word = "or" then some .connective else none
  | .comparison => if word = "in" ∨ word = "is" ∨ word = "not" then some .comparison else none
  | .await => if word = "await" then some .await else none
  | .yield => if word = "yield" ∨ word = "from" then some (.keyword word) else none
  | .conditional => if word = "if" ∨ word = "else" then some (.keyword word) else none
  | .generator | .listComprehension | .setComprehension | .dictComprehension =>
    if word = "for" ∨ word = "in" ∨ word = "if" then some (.keyword word) else none
  | .statement | .block => statementGap? first word
  | _ => none

/-- A tree starts with a name that nothing stands before. -/
def startsWithName (tree : Tree) : Bool :=
  match tree.leaves with
  | token :: _ => token.kind = .name && token.before.isEmpty && token.margin.isEmpty
  | [] => false

/-- The first gap that is missing among the children of a node. -/
def missingGap? (node : Node) : Bool → List Tree → Option Gap
  | first, .leaf token :: next :: rest =>
    if token.kind = .name && startsWithName next then
      (gap? node first (String.ofList token.text)).or (missingGap? node false (next :: rest))
    else missingGap? node false (next :: rest)
  | _, _ :: rest => missingGap? node false rest
  | _, [] => none

mutual

/-- The first fault in a tree, found from the leaves up, by a test on the nodes. -/
def faultIn? (test : Node → List Tree → Option ShapeFault) : Tree → Option ShapeFault
  | .leaf _ => none
  | .node kind children => (faultAmong? test children).or (test kind children)

def faultAmong? (test : Node → List Tree → Option ShapeFault) : List Tree → Option ShapeFault
  | [] => none
  | tree :: rest => (faultIn? test tree).or (faultAmong? test rest)

end

/-- Text and bytes side by side. -/
def mixed? (node : Node) (children : List Tree) : Option ShapeFault :=
  if node = .concatenated && !isUniform children then some .mixedStrings else none

/-- A name that follows a word with nothing between them. -/
def crowded? (node : Node) (children : List Tree) : Option ShapeFault :=
  (missingGap? node true children).map .noGap

def check (test : Node → List Tree → Option ShapeFault) (module : List Tree) :
    Except ShapeFault Unit :=
  match faultAmong? test module with
  | some fault => .error fault
  | none => .ok ()

end Shape
end Bundler
