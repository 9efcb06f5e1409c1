import Bundler.Grammar.Module
import Bundler.Identity
import Bundler.Source.Literal

/-!
# Load calls

A module asks for another one by calling the load function, a bare name, with one string literal. The
functions here find such calls in a syntax tree and say which module one asks for.
-/

namespace Bundler

open Grammar Source

/-- What names in load calls mean: the function that modules call, the function of the finished bundle, the
extension of a target that has none, and the characters that escapes in a target stand for. -/
structure Naming where
  load : String := "require"
  runtime : String := "__bundle_require__"
  extension : String := ".py"
  characters : Text.Characters := .standard

inductive LoadFault
  | argumentCount (function : String) (count : Nat)
  | notPositional (function : String)
  | notLiteral (function kind : String)
  | bytes (function : String)
  | literal (fault : LiteralFault)
  | target (fault : TargetFault)
  deriving DecidableEq, Repr

def LoadFault.message : LoadFault → String
  | .argumentCount function count => s!"{function}() takes exactly one argument, got {count}."
  | .notPositional function => s!"{function}() target must be a positional string literal."
  | .notLiteral function kind => s!"{function}() target must be a string literal, got {kind}."
  | .bytes function => s!"{function}() target must be a text string, not bytes."
  | .literal fault => fault.message
  | .target fault => fault.message

namespace Load

/-- The expression inside all parentheses around it. -/
def bare : Tree → Tree
  | .node .group [_, inner, _] => bare inner
  | tree => tree

/-- The name of a kind of number, by the spelling of the number. -/
def numberKind (text : List Char) : String :=
  if isImaginary text then "Imaginary"
  else
    match text with
    | '0' :: letter :: _ =>
      if (radixDigits? letter).isSome then "Integer"
      else if text.any fun c => c == '.' || c == 'e' || c == 'E' then "Float" else "Integer"
    | _ => if text.any fun c => c == '.' || c == 'e' || c == 'E' then "Float" else "Integer"

def nodeKind : Node → String
  | .tuple => "Tuple"
  | .list => "List"
  | .set => "Set"
  | .dict => "Dict"
  | .listComprehension => "ListComp"
  | .setComprehension => "SetComp"
  | .dictComprehension => "DictComp"
  | .generator => "GeneratorExp"
  | .call => "Call"
  | .attribute => "Attribute"
  | .subscript => "Subscript"
  | .await => "Await"
  | .unary => "UnaryOperation"
  | .binary => "BinaryOperation"
  | .boolean => "BooleanOperation"
  | .comparison => "Comparison"
  | .conditional => "IfExp"
  | .lambda => "Lambda"
  | .named => "NamedExpr"
  | .yield => "Yield"
  | .formatted => "FormattedString"
  | .templated => "TemplatedString"
  | .concatenated => "ConcatenatedString"
  | _ => "Expression"

def kindName : Tree → String
  | .leaf token =>
    match token.kind with
    | .number => numberKind token.text
    | .string => "SimpleString"
    | .operator => "Ellipsis"
    | _ => "Name"
  | .node kind _ => nodeKind kind

def arguments (trees : List Tree) : List (Node × Tree) :=
  trees.filterMap fun
    | .node .argument [value] => some (.argument, value)
    | .node .generator children => some (.argument, .node .generator children)
    | .node .keywordArgument children => some (.keywordArgument, .node .keywordArgument children)
    | .node .starredArgument children => some (.starredArgument, .node .starredArgument children)
    | .node .doubleStarredArgument children =>
      some (.doubleStarredArgument, .node .doubleStarredArgument children)
    | _ => none

/-- The trees of a node that calls the bare load function: its callee and the rest. -/
def callOf? (load : String) : Tree → Option (Tree × List Tree)
  | .node .call (callee :: rest) =>
    match bare callee with
    | .leaf token => if token.kind = .name ∧ token.text = load.toList then some (callee, rest) else none
    | _ => none
  | _ => none

/-- The string token that is the only argument of a call. -/
def literalOf (function : String) (rest : List Tree) : Except LoadFault Token :=
  match arguments rest with
  | [(.argument, value)] =>
    match bare value with
    | .leaf token =>
      if token.kind = .string then .ok token
      else .error (.notLiteral function (kindName (.leaf token)))
    | tree => .error (.notLiteral function (kindName tree))
  | [_] => .error (.notPositional function)
  | all => .error (.argumentCount function all.length)

/-- The text that a string token names a module by. -/
def targetText (naming : Naming) (literal : Token) : Except LoadFault String :=
  match evaluate naming.characters literal.text with
  | .ok (.text target) => .ok (String.ofList target)
  | .ok .bytes => .error (.bytes naming.load)
  | .error fault => .error (.literal fault)

/-- The module that a call's literal names, as seen from a directory. -/
def identityOf (naming : Naming) (directory : String) (literal : Token) :
    Except LoadFault Identity := do
  let target ← targetText naming literal
  (Identity.ofTarget naming.extension directory target).mapError .target

end Load
end Bundler
