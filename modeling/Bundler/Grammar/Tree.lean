import Bundler.Source.Token

/-!
# Syntax trees

A tree has the tokens of a module as its leaves, all of them and in order, so a module is printed from
its tree by printing the leaves. Its nodes say what the tokens below them form.
-/

namespace Bundler.Grammar

open Bundler.Source (Token)

/-- What a run of tokens forms. -/
inductive Node
  | group
  | tuple
  | list
  | set
  | dict
  | listComprehension
  | setComprehension
  | dictComprehension
  | generator
  | call
  | attribute
  | subscript
  | await
  | unary
  | binary
  | boolean
  | comparison
  | conditional
  | lambda
  | named
  | yield
  | formatted
  | templated
  | concatenated
  | argument
  | keywordArgument
  | starredArgument
  | doubleStarredArgument
  | statement
  | block
  deriving DecidableEq, Repr

/-- A token, or what several trees form. -/
inductive Tree
  | leaf (token : Token)
  | node (kind : Node) (children : List Tree)
  deriving Repr

mutual

def Tree.leaves : Tree → List Token
  | .leaf token => [token]
  | .node _ children => leavesOf children

def leavesOf : List Tree → List Token
  | [] => []
  | tree :: rest => tree.leaves ++ leavesOf rest

end

@[simp] theorem leavesOf_append (left right : List Tree) :
    leavesOf (left ++ right) = leavesOf left ++ leavesOf right := by
  induction left with
  | nil => simp [leavesOf]
  | cons tree rest ih => simp [leavesOf, ih]

end Bundler.Grammar
