import Bundler.Grammar.Rules
import Bundler.Source.Layout

/-!
# Reading and printing a module

`read` gives the syntax tree of a text in the module language, `print` gives the text back.
-/

namespace Bundler.Grammar

open Bundler.Source

/-- A module as a sequence of trees. -/
abbrev Module := List Tree

/-- More than the depth that reading so many tokens can need. -/
def depthFor (count : Nat) : Nat := 600 * (count + 2)

/-- The tree of a sequence of tokens, if the grammar admits it. -/
def parse (tokens : List Token) : Option Module :=
  match run Rule.pattern (depthFor tokens.length) (.rule .module) tokens with
  | .matched trees _ [] => some trees
  | _ => none

/-- The mark that may stand at the beginning of a text and is no part of it. -/
def byteOrderMark : Char := '\ufeff'

def withoutMark : List Char → List Char
  | c :: rest => if c = byteOrderMark then rest else c :: rest
  | [] => []

def read (text : List Char) : Option Module :=
  match tokens (withoutMark text) with
  | .ok tokens => parse tokens
  | .error _ => none

def print (module : Module) : List Char := shownText (leavesOf module)

end Bundler.Grammar
