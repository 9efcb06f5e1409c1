import Bundler.Proofs.Grammar.Alike
import Bundler.Proofs.Source.Lines

/-!
# Tokens without what stands before them

The grammar does not look at what stands before a token. So a module is read as it would be if nothing stood
there, and only its leaves differ (`exists_parse_of_bare`).
-/

namespace Bundler.Grammar

open Bundler.Source (Token)

mutual

def Tree.plain : Tree → Tree
  | .leaf token => .leaf token.bare
  | .node kind children => .node kind (plainAll children)

def plainAll : List Tree → List Tree
  | [] => []
  | tree :: rest => tree.plain :: plainAll rest

end

theorem plainAll_eq_map (trees : List Tree) : plainAll trees = trees.map Tree.plain := by
  induction trees with
  | nil => rfl
  | cons tree rest ih => rw [plainAll, ih, List.map_cons]

mutual

theorem Tree.hollow_plain (tree : Tree) : tree.plain.hollow = tree.hollow := by
  match tree with
  | .leaf token => rfl
  | .node kind children => rw [Tree.plain, Tree.hollow, Tree.hollow, hollowAll_plainAll children]

theorem hollowAll_plainAll (trees : List Tree) : hollowAll (plainAll trees) = hollowAll trees := by
  match trees with
  | [] => rfl
  | tree :: rest => rw [plainAll, hollowAll, hollowAll, tree.hollow_plain, hollowAll_plainAll rest]

end

mutual

theorem Tree.leaves_plain (tree : Tree) : tree.plain.leaves = tree.leaves.map Token.bare := by
  match tree with
  | .leaf token => rfl
  | .node kind children => rw [Tree.plain, Tree.leaves, Tree.leaves, leavesOf_plainAll children]

theorem leavesOf_plainAll (trees : List Tree) : leavesOf (plainAll trees) = (leavesOf trees).map Token.bare := by
  match trees with
  | [] => rfl
  | tree :: rest =>
    rw [plainAll, leavesOf, leavesOf, List.map_append, tree.leaves_plain, leavesOf_plainAll rest]

end

/-- What is read without what stands before the tokens is read with it. -/
theorem exists_parse_of_bare {tokens : List Token} {module : Module}
    (h : parse (tokens.map Token.bare) = some module) :
    ∃ result, parse tokens = some result ∧ result.map Tree.plain = module := by
  have halike : List.Forall₂ (Token.Alike fun test => ∃ rule : Rule, test ∈ rule.pattern.tests)
      (tokens.map Token.bare) tokens := by
    rw [List.forall₂_map_left_iff, List.forall₂_same]
    rintro token - test -
    cases test <;> rfl
  obtain ⟨result, hresult, hform⟩ := exists_parse_of_alike h halike
  refine ⟨result, hresult, ?_⟩
  rw [← plainAll_eq_map]
  refine eq_of_hollowAll _ _ ((hollowAll_plainAll result).trans hform) ?_
  rw [leavesOf_plainAll, leavesOf_of_parse hresult, leavesOf_of_parse h]

end Bundler.Grammar
