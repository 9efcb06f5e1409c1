import Bundler.Load.Call
import Bundler.Proofs.Grammar.Forms

/-!
# The load calls of a module

`loadCalls` lists the load calls anywhere in a module. A load call that names a module has nothing in it
but its callee, its literal, and the tokens around the literal (`parts_of_literalOf`), so it holds no other
load call.
-/

namespace Bundler.Grammar

open Bundler.Source (Token)

mutual

/-- A tree and all trees in it, each before its parts. -/
def Tree.subtrees : Tree → List Tree
  | .leaf token => [.leaf token]
  | .node kind children => .node kind children :: subtreesOf children

def subtreesOf : List Tree → List Tree
  | [] => []
  | tree :: rest => tree.subtrees ++ subtreesOf rest

end

@[simp] theorem leavesOf_map_leaf (tokens : List Token) : leavesOf (tokens.map .leaf) = tokens := by
  induction tokens with
  | nil => rfl
  | cons token rest ih => simp [leavesOf, Tree.leaves, ih]

end Bundler.Grammar

namespace Bundler.Load

open Grammar Source

variable {load function : String} {callee : Tree} {rest : List Tree} {literal : Token}

/-- The load calls among the trees and in them, in the order in which they begin. -/
def loadCalls (load : String) (trees : List Tree) : List (Tree × List Tree) :=
  (subtreesOf trees).filterMap (callOf? load)

@[simp] theorem loadCalls_nil (load : String) : loadCalls load [] = [] := rfl

theorem loadCalls_cons (load : String) (tree : Tree) (rest : List Tree) :
    loadCalls load (tree :: rest) = loadCalls load [tree] ++ loadCalls load rest := by
  simp [loadCalls, subtreesOf]

theorem loadCalls_append (load : String) (first second : List Tree) :
    loadCalls load (first ++ second) = loadCalls load first ++ loadCalls load second := by
  induction first with
  | nil => rfl
  | cons tree rest ih =>
    rw [List.cons_append, loadCalls_cons, ih, ← List.append_assoc, ← loadCalls_cons]

theorem loadCalls_leaves (load : String) (tokens : List Token) :
    loadCalls load (tokens.map .leaf) = [] := by
  induction tokens with
  | nil => rfl
  | cons token rest ih =>
    rw [List.map_cons, loadCalls_cons, ih]
    rfl

theorem loadCalls_node (load : String) (kind : Node) (children : List Tree) :
    loadCalls load [.node kind children]
      = (callOf? load (.node kind children)).toList ++ loadCalls load children := by
  simp only [loadCalls, subtreesOf, Tree.subtrees, List.append_nil, List.filterMap_cons]
  cases callOf? load (.node kind children) <;> rfl

theorem loadCalls_of_ne {kind : Node} (h : kind ≠ .call) (children : List Tree) :
    loadCalls load [.node kind children] = loadCalls load children := by
  have hcall : callOf? load (.node kind children) = none := by
    cases kind <;> first | rfl | exact absurd rfl h
  rw [loadCalls_node, hcall]
  rfl

theorem callOf?_eq_some {kind : Node} {children : List Tree}
    (h : callOf? load (.node kind children) = some (callee, rest)) :
    kind = .call ∧ children = callee :: rest ∧
      ∃ token, bare callee = .leaf token ∧ token.kind = .name ∧ token.text = load.toList := by
  unfold callOf? at h
  split at h
  next found others heq =>
    split at h
    next token hbare =>
      split at h
      next hname =>
        cases h
        cases heq
        exact ⟨rfl, rfl, token, hbare, hname⟩
      · cases h
    · cases h
  · cases h

theorem bare_of_ne {kind : Node} (h : kind ≠ .group) (children : List Tree) :
    bare (.node kind children) = .node kind children := by
  unfold bare
  split
  next heq => exact absurd (Grammar.Tree.node.inj heq).1 h
  · rfl

theorem mem_leaves_of_bare {tree : Tree} {token : Token} (h : bare tree = .leaf token) :
    token ∈ tree.leaves := by
  fun_induction bare tree with
  | case1 opening inner closing ih => simp [Tree.leaves, leavesOf, ih h]
  | case2 tree hnot =>
    subst h
    exact List.mem_singleton_self _

/-- Parentheses around a token hold tokens only. -/
theorem loadCalls_of_bare (load : String) {tree : Tree} {token : Token} (h : tree.WellFormed)
    (hbare : bare tree = .leaf token) : loadCalls load [tree] = [] := by
  fun_induction bare tree with
  | case1 opening inner closing ih =>
    cases h with
    | node _ _ hfits hchildren =>
    obtain ⟨first, _, last, heq⟩ := hfits.1 rfl
    cases heq
    have hnone := ih (hchildren inner (by simp)) hbare
    rw [loadCalls_of_ne (by decide), loadCalls_cons, loadCalls_cons _ inner, hnone]
    rfl
  | case2 tree hnot =>
    subst hbare
    rfl

theorem literalOf_eq_ok (h : literalOf function rest = .ok literal) :
    ∃ value, arguments rest = [(.argument, value)] ∧ bare value = .leaf literal
      ∧ literal.kind = .string := by
  unfold literalOf at h
  split at h
  next value hvalue =>
    split at h
    next token hbare =>
      split at h
      next hstring =>
        cases h
        exact ⟨value, hvalue, hbare, hstring⟩
      · cases h
    · cases h
  · cases h
  · cases h

/-- Every argument counts. -/
theorem exists_arguments_node {kind : Node} {children : List Tree} (hpart : kind.isPart = true)
    (hfits : kind.Fits children) (rest : List Tree) :
    ∃ label value, arguments (.node kind children :: rest) = (label, value) :: arguments rest ∧
      (label = .argument → (kind = .argument ∧ children = [value]) ∨ value = .node kind children) := by
  cases kind <;> try cases hpart
  case argument =>
    obtain ⟨value, rfl⟩ := hfits.2.1 rfl
    exact ⟨.argument, value, rfl, fun _ => .inl ⟨rfl, rfl⟩⟩
  case generator => exact ⟨.argument, _, rfl, fun _ => .inr rfl⟩
  case keywordArgument => exact ⟨_, _, rfl, fun h => nomatch h⟩
  case starredArgument => exact ⟨_, _, rfl, fun h => nomatch h⟩
  case doubleStarredArgument => exact ⟨_, _, rfl, fun h => nomatch h⟩

theorem exists_map_leaf (hparts : ∀ tree ∈ rest, tree.IsPart) (hformed : ∀ tree ∈ rest, tree.WellFormed)
    (h : arguments rest = []) : ∃ tokens : List Token, rest = tokens.map .leaf := by
  induction rest with
  | nil => exact ⟨[], rfl⟩
  | cons tree rest ih =>
    rw [List.forall_mem_cons] at hparts hformed
    rcases hparts.1 with ⟨token, rfl⟩ | ⟨kind, children, hpart, rfl⟩
    · obtain ⟨tokens, rfl⟩ := ih hparts.2 hformed.2 h
      exact ⟨token :: tokens, rfl⟩
    · cases hformed.1 with
      | node _ _ hfits _ =>
      obtain ⟨_, _, heq, -⟩ := exists_arguments_node hpart hfits rest
      rw [heq] at h
      cases h

theorem rest_of_literalOf (hparts : ∀ tree ∈ rest, tree.IsPart)
    (hformed : ∀ tree ∈ rest, tree.WellFormed) (h : literalOf function rest = .ok literal) :
    ∃ (opening : List Token) (value : Tree) (closing : List Token),
      rest = opening.map .leaf ++ .node .argument [value] :: closing.map .leaf ∧
      value.WellFormed ∧ bare value = .leaf literal ∧ literal.kind = .string := by
  obtain ⟨value, harguments, hbare, hstring⟩ := literalOf_eq_ok h
  clear h
  induction rest with
  | nil => cases harguments
  | cons tree rest ih =>
    rw [List.forall_mem_cons] at hparts hformed
    rcases hparts.1 with ⟨token, rfl⟩ | ⟨kind, children, hpart, rfl⟩
    · obtain ⟨opening, value, closing, rfl, hvalue⟩ := ih hparts.2 hformed.2 harguments
      exact ⟨token :: opening, value, closing, rfl, hvalue⟩
    · cases hformed.1 with
      | node _ _ hfits hchildren =>
      obtain ⟨label, found, heq, hvalue⟩ := exists_arguments_node hpart hfits rest
      rw [heq, List.cons.injEq, Prod.mk.injEq] at harguments
      obtain ⟨⟨rfl, rfl⟩, hnone⟩ := harguments
      rcases hvalue rfl with ⟨rfl, rfl⟩ | rfl
      · obtain ⟨closing, rfl⟩ := exists_map_leaf hparts.2 hformed.2 hnone
        exact ⟨[], found, closing, rfl, hchildren found (by simp), hbare, hstring⟩
      · have hgroup : kind ≠ .group := by
          rintro rfl
          cases hpart
        rw [bare_of_ne hgroup] at hbare
        cases hbare

theorem parts_of_literalOf (hformed : (Grammar.Tree.node .call (callee :: rest)).WellFormed)
    (h : literalOf function rest = .ok literal) :
    callee.WellFormed ∧ ∃ (opening : List Token) (value : Tree) (closing : List Token),
      rest = opening.map .leaf ++ .node .argument [value] :: closing.map .leaf ∧
      value.WellFormed ∧ bare value = .leaf literal ∧ literal.kind = .string := by
  cases hformed with
  | node _ _ hfits hchildren =>
  obtain ⟨_, _, heq, hparts⟩ := hfits.2.2 rfl
  cases heq
  rw [List.forall_mem_cons] at hchildren
  exact ⟨hchildren.1, rest_of_literalOf hparts hchildren.2 h⟩

/-- No load call stands in the callee or between the parentheses of one that names a module. -/
theorem loadCalls_of_literalOf (hformed : (Grammar.Tree.node .call (callee :: rest)).WellFormed)
    (hcall : callOf? load (.node .call (callee :: rest)) = some (callee, rest))
    (h : literalOf function rest = .ok literal) :
    loadCalls load [.node .call (callee :: rest)] = [(callee, rest)] := by
  obtain ⟨-, -, token, hbare, -⟩ := callOf?_eq_some hcall
  obtain ⟨hcallee, opening, value, closing, rfl, hvalue, hinside, -⟩ := parts_of_literalOf hformed h
  rw [loadCalls_node, hcall, loadCalls_cons, loadCalls_of_bare load hcallee hbare, loadCalls_append,
    loadCalls_leaves, loadCalls_cons, loadCalls_of_ne (by decide),
    loadCalls_of_bare load hvalue hinside, loadCalls_leaves]
  rfl

end Bundler.Load
