import Bundler.Proofs.Grammar.Alike
import Bundler.Proofs.Load.Shapes

/-!
# Modules that call no name

A module in which every callee is more than a name loads nothing, whatever the load function is called, and
is put into a bundle as it is (`retargetText_of_inert`). The form of the module tells, without its leaves.
-/

namespace Bundler.Load

open Grammar Source Shape

variable {load : String} {trees others : List Tree}

/-- The tree is no call of a single token, and no strings side by side. -/
def isInert : Tree → Bool
  | .node .call (callee :: _) =>
    match bare callee with
    | .leaf _ => false
    | .node .. => true
  | .node .concatenated _ => false
  | _ => true

/-- Neither the trees nor the trees in them call a name. -/
def areInert (trees : List Tree) : Bool := (subtreesOf trees).all isInert

/-! ### The form of a tree -/

theorem bare_hollow (tree : Tree) : bare tree.hollow = (bare tree).hollow := by
  fun_induction bare tree with
  | case1 opening inner closing ih => exact ih
  | case2 tree hnot =>
    cases tree with
    | leaf token => rfl
    | node kind children =>
      rw [Tree.hollow, bare]
      rintro opening inner closing heq
      obtain ⟨rfl, hchildren⟩ := Tree.node.inj heq
      rcases children with _ | ⟨_, _ | ⟨_, _ | ⟨_, _ | _⟩⟩⟩
      case cons.cons.cons.nil => exact hnot _ _ _ rfl
      all_goals simp [hollowAll] at hchildren

theorem isInert_hollow (tree : Tree) : isInert tree.hollow = isInert tree := by
  cases tree with
  | leaf token => rfl
  | node kind children =>
    cases children with
    | nil => cases kind <;> rfl
    | cons callee rest =>
      cases kind with
      | call =>
        rw [Tree.hollow, hollowAll, isInert, isInert, bare_hollow]
        cases bare callee <;> rfl
      | _ => rfl

mutual

theorem subtrees_hollow (tree : Tree) : tree.hollow.subtrees = tree.subtrees.map Tree.hollow := by
  cases tree with
  | leaf token => rfl
  | node kind children =>
    rw [Tree.hollow, Tree.subtrees, Tree.subtrees, subtreesOf_hollowAll children, List.map_cons, Tree.hollow]

theorem subtreesOf_hollowAll (trees : List Tree) :
    subtreesOf (hollowAll trees) = (subtreesOf trees).map Tree.hollow := by
  cases trees with
  | nil => rfl
  | cons tree rest =>
    rw [hollowAll, subtreesOf, subtreesOf, subtrees_hollow tree, subtreesOf_hollowAll rest, List.map_append]

end

theorem areInert_hollowAll (trees : List Tree) : areInert (hollowAll trees) = areInert trees := by
  rw [areInert, areInert, subtreesOf_hollowAll, List.all_map]
  congr
  funext tree
  exact isInert_hollow tree

/-! ### What an inert module does not do -/

theorem callOf?_of_inert {tree : Tree} (h : isInert tree = true) : callOf? load tree = none := by
  cases hcall : callOf? load tree with
  | none => rfl
  | some call =>
    cases tree with
    | leaf token => cases hcall
    | node kind children =>
      obtain ⟨rfl, rfl, token, hbare, -⟩ := callOf?_eq_some hcall
      rw [isInert, hbare] at h
      cases h

theorem loadCalls_of_inert (h : areInert trees = true) : loadCalls load trees = [] := by
  rw [areInert, List.all_eq_true] at h
  rw [loadCalls, List.filterMap_eq_nil_iff]
  exact fun tree htree => callOf?_of_inert (h tree htree)

mutual

theorem faultIn?_of_inert (tree : Tree) (h : ∀ part ∈ tree.subtrees, isInert part = true) :
    faultIn? mixed? tree = none := by
  cases tree with
  | leaf token => rfl
  | node kind children =>
    rw [Tree.subtrees, List.forall_mem_cons] at h
    have hkind : kind ≠ .concatenated := by
      rintro rfl
      cases h.1
    rw [faultIn?, faultAmong?_of_inert children h.2, mixed?, decide_eq_false hkind]
    rfl

theorem faultAmong?_of_inert (trees : List Tree) (h : ∀ part ∈ subtreesOf trees, isInert part = true) :
    faultAmong? mixed? trees = none := by
  cases trees with
  | nil => rfl
  | cons tree rest =>
    rw [subtreesOf, List.forall_mem_append] at h
    rw [faultAmong?, faultIn?_of_inert tree h.1, faultAmong?_of_inert rest h.2]
    rfl

end

theorem retargetText_of_inert {text : String} {module : Module} (hread : read text.toList = some module)
    (hinert : areInert module = true) (hprint : print module = text.toList) (naming : Naming)
    (directory : String) : retargetText naming directory text = .ok (text, []) := by
  have hcalls : loadCalls naming.load module = [] := loadCalls_of_inert hinert
  have hmixed : check mixed? module = .ok () :=
    check_eq_ok_iff.2 (faultAmong?_of_inert module (List.all_eq_true.1 hinert))
  have hnames : List.Forall₂ (Names naming directory) (loadCalls naming.load module) [] := by
    rw [hcalls]
    exact .nil
  rw [retargetText_of_names hread hmixed hnames, exchangedAmong_of_loadCalls_eq_nil module hcalls,
    check_crowded? (tokens_of_read hread), hprint, String.ofList_toList]

end Bundler.Load
