import Bundler.Proofs.Load.Edits

/-!
# The tree of a retargeted module

`exchanged` says what becomes of a tree when its load calls are retargeted: the callee of each gives way
to the runtime's name and the literal to one for the identity it names, and nothing else changes. If
every load call names a module, this is the tree that retargeting gives (`retargetAll_of_names`). No load
call is left in it, so retargeting it once more changes nothing.
-/

namespace Bundler.Load

open Grammar Source

variable {naming : Naming} {directory : String}

mutual

/-- The tree with the callee and the literal of each load call exchanged. -/
def exchanged (naming : Naming) (directory : String) : Tree → Tree
  | .leaf token => .leaf token
  | .node kind children =>
    match callOf? naming.load (.node kind children) with
    | some (callee, rest) =>
      .node kind (replace callee .name naming.runtime.toList
        :: rest.map (replaceValue (newLiteral naming directory rest)))
    | none => .node kind (exchangedAmong naming directory children)

def exchangedAmong (naming : Naming) (directory : String) : List Tree → List Tree
  | [] => []
  | tree :: rest => exchanged naming directory tree :: exchangedAmong naming directory rest

end

theorem retarget_of_callOf? {kind : Node} {children rest : List Tree} {callee : Tree}
    {identity : Identity} (hcall : callOf? naming.load (.node kind children) = some (callee, rest))
    (hnames : Names naming directory (callee, rest) identity) :
    retarget naming directory (.node kind children)
      = .ok (exchanged naming directory (.node kind children), [identity]) := by
  obtain ⟨literal, target, hliteral, hvalue, hidentity, hnew⟩ := hnames
  have hof : identityOf naming directory literal = .ok identity := by
    simp [identityOf, targetText, hvalue, hidentity, bind, Except.bind, Except.mapError]
  rw [retarget, hcall, exchanged, hcall]
  simp [hliteral, hof, hnew, bind, Except.bind, pure, Except.pure]

theorem retarget_of_retargetAll {kind : Node} {children trees : List Tree} {identities : List Identity}
    (hcall : callOf? naming.load (.node kind children) = none)
    (h : retargetAll naming directory children = .ok (trees, identities)) :
    retarget naming directory (.node kind children) = .ok (.node kind trees, identities) := by
  rw [retarget, hcall]
  simp [h, bind, Except.bind, pure, Except.pure]

theorem retargetAll_of_retarget {first tree : Tree} {rest trees : List Tree}
    {identities others : List Identity} (hfirst : retarget naming directory first = .ok (tree, identities))
    (hrest : retargetAll naming directory rest = .ok (trees, others)) :
    retargetAll naming directory (first :: rest) = .ok (tree :: trees, identities ++ others) := by
  rw [retargetAll]
  simp [hfirst, hrest, bind, Except.bind, pure, Except.pure]

theorem forall₂_append_left {calls more : List (Tree × List Tree)} {identities : List Identity}
    (h : List.Forall₂ (Names naming directory) (calls ++ more) identities) :
    ∃ first others, identities = first ++ others ∧ List.Forall₂ (Names naming directory) calls first
      ∧ List.Forall₂ (Names naming directory) more others := by
  induction calls generalizing identities with
  | nil => exact ⟨[], identities, rfl, .nil, h⟩
  | cons call calls ih =>
    cases h with
    | cons hcall h =>
      obtain ⟨first, others, rfl, hcalls, hmore⟩ := ih h
      exact ⟨_ :: first, others, rfl, .cons hcall hcalls, hmore⟩

mutual

theorem retarget_of_names (tree : Tree) {identities : List Identity} (hformed : tree.WellFormed)
    (hnames : List.Forall₂ (Names naming directory) (loadCalls naming.load [tree]) identities) :
    retarget naming directory tree = .ok (exchanged naming directory tree, identities) := by
  match tree, hformed, hnames with
  | .leaf token, _, hnames =>
    cases hnames
    rw [retarget, exchanged]
  | .node kind children, hformed, hnames =>
    cases hcall : callOf? naming.load (.node kind children) with
    | none =>
      rw [loadCalls_node, hcall] at hnames
      cases hformed with
      | node _ _ _ hchildren =>
        rw [retarget_of_retargetAll hcall (retargetAll_of_names children hchildren hnames), exchanged,
          hcall]
    | some call =>
      obtain ⟨callee, rest⟩ := call
      obtain ⟨rfl, rfl, -⟩ := callOf?_eq_some hcall
      rw [loadCalls_node, hcall, Option.toList_some, List.cons_append, List.nil_append] at hnames
      cases hnames with
      | cons hfirst hmore =>
        obtain ⟨literal, -, hliteral, -⟩ := id hfirst
        have hcalls := loadCalls_of_literalOf hformed hcall hliteral
        rw [loadCalls_node, hcall, Option.toList_some, List.cons_append, List.nil_append,
          List.cons.injEq] at hcalls
        rw [hcalls.2] at hmore
        cases hmore
        exact retarget_of_callOf? hcall hfirst

theorem retargetAll_of_names (trees : List Tree) {identities : List Identity}
    (hformed : ∀ tree ∈ trees, tree.WellFormed)
    (hnames : List.Forall₂ (Names naming directory) (loadCalls naming.load trees) identities) :
    retargetAll naming directory trees = .ok (exchangedAmong naming directory trees, identities) := by
  match trees, hformed, hnames with
  | [], _, hnames =>
    cases hnames
    rw [retargetAll, exchangedAmong]
  | tree :: rest, hformed, hnames =>
    rw [loadCalls_cons] at hnames
    obtain ⟨first, others, rfl, hfirst, hothers⟩ := forall₂_append_left hnames
    rw [List.forall_mem_cons] at hformed
    exact retargetAll_of_retarget (retarget_of_names tree hformed.1 hfirst)
      (retargetAll_of_names rest hformed.2 hothers)

end

/-! ### No load call is left -/

mutual

theorem exchanged_of_loadCalls_eq_nil (tree : Tree) (h : loadCalls naming.load [tree] = []) :
    exchanged naming directory tree = tree := by
  cases tree with
  | leaf token => rw [exchanged]
  | node kind children =>
    rw [loadCalls_node, List.append_eq_nil_iff, Option.toList_eq_nil_iff] at h
    rw [exchanged, h.1]
    simp only
    rw [exchangedAmong_of_loadCalls_eq_nil children h.2]

theorem exchangedAmong_of_loadCalls_eq_nil (trees : List Tree) (h : loadCalls naming.load trees = []) :
    exchangedAmong naming directory trees = trees := by
  cases trees with
  | nil => rw [exchangedAmong]
  | cons tree rest =>
    rw [loadCalls_cons, List.append_eq_nil_iff] at h
    rw [exchangedAmong, exchanged_of_loadCalls_eq_nil tree h.1,
      exchangedAmong_of_loadCalls_eq_nil rest h.2]

end

theorem length_exchangedAmong (trees : List Tree) :
    (exchangedAmong naming directory trees).length = trees.length := by
  induction trees with
  | nil => rw [exchangedAmong]
  | cons tree rest ih => rw [exchangedAmong, List.length_cons, List.length_cons, ih]

theorem bare_of_exchanged {tree : Tree} {token : Token}
    (h : bare (exchanged naming directory tree) = .leaf token) : bare tree = .leaf token := by
  fun_induction bare tree with
  | case1 opening inner closing ih =>
    have hcall : callOf? naming.load (.node .group [opening, inner, closing]) = none := rfl
    rw [exchanged, hcall] at h
    exact ih h
  | case2 tree hnot =>
    cases tree with
    | leaf other =>
      rw [exchanged, bare] at h
      · exact h
      · exact nofun
    | node kind children =>
      exfalso
      rw [exchanged] at h
      split at h
      next hcall =>
        obtain ⟨rfl, -⟩ := callOf?_eq_some hcall
        rw [bare_of_ne (by decide)] at h
        cases h
      · unfold bare at h
        split at h
        next inner heq =>
          obtain ⟨rfl, hchildren⟩ := Tree.node.inj heq
          have hlength := congrArg List.length hchildren
          rw [length_exchangedAmong] at hlength
          obtain ⟨first, second, third, rfl⟩ := List.length_eq_three.1 hlength
          exact hnot first second third rfl
        · cases h

theorem callOf?_exchangedAmong {kind : Node} {children : List Tree}
    (h : callOf? naming.load (.node kind children) = none) :
    callOf? naming.load (.node kind (exchangedAmong naming directory children)) = none := by
  cases hcall : callOf? naming.load (.node kind (exchangedAmong naming directory children)) with
  | none => rfl
  | some call =>
    obtain ⟨rfl, hchildren, token, hbare, hkind, htext⟩ := callOf?_eq_some hcall
    cases children with
    | nil =>
      rw [exchangedAmong] at hchildren
      cases hchildren
    | cons callee rest =>
      rw [exchangedAmong, List.cons.injEq] at hchildren
      rw [← hchildren.1] at hbare
      have hbefore := bare_of_exchanged hbare
      simp [callOf?, hbefore, hkind, htext] at h

theorem exists_replace (tree : Tree) (kind : TokenKind) (text : List Char) :
    ∃ token, replace tree kind text = .leaf token ∧ token.kind = kind ∧ token.text = text := by
  unfold replace
  split
  · exact ⟨_, rfl, rfl, rfl⟩
  · exact ⟨_, rfl, rfl, rfl⟩

theorem loadCalls_replaced {callee : Tree} {rest : List Tree} {literal : Token} {text : List Char}
    (hruntime : naming.runtime ≠ naming.load)
    (hformed : (Grammar.Tree.node .call (callee :: rest)).WellFormed)
    (hcall : callOf? naming.load (.node .call (callee :: rest)) = some (callee, rest))
    (hliteral : literalOf naming.load rest = .ok literal) :
    loadCalls naming.load [.node .call (replace callee .name naming.runtime.toList
      :: rest.map (replaceValue text))] = [] := by
  obtain ⟨-, opening, value, closing, rfl, -⟩ := parts_of_literalOf hformed hliteral
  obtain ⟨name, hname, -, htext⟩ := exists_replace callee .name naming.runtime.toList
  obtain ⟨string, hstring, -⟩ := exists_replace value .string text
  have hother : name.text ≠ naming.load.toList := by
    rw [htext]
    exact fun heq => hruntime (String.toList_injective heq)
  rw [List.map_append, List.map_cons, map_replaceValue_leaf, map_replaceValue_leaf, replaceValue, hname,
    hstring, loadCalls_node, loadCalls_cons, loadCalls_append, loadCalls_cons _ (.node _ _),
    loadCalls_of_ne (by decide), loadCalls_leaves, loadCalls_leaves]
  simp [callOf?, bare, hother, loadCalls, subtreesOf, Tree.subtrees]

mutual

theorem loadCalls_exchanged (hruntime : naming.runtime ≠ naming.load) (tree : Tree)
    (hformed : tree.WellFormed)
    (hnames : ∀ call ∈ loadCalls naming.load [tree], ∃ identity, Names naming directory call identity) :
    loadCalls naming.load [exchanged naming directory tree] = [] := by
  match tree, hformed, hnames with
  | .leaf token, _, _ =>
    rw [exchanged]
    rfl
  | .node kind children, hformed, hnames =>
    cases hcall : callOf? naming.load (.node kind children) with
    | none =>
      rw [loadCalls_node, hcall] at hnames
      rw [exchanged, hcall]
      simp only
      rw [loadCalls_node, callOf?_exchangedAmong hcall]
      cases hformed with
      | node _ _ _ hchildren => exact loadCalls_exchangedAmong hruntime children hchildren hnames
    | some call =>
      obtain ⟨callee, rest⟩ := call
      obtain ⟨rfl, rfl, -⟩ := callOf?_eq_some hcall
      obtain ⟨_, literal, -, hliteral, -⟩ := hnames (callee, rest)
        (by rw [loadCalls_node, hcall]; exact List.mem_cons_self)
      rw [exchanged, hcall]
      exact loadCalls_replaced hruntime hformed hcall hliteral

theorem loadCalls_exchangedAmong (hruntime : naming.runtime ≠ naming.load) (trees : List Tree)
    (hformed : ∀ tree ∈ trees, tree.WellFormed)
    (hnames : ∀ call ∈ loadCalls naming.load trees, ∃ identity, Names naming directory call identity) :
    loadCalls naming.load (exchangedAmong naming directory trees) = [] := by
  match trees, hformed, hnames with
  | [], _, _ =>
    rw [exchangedAmong]
    rfl
  | tree :: rest, hformed, hnames =>
    rw [loadCalls_cons, List.forall_mem_append] at hnames
    rw [List.forall_mem_cons] at hformed
    rw [exchangedAmong, loadCalls_cons, loadCalls_exchanged hruntime tree hformed.1 hnames.1,
      loadCalls_exchangedAmong hruntime rest hformed.2 hnames.2]
    rfl

end

/-! ### The whole text -/

theorem exists_identities {calls : List (Tree × List Tree)}
    (h : ∀ call ∈ calls, ∃ identity, Names naming directory call identity) :
    ∃ identities, List.Forall₂ (Names naming directory) calls identities := by
  induction calls with
  | nil => exact ⟨[], .nil⟩
  | cons call calls ih =>
    rw [List.forall_mem_cons] at h
    obtain ⟨identity, hidentity⟩ := h.1
    obtain ⟨identities, hidentities⟩ := ih h.2
    exact ⟨identity :: identities, .cons hidentity hidentities⟩

/-- Where every load call names a module, only a name that lost its distance to the word before it stands
in the way of an answer. -/
theorem retargetText_of_names {text : String} {module : Module} {identities : List Identity}
    (hread : read text.toList = some module) (hmixed : Shape.check Shape.mixed? module = .ok ())
    (hnames : List.Forall₂ (Names naming directory) (loadCalls naming.load module) identities) :
    retargetText naming directory text
      = match Shape.check Shape.crowded? (exchangedAmong naming directory module) with
        | .ok _ => .ok (String.ofList (print (exchangedAmong naming directory module)), identities)
        | .error fault => .error (.shape fault) := by
  rw [retargetText, hread]
  simp only [hmixed, retargetAll_of_names module (wellFormed_of_read hread) hnames, bind, Except.bind,
    Except.mapError]
  cases Shape.check Shape.crowded? (exchangedAmong naming directory module) <;> rfl

end Bundler.Load
