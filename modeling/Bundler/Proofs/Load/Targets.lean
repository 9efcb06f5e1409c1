import Bundler.Load.Retarget
import Bundler.Proofs.Path.Target

/-!
# The modules a module loads

Every identity that retargeting lists comes from a load target read in the module's directory
(`targeted_of_retargetAll`). The directory of an identity is a relative one, so the modules that
a module of the root loads lie below the root as well (`exists_parts_of_retargetText`).
-/

namespace Bundler.Load

open Grammar Source

variable {naming : Naming} {directory : String} {identity : Identity}

/-- An identity comes from a load target. -/
def Targeted (naming : Naming) (directory : String) (identity : Identity) : Prop :=
  ∃ target, Identity.ofTarget naming.extension directory target = .ok identity

theorem targeted_of_identityOf {literal : Token}
    (h : identityOf naming directory literal = .ok identity) : Targeted naming directory identity := by
  unfold identityOf at h
  cases htarget : targetText naming literal with
  | error fault => simp [htarget, bind, Except.bind] at h
  | ok target =>
    refine ⟨target, ?_⟩
    cases hof : Identity.ofTarget naming.extension directory target with
    | error fault => simp [htarget, hof, bind, Except.bind, Except.mapError] at h
    | ok other => simpa [htarget, hof, bind, Except.bind, Except.mapError] using h

theorem retarget_call {kind : Node} {children rest : List Tree} {callee tree : Tree}
    {identities : List Identity} (hcall : callOf? naming.load (.node kind children) = some (callee, rest))
    (h : retarget naming directory (.node kind children) = .ok (tree, identities)) :
    ∃ literal identity, literalOf naming.load rest = .ok literal
      ∧ identityOf naming directory literal = .ok identity ∧ identities = [identity]
      ∧ tree = .node kind (replace callee .name naming.runtime.toList
          :: rest.map (replaceValue (literalLike literal.text identity))) := by
  rw [retarget, hcall] at h
  simp only [bind, Except.bind] at h
  split at h
  · cases h
  next literal hliteral =>
  split at h
  · cases h
  next identity hidentity =>
  simp only [pure, Except.pure, Except.ok.injEq, Prod.mk.injEq] at h
  exact ⟨literal, identity, hliteral, hidentity, h.2.symm, h.1.symm⟩

theorem retarget_other {kind : Node} {children : List Tree} {tree : Tree}
    {identities : List Identity} (hcall : callOf? naming.load (.node kind children) = none)
    (h : retarget naming directory (.node kind children) = .ok (tree, identities)) :
    ∃ trees, retargetAll naming directory children = .ok (trees, identities)
      ∧ tree = .node kind trees := by
  rw [retarget, hcall] at h
  simp only [bind, Except.bind] at h
  split at h
  · cases h
  next answer hall =>
  simp only [pure, Except.pure, Except.ok.injEq, Prod.mk.injEq] at h
  exact ⟨answer.1, by rw [hall, ← h.2], h.1.symm⟩

theorem retargetAll_cons {first : Tree} {rest trees : List Tree} {identities : List Identity}
    (h : retargetAll naming directory (first :: rest) = .ok (trees, identities)) :
    ∃ tree others before after, retarget naming directory first = .ok (tree, before)
      ∧ retargetAll naming directory rest = .ok (others, after) ∧ trees = tree :: others
      ∧ identities = before ++ after := by
  rw [retargetAll] at h
  simp only [bind, Except.bind] at h
  split at h
  · cases h
  next first hfirst =>
  split at h
  · cases h
  next rest hrest =>
  simp only [pure, Except.pure, Except.ok.injEq, Prod.mk.injEq] at h
  exact ⟨first.1, rest.1, first.2, rest.2, hfirst, hrest, h.1.symm, h.2.symm⟩

mutual

theorem targeted_of_retarget (before : Tree) {after : Tree} {identities : List Identity}
    (h : retarget naming directory before = .ok (after, identities)) :
    ∀ identity ∈ identities, Targeted naming directory identity := by
  match before, h with
  | .leaf token, h =>
    rw [retarget, Except.ok.injEq, Prod.mk.injEq] at h
    simp [← h.2]
  | .node kind children, h =>
    cases hcall : callOf? naming.load (.node kind children) with
    | none =>
      obtain ⟨trees, hall, -⟩ := retarget_other hcall h
      exact targeted_of_retargetAll children hall
    | some call =>
      obtain ⟨literal, identity, -, hidentity, rfl, -⟩ := retarget_call hcall h
      simpa using targeted_of_identityOf hidentity

theorem targeted_of_retargetAll (before : List Tree) {after : List Tree} {identities : List Identity}
    (h : retargetAll naming directory before = .ok (after, identities)) :
    ∀ identity ∈ identities, Targeted naming directory identity := by
  match before, h with
  | [], h =>
    rw [retargetAll, Except.ok.injEq, Prod.mk.injEq] at h
    simp [← h.2]
  | first :: rest, h =>
    obtain ⟨tree, others, left, right, hfirst, hrest, -, rfl⟩ := retargetAll_cons h
    intro identity hmem
    rcases List.mem_append.1 hmem with hmem | hmem
    · exact targeted_of_retarget first hfirst identity hmem
    · exact targeted_of_retargetAll rest hrest identity hmem

end

theorem retargetText_eq_ok {text code : String} {identities : List Identity}
    (h : retargetText naming directory text = .ok (code, identities)) :
    ∃ module trees, read text.toList = some module ∧ Shape.check Shape.mixed? module = .ok ()
      ∧ retargetAll naming directory module = .ok (trees, identities)
      ∧ Shape.check Shape.crowded? trees = .ok () ∧ code = String.ofList (print trees) := by
  rw [retargetText] at h
  split at h
  · cases h
  next module hread =>
  cases hmixed : Shape.check Shape.mixed? module with
  | error fault => simp [hmixed, bind, Except.bind, Except.mapError] at h
  | ok =>
    cases hall : retargetAll naming directory module with
    | error fault => simp [hmixed, hall, bind, Except.bind, Except.mapError] at h
    | ok answer =>
      obtain ⟨trees, others⟩ := answer
      cases hcrowded : Shape.check Shape.crowded? trees with
      | error fault => simp [hmixed, hall, hcrowded, bind, Except.bind, Except.mapError] at h
      | ok =>
        simp only [hmixed, hall, hcrowded, bind, Except.bind, Except.mapError, pure, Except.pure,
          Except.ok.injEq, Prod.mk.injEq] at h
        obtain ⟨rfl, rfl⟩ := h
        exact ⟨module, trees, hread, hmixed, hall, hcrowded, rfl⟩

/-- The modules that a module of the root loads lie below the root, without a step upwards. -/
theorem exists_parts_of_retargetText {parts : List Component} {text code : String}
    {identities : List Identity}
    (h : retargetText naming (Identity.directory (.ofParts parts)) text = .ok (code, identities)) :
    ∀ identity ∈ identities, ∃ below, identity = .ofParts below ∧ Component.parent ∉ below := by
  obtain ⟨module, trees, -, -, hall, -, -⟩ := retargetText_eq_ok h
  intro identity hmem
  obtain ⟨target, htarget⟩ := targeted_of_retargetAll module hall identity hmem
  obtain ⟨-, below, hbelow, hdown, -⟩ := Identity.ofTarget_eq_ok (Identity.exists_directory parts) htarget
  exact ⟨below, hbelow, hdown⟩

end Bundler.Load
