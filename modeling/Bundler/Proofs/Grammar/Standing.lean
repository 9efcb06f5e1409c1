import Bundler.Proofs.Grammar.Statements

/-!
# Statements that stand anywhere

A statement is read alike whatever comes behind it, if that does not go on with it (`Stands`). So it is enough
to read it once, at the end of a module (`stands_of_last`), and with names and strings of any other spelling it is
read alike again (`Stands.alike`). A module is put together from such statements (`parse_of_stands`).
-/

namespace Bundler.Grammar

open Bundler.Source (Token TokenKind mark)

variable {tokens others rest : List Token} {children trees : List Tree}

abbrev Asked (test : Test) : Prop := ∃ rule : Rule, test ∈ rule.pattern.tests

/-- The tokens are read as a statement with these parts, whatever comes behind it. -/
structure Stands (tokens : List Token) (children : List Tree) : Prop where
  first : Misses settledTests tokens
  ends : ∀ rest, Misses settledTests rest →
    Ends Rule.pattern (.rule .statement) (tokens ++ rest) (.matched [.node .statement children] none rest)

theorem misses_finish : Misses settledTests [mark .finish] := ⟨mark .finish, rfl, by decide⟩

theorem Stands.unique {parts : List Tree} (h : Stands tokens children) (hother : Stands tokens parts) :
    children = parts := by
  have heq := (h.ends _ misses_finish).unique (hother.ends _ misses_finish)
  cases heq
  rfl

theorem Stands.leaves (h : Stands tokens children) : leavesOf children = tokens := by
  have heq := (h.ends _ misses_finish).tokens_eq
  simpa [leavesOf, Tree.leaves] using heq

/-! ### At the end of a module -/

mutual

theorem Turns.refl_tree (tree : Tree) {others more : List Tree} (h : Turns others more) :
    Turns (tree :: others) (tree :: more) := by
  match tree with
  | .leaf token => exact .leaf token h
  | .node kind children => exact .node kind (Turns.refl children) h

theorem Turns.refl (trees : List Tree) : Turns trees trees := by
  match trees with
  | [] => exact .nil
  | tree :: rest => exact Turns.refl_tree tree (Turns.refl rest)

end

/-- The parts of the statement that the tokens form at the end of a module. -/
def lastStatement? (fuel : Nat) (tokens : List Token) : Option (List Tree) :=
  match run Rule.pattern fuel (.rule .statement) (tokens ++ [mark .finish]) with
  | .matched [.node .statement children] none [_] => some children
  | _ => none

theorem stands_of_last {fuel : Nat} (h : lastStatement? fuel tokens = some children)
    (hproper : ∀ token ∈ tokens, Token.Proper token) (hfirst : Misses settledTests tokens) :
    Stands tokens children := by
  unfold lastStatement? at h
  split at h
  next last hrun =>
    cases h
    have hleaves := leavesOf_reads (reads_of_run hrun)
    obtain ⟨hleaves, hlast⟩ := List.append_inj' hleaves rfl
    refine ⟨hfirst, fun rest hrest => ?_⟩
    have hturned : Turned [.node .statement children] [.node .statement children] :=
      ⟨.refl _, hleaves ▸ hproper⟩
    rw [← hleaves, ← hlast] at hrun
    have hends := ((stacked fuel) .statement rfl).carry hturned hrun hrest
    rwa [hleaves] at hends
  · cases h

/-- The tokens form a statement of this form at the end of a module, and they begin anew. -/
def isLast (form : List Tree → Bool) (tokens : List Token) : Bool :=
  (tokens.all fun token => token.kind != .name || Text.isIdentifier token.text)
    && tokens.head?.any (fun token => settledTests.all fun test => !test.holds token)
    && (lastStatement? 400 tokens).any form

theorem stands_of_isLast {form : List Tree → Bool} (h : isLast form tokens = true) :
    ∃ children, form children = true ∧ Stands tokens children := by
  rw [isLast, Bool.and_eq_true, Bool.and_eq_true, List.all_eq_true] at h
  obtain ⟨⟨hproper, hfirst⟩, hlast⟩ := h
  obtain ⟨token, hhead, htests⟩ := (Option.any_eq_true _ _).1 hfirst
  obtain ⟨children, hchildren, hform⟩ := (Option.any_eq_true _ _).1 hlast
  refine ⟨children, hform, stands_of_last hchildren (fun token htoken hname => ?_) ⟨token, hhead, ?_⟩⟩
  · simpa [hname] using hproper token htoken
  · simpa using htests

/-! ### With other names and strings -/

/-- The tokens are read alike for their kind, and for their text or in spite of it. -/
inductive Token.Like : Token → Token → Prop
  | same {token other : Token} (hkind : other.kind = token.kind) (htext : other.text = token.text) :
    Like token other
  | name {token other : Token} (hname : IsPlainName token) (hother : IsPlainName other) : Like token other
  | string {token other : Token} (hkind : token.kind = .string) (hother : other.kind = .string) :
    Like token other

theorem Token.Like.refl (token : Token) : Token.Like token token := .same rfl rfl

/-- A name that no rule asks for, and those that some rule asks for in some place. -/
def sampleNames : List (List Char) := ["name", "match", "case", "type", "_", "r", "s", "a"].map String.toList

/-- For every name that is no keyword there is a sample that is read alike. -/
theorem IsFree.exists_sample {name : List Char} (h : IsFree name) :
    ∃ sample ∈ sampleNames, Token.Like ⟨.name, [], [], sample⟩ ⟨.name, [], [], name⟩ := by
  by_cases hword : name ∈ sampleNames
  · exact ⟨name, hword, .refl _⟩
  · have hplain : IsPlain "name".toList := ⟨by decide, by decide⟩
    refine ⟨"name".toList, by decide, .name ⟨rfl, hplain⟩ ⟨rfl, h.identifier, fun hmem => ?_⟩⟩
    rcases List.mem_append.1 hmem with hmem | hmem
    · exact h.free hmem
    · exact hword (List.mem_cons_of_mem _ hmem)

theorem Token.Like.alike {token other : Token} (h : Token.Like token other) :
    Token.Alike Asked token other := by
  have hsame : ∀ {first second : Token}, second.kind = first.kind → second.text = first.text →
      Token.Alike Asked first second := by
    intro first second hkind htext test _
    cases test <;> simp only [Test.holds, hkind, htext]
  cases h with
  | same hkind htext => exact hsame hkind htext
  | name hname hother =>
    intro test htest
    have hright : Token.Alike Asked { token with text := other.text } other :=
      hsame (hother.1.trans hname.1.symm) rfl
    rw [hright test htest, alike_name hname hother.2 test htest]
  | string hkind hother =>
    intro test htest
    have hright : Token.Alike Asked { token with text := other.text } other :=
      hsame (hother.trans hkind.symm) rfl
    rw [hright test htest, alike_string hkind other.text Asked test htest]

set_option maxRecDepth 20000 in
theorem asked_of_settled : ∀ test ∈ settledTests, Asked test := by
  simp only [settledTests, List.forall_mem_cons]
  exact ⟨⟨.block, by decide⟩, ⟨.elseIf, by decide⟩, ⟨.elseBlock, by decide⟩, ⟨.tryBlock, by decide⟩,
    ⟨.tryBlock, by decide⟩, nofun⟩

theorem Stands.alike (h : Stands tokens children)
    (hlike : List.Forall₂ Token.Like tokens others) :
    ∃ more, Stands others more ∧ hollowAll more = hollowAll children := by
  have hasked : ∀ rule : Rule, ∀ test ∈ rule.pattern.tests, Asked test := fun rule _ htest => ⟨rule, htest⟩
  have hread : ∀ rest, Misses settledTests rest → ∃ more, hollowAll more = hollowAll children
      ∧ leavesOf more = others
      ∧ Ends Rule.pattern (.rule .statement) (others ++ rest) (.matched [.node .statement more] none rest) := by
    intro rest hrest
    obtain ⟨-, fuel, hrun⟩ := h.ends rest hrest
    have halike : List.Forall₂ (Token.Alike Asked) (tokens ++ rest) (others ++ rest) :=
      (List.rel_append (hlike.imp fun _ _ => Token.Like.alike)
        (List.forall₂_same.2 fun _ _ _ _ => rfl))
    obtain ⟨heq, -⟩ | ⟨heq, -⟩ | ⟨_, found, name, left, last, heq, hother, hform, hlast⟩ :=
      ((run_and_grow_alike hasked fuel).1 (.rule .statement) nofun _ _ halike).cases
    · cases hrun.symm.trans heq
    · cases hrun.symm.trans heq
    · cases hrun.symm.trans heq
      obtain ⟨more, rfl⟩ := hollowAll_eq_singleton hform.symm
      obtain ⟨hleaves, rfl⟩ := List.append_inj' (leavesOf_reads (reads_of_run hother)) hlast.length_eq.symm
      refine ⟨more, ?_, by simpa [leavesOf, Tree.leaves] using hleaves, ends_of_run hother nofun⟩
      simpa [hollowAll, Tree.hollow] using hform.symm
  obtain ⟨more, hform, hleaves, -⟩ := hread _ misses_finish
  refine ⟨more, ⟨?_, fun rest hrest => ?_⟩, hform⟩
  · obtain ⟨token, hhead, htests⟩ := h.first
    cases hlike with
    | nil => cases hhead
    | cons hfirst =>
      cases hhead
      refine ⟨_, rfl, fun test htest => ?_⟩
      rw [hfirst.alike test (asked_of_settled test htest), htests test htest]
  · obtain ⟨again, hsame, hagain, hends⟩ := hread rest hrest
    rwa [eq_of_hollowAll more again (hform.trans hsame.symm) (hleaves.trans hagain.symm)]

/-! ### Modules -/

set_option maxRecDepth 20000 in
theorem parse_of_stands {statements : List (List Token × List Tree)} (hne : statements ≠ [])
    (h : ∀ statement ∈ statements, Stands statement.1 statement.2) :
    parse (statements.flatMap (·.1) ++ [mark .finish])
      = some (statements.map (fun statement => .node .statement statement.2) ++ [.leaf (mark .finish)]) := by
  have hmany : ∀ more : List (List Token × List Tree), (∀ statement ∈ more, Stands statement.1 statement.2) →
      Misses settledTests (more.flatMap (·.1) ++ [mark .finish])
      ∧ Ends Rule.pattern (.many (.rule .statement)) (more.flatMap (·.1) ++ [mark .finish])
        (.matched (more.map fun statement => .node .statement statement.2) none [mark .finish]) := by
    intro more hmore
    induction more with
    | nil =>
      have hfinal : Final [] [mark .finish] := ⟨_, rfl, .inr rfl⟩
      exact ⟨misses_finish, .stop (hfinal.fails rfl)⟩
    | cons statement more ih =>
      rw [List.forall_mem_cons] at hmore
      obtain ⟨hnext, hends⟩ := ih hmore.2
      obtain ⟨token, hhead, htests⟩ := hmore.1.first
      rw [List.flatMap_cons, List.append_assoc]
      refine ⟨⟨token, by simp [hhead], htests⟩, (hmore.1.ends _ hnext).again ?_ hends⟩
      obtain ⟨others, heq⟩ := List.head?_eq_some_iff.1 hhead
      have hpos : 0 < statement.1.length := by simp [heq]
      simp only [List.length_append]
      omega
  obtain ⟨first, more, rfl⟩ := List.exists_cons_of_ne_nil hne
  rw [List.forall_mem_cons] at h
  obtain ⟨hnext, hends⟩ := hmany more h.2
  rw [List.flatMap_cons, List.append_assoc]
  have hstatements : Ends Rule.pattern (.rule .statements)
      (first.1 ++ (more.flatMap (·.1) ++ [mark .finish])) (.matched (.node .statement first.2
        :: more.map fun statement => .node .statement statement.2) none [mark .finish]) :=
    .unnamed ((h.1.ends _ hnext).seq hends)
  have hfinish : Ends Rule.pattern (.token (.kind .finish)) [mark .finish]
      (.matched [.leaf (mark .finish)] none []) := .token rfl
  exact parse_of_ends (.unnamed ((hstatements.left .empty).seq hfinish))

end Bundler.Grammar
