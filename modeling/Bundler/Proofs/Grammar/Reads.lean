import Bundler.Grammar.Module

/-!
# What a pattern reads

`Reads` is the reading of tokens by a pattern without its depth and without what it tries in vain.
Reading that succeeds is of this kind (`reads_of_run`), so facts about trees are proved along `Reads`.
The first of them: trees have the tokens that were read as their leaves, hence the leaves of a module
are the tokens of its text (`tokens_of_read`).
-/

namespace Bundler.Grammar

open Bundler.Source (Token)

variable {R : Type} {grammar : R → Pattern R}

/-- The pattern can read the first tokens, form these trees with this name, and leave the rest. -/
inductive Reads (grammar : R → Pattern R) :
    Pattern R → List Token → List Tree → Option Node → List Token → Prop
  | empty (tokens : List Token) : Reads grammar .empty tokens [] none tokens
  | token {test : Test} {token : Token} (rest : List Token) (htest : test.holds token = true) :
    Reads grammar (.token test) (token :: rest) [.leaf token] none rest
  | seq {first second : Pattern R} {tokens middle rest : List Token} {trees more : List Tree}
    {name later : Option Node} (hfirst : Reads grammar first tokens trees name middle)
    (hsecond : Reads grammar second middle more later rest) :
    Reads grammar (.seq first second) tokens (trees ++ more) (later.or name) rest
  | left {first : Pattern R} (second : Pattern R) {tokens rest : List Token} {trees : List Tree}
    {name : Option Node} (hfirst : Reads grammar first tokens trees name rest) :
    Reads grammar (.alt first second) tokens trees name rest
  | right (first : Pattern R) {second : Pattern R} {tokens rest : List Token} {trees : List Tree}
    {name : Option Node} (hsecond : Reads grammar second tokens trees name rest) :
    Reads grammar (.alt first second) tokens trees name rest
  | stop (item : Pattern R) (tokens : List Token) : Reads grammar (.many item) tokens [] none tokens
  | again {item : Pattern R} {tokens middle rest : List Token} {trees more : List Tree}
    {name later : Option Node} (hitem : Reads grammar item tokens trees name middle)
    (hmany : Reads grammar (.many item) middle more later rest) :
    Reads grammar (.many item) tokens (trees ++ more) (later.or name) rest
  | peek {item : Pattern R} {tokens rest : List Token} {trees : List Tree} {name : Option Node}
    (hitem : Reads grammar item tokens trees name rest) : Reads grammar (.peek item) tokens [] none tokens
  | absent (item : Pattern R) (tokens : List Token) :
    Reads grammar (.absent item) tokens [] none tokens
  | rule {rule : R} {tokens rest : List Token} {trees : List Tree} {name : Option Node}
    (hrule : Reads grammar (grammar rule) tokens trees name rest) :
    Reads grammar (.rule rule) tokens (wrap name trees) none rest
  | label (kind : Node) (tokens : List Token) : Reads grammar (.label kind) tokens [] (some kind) tokens
  | base {base : Pattern R} (tail : Pattern R) {tokens rest : List Token} {trees : List Tree}
    {name : Option Node} (hbase : Reads grammar base tokens trees name rest) :
    Reads grammar (.extend base tail) tokens (wrap name trees) none rest
  | tail {base tail : Pattern R} {tokens middle rest : List Token} {formed trees : List Tree}
    {name : Option Node} (hformed : Reads grammar (.extend base tail) tokens formed none middle)
    (htail : Reads grammar tail middle trees name rest) :
    Reads grammar (.extend base tail) tokens (wrap name (formed ++ trees)) none rest
  | only (kinds : List Node) {item : Pattern R} {tokens rest : List Token} {trees : List Tree}
    {name : Option Node} (hitem : Reads grammar item tokens trees name rest) :
    Reads grammar (.only kinds item) tokens trees name rest

/-! ### Reading taken apart -/

section

variable {fuel : Nat} {first second item : Pattern R} {tokens rest : List Token} {trees formed : List Tree}
  {name later : Option Node}

theorem exists_of_run_seq (h : run grammar (fuel + 1) (.seq first second) tokens = .matched formed later rest) :
    ∃ trees name middle more last, run grammar fuel first tokens = .matched trees name middle
      ∧ run grammar fuel second middle = .matched more last rest
      ∧ formed = trees ++ more ∧ later = last.or name := by
  rw [run] at h
  split at h
  next hfirst =>
    split at h
    next hsecond =>
      cases h
      exact ⟨_, _, _, _, _, hfirst, hsecond, rfl, rfl⟩
    next hnot => exact absurd h (hnot _ _ _)
  next hnot => exact absurd h (hnot _ _ _)

theorem cases_of_run_alt (h : run grammar (fuel + 1) (.alt first second) tokens = .matched trees name rest) :
    run grammar fuel first tokens = .matched trees name rest
      ∨ run grammar fuel first tokens = .failed
        ∧ run grammar fuel second tokens = .matched trees name rest := by
  rw [run] at h
  split at h
  next hfirst => exact .inr ⟨hfirst, h⟩
  · exact .inl h

theorem cases_of_run_many (h : run grammar (fuel + 1) (.many item) tokens = .matched formed later rest) :
    formed = [] ∧ later = none ∧ rest = tokens
      ∨ ∃ trees name middle more last, run grammar fuel item tokens = .matched trees name middle
        ∧ middle.length < tokens.length ∧ run grammar fuel (.many item) middle = .matched more last rest
        ∧ formed = trees ++ more ∧ later = last.or name := by
  rw [run] at h
  split at h
  next hitem =>
    split at h
    next hless =>
      split at h
      next hmany =>
        cases h
        exact .inr ⟨_, _, _, _, _, hitem, hless, hmany, rfl, rfl⟩
      next hnot => exact absurd h (hnot _ _ _)
    · cases h
      exact .inl ⟨rfl, rfl, rfl⟩
  · cases h
    exact .inl ⟨rfl, rfl, rfl⟩
  · cases h

theorem exists_of_run_rule {rule : R}
    (h : run grammar (fuel + 1) (.rule rule) tokens = .matched formed later rest) :
    ∃ trees name, run grammar fuel (grammar rule) tokens = .matched trees name rest
      ∧ formed = wrap name trees ∧ later = none := by
  rw [run] at h
  split at h
  next hrule =>
    cases h
    exact ⟨_, _, hrule, rfl, rfl⟩
  next hnot => exact absurd h (hnot _ _ _)

end

/-- Reading that succeeds, and going on with the tails of an extension that succeeds. -/
theorem reads_of_run_and_grow (fuel : Nat) :
    (∀ pattern tokens trees name rest, run grammar fuel pattern tokens = .matched trees name rest →
      Reads grammar pattern tokens trees name rest) ∧
    (∀ base tail start formed tokens trees name rest,
      Reads grammar (.extend base tail) start formed none tokens →
      grow grammar fuel tail formed tokens = .matched trees name rest →
      Reads grammar (.extend base tail) start trees name rest) := by
  induction fuel with
  | zero =>
    refine ⟨fun pattern tokens trees name rest h => ?_,
      fun base tail start formed tokens trees name rest _ h => ?_⟩
    · rw [run] at h
      cases h
    · rw [grow] at h
      cases h
  | succ fuel ih =>
    obtain ⟨hrun, hgrow⟩ := ih
    refine ⟨fun pattern tokens trees name rest h => ?_,
      fun base tail start formed tokens trees name rest hformed h => ?_⟩
    · cases pattern with
      | empty =>
        rw [run] at h
        cases h
        exact .empty _
      | token test =>
        cases tokens with
        | nil => cases h
        | cons token others =>
          rw [run] at h
          split at h
          next htest =>
            cases h
            exact .token _ htest
          · cases h
      | seq first second =>
        obtain ⟨_, _, _, _, _, hfirst, hsecond, rfl, rfl⟩ := exists_of_run_seq h
        exact .seq (hrun _ _ _ _ _ hfirst) (hrun _ _ _ _ _ hsecond)
      | alt first second =>
        obtain h | ⟨-, h⟩ := cases_of_run_alt h
        · exact .left _ (hrun _ _ _ _ _ h)
        · exact .right _ (hrun _ _ _ _ _ h)
      | many item =>
        obtain ⟨rfl, rfl, rfl⟩ | ⟨_, _, _, _, _, hitem, -, hmany, rfl, rfl⟩ := cases_of_run_many h
        · exact .stop _ _
        · exact .again (hrun _ _ _ _ _ hitem) (hrun _ _ _ _ _ hmany)
      | peek item =>
        rw [run] at h
        split at h
        next hitem =>
          cases h
          exact .peek (hrun _ _ _ _ _ hitem)
        next hnot => exact absurd h (hnot _ _ _)
      | absent item =>
        rw [run] at h
        split at h
        · cases h
        · cases h
          exact .absent _ _
        · cases h
      | rule rule =>
        obtain ⟨_, _, hrule, rfl, rfl⟩ := exists_of_run_rule h
        exact .rule (hrun _ _ _ _ _ hrule)
      | label kind =>
        rw [run] at h
        cases h
        exact .label _ _
      | extend base tail =>
        rw [run] at h
        split at h
        next hbase => exact hgrow _ _ _ _ _ _ _ _ (.base _ (hrun _ _ _ _ _ hbase)) h
        next hnot => exact absurd h (hnot _ _ _)
      | only kinds item =>
        rw [run] at h
        split at h
        next hitem =>
          split at h
          · cases h
            exact .only _ (hrun _ _ _ _ _ hitem)
          · cases h
        · cases h
        next hnot => exact absurd h (hnot _ _ _)
    · rw [grow] at h
      split at h
      next htail =>
        split at h
        · exact hgrow _ _ _ _ _ _ _ _ (.tail hformed (hrun _ _ _ _ _ htail)) h
        · cases h
          exact hformed
      · cases h
        exact hformed
      · cases h

theorem reads_of_run {fuel : Nat} {pattern : Pattern R} {tokens rest : List Token} {trees : List Tree}
    {name : Option Node} (h : run grammar fuel pattern tokens = .matched trees name rest) :
    Reads grammar pattern tokens trees name rest :=
  (reads_of_run_and_grow fuel).1 _ _ _ _ _ h

theorem reads_of_parse {tokens : List Token} {module : Module} (h : parse tokens = some module) :
    Reads Rule.pattern (.rule .module) tokens module none [] := by
  unfold parse at h
  split at h
  next trees _ hrun =>
    cases h
    have hreads := reads_of_run hrun
    cases hreads with
    | rule hrule => exact .rule hrule
  · cases h

/-! ### The leaves of the trees -/

theorem leavesOf_reads {pattern : Pattern R} {tokens rest : List Token} {trees : List Tree}
    {name : Option Node} (h : Reads grammar pattern tokens trees name rest) :
    leavesOf trees ++ rest = tokens := by
  induction h with
  | empty => rfl
  | token => rfl
  | seq _ _ ihfirst ihsecond => rw [leavesOf_append, List.append_assoc, ihsecond, ihfirst]
  | left _ _ ih => exact ih
  | right _ _ ih => exact ih
  | stop => rfl
  | again _ _ ihitem ihmany => rw [leavesOf_append, List.append_assoc, ihmany, ihitem]
  | peek => rfl
  | absent => rfl
  | rule _ ih => rw [leavesOf_wrap, ih]
  | label => rfl
  | base _ _ ih => rw [leavesOf_wrap, ih]
  | tail _ _ ihformed ihtail =>
    rw [leavesOf_wrap, leavesOf_append, List.append_assoc, ihtail, ihformed]
  | only _ _ ih => exact ih

theorem leavesOf_of_parse {tokens : List Token} {module : Module} (h : parse tokens = some module) :
    leavesOf module = tokens := by
  have hleaves := leavesOf_reads (reads_of_parse h)
  rwa [List.append_nil] at hleaves

theorem tokens_of_read {text : List Char} {module : Module} (h : read text = some module) :
    Source.tokens (withoutMark text) = .ok (leavesOf module) := by
  rw [read] at h
  split at h
  next tokens htokens =>
    rw [htokens, leavesOf_of_parse h]
  · cases h

end Bundler.Grammar
