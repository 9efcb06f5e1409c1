import Bundler.Proofs.Grammar.Reads
import Mathlib.Data.List.Forall2

/-!
# Tokens that no rule tells apart

The grammar looks at its tokens through a few tests only. Tokens on which these tests agree are read
alike: with the same outcome, and with trees that differ in nothing but their leaves (`run_and_grow_alike`). So
a module has a tree of the same form for other tokens (`exists_parse_of_alike`).
-/

namespace Bundler.Grammar

open Bundler.Source (Token mark)

variable {R : Type} {grammar : R → Pattern R} {trees others : List Tree}

/-! ### Trees without their leaves -/

mutual

/-- The tree with nothing on its leaves. -/
def Tree.hollow : Tree → Tree
  | .leaf _ => .leaf (mark .finish)
  | .node kind children => .node kind (hollowAll children)

def hollowAll : List Tree → List Tree
  | [] => []
  | tree :: rest => tree.hollow :: hollowAll rest

end

@[simp] theorem hollowAll_append (left right : List Tree) :
    hollowAll (left ++ right) = hollowAll left ++ hollowAll right := by
  induction left with
  | nil => rfl
  | cons tree rest ih => simp [hollowAll, ih]

theorem hollowAll_wrap (name : Option Node) (trees : List Tree) :
    hollowAll (wrap name trees) = wrap name (hollowAll trees) := by
  cases name <;> rfl

mutual

theorem Tree.length_hollow (tree : Tree) : tree.hollow.leaves.length = tree.leaves.length := by
  cases tree with
  | leaf token => rfl
  | node kind children => exact length_leavesOf_hollowAll children

theorem length_leavesOf_hollowAll (trees : List Tree) :
    (leavesOf (hollowAll trees)).length = (leavesOf trees).length := by
  cases trees with
  | nil => rfl
  | cons tree rest =>
    rw [hollowAll, leavesOf, leavesOf, List.length_append, List.length_append, tree.length_hollow,
      length_leavesOf_hollowAll rest]

end

mutual

theorem Tree.eq_of_hollow (tree other : Tree) (hform : tree.hollow = other.hollow)
    (hleaves : tree.leaves = other.leaves) : tree = other := by
  match tree, other, hform, hleaves with
  | .leaf token, .leaf _, _, hleaves => rw [List.singleton_inj.1 hleaves]
  | .node kind children, .node _ _, hform, hleaves =>
    obtain ⟨rfl, hchildren⟩ := Tree.node.inj hform
    rw [eq_of_hollowAll children _ hchildren hleaves]

theorem eq_of_hollowAll (trees others : List Tree) (hform : hollowAll trees = hollowAll others)
    (hleaves : leavesOf trees = leavesOf others) : trees = others := by
  match trees, others, hform, hleaves with
  | [], [], _, _ => rfl
  | tree :: rest, other :: more, hform, hleaves =>
    obtain ⟨hfirst, hmore⟩ := List.cons.inj hform
    have hlength : tree.leaves.length = other.leaves.length := by
      rw [← tree.length_hollow, hfirst, other.length_hollow]
    obtain ⟨hleft, hright⟩ := List.append_inj hleaves hlength
    rw [tree.eq_of_hollow other hfirst hleft, eq_of_hollowAll rest more hmore hright]

end

/-! ### Reading -/

namespace Pattern

def tests : Pattern R → List Test
  | .token test => [test]
  | .seq first second | .alt first second | .extend first second => tests first ++ tests second
  | .many item | .peek item | .absent item | .only _ item => tests item
  | .empty | .rule _ | .label _ => []

end Pattern

/-- The tests agree on the tokens. -/
def Token.Alike (asked : Test → Prop) (token other : Token) : Prop :=
  ∀ test, asked test → test.holds other = test.holds token

/-- Reading ends in the same way, but for the tokens themselves. -/
inductive Outcome.Alike (asked : Test → Prop) : Outcome → Outcome → Prop
  | exhausted : Alike asked .exhausted .exhausted
  | failed : Alike asked .failed .failed
  | matched {trees others : List Tree} (name : Option Node) {rest more : List Token}
      (htrees : hollowAll trees = hollowAll others)
      (hrest : List.Forall₂ (Token.Alike asked) rest more) :
    Alike asked (.matched trees name rest) (.matched others name more)

theorem Outcome.Alike.cases {asked : Test → Prop} {outcome other : Outcome}
    (h : Alike asked outcome other) :
    outcome = .exhausted ∧ other = .exhausted ∨ outcome = .failed ∧ other = .failed
      ∨ ∃ trees others name rest more, outcome = .matched trees name rest
        ∧ other = .matched others name more ∧ hollowAll trees = hollowAll others
        ∧ List.Forall₂ (Token.Alike asked) rest more := by
  cases h with
  | exhausted => exact .inl ⟨rfl, rfl⟩
  | failed => exact .inr (.inl ⟨rfl, rfl⟩)
  | matched name htrees hrest => exact .inr (.inr ⟨_, _, name, _, _, rfl, rfl, htrees, hrest⟩)

theorem hollowAll_eq_singleton {kind : Node} {form : List Tree} (h : hollowAll trees = [.node kind form]) :
    ∃ children, trees = [.node kind children] := by
  match trees, h with
  | [.node _ children], h =>
    cases h
    exact ⟨children, rfl⟩

/-- A single node of a kind has the same form as another one of this kind. -/
theorem only_alike {asked : Test → Prop} (kinds : List Node) (name : Option Node) {rest more : List Token}
    (htrees : hollowAll trees = hollowAll others) (hrest : List.Forall₂ (Token.Alike asked) rest more) :
    Outcome.Alike asked
      (match Outcome.matched trees name rest with
        | .matched [.node kind children] name rest =>
          if kinds.contains kind then .matched [.node kind children] name rest else .failed
        | .matched .. => .failed
        | outcome => outcome)
      (match Outcome.matched others name more with
        | .matched [.node kind children] name rest =>
          if kinds.contains kind then .matched [.node kind children] name rest else .failed
        | .matched .. => .failed
        | outcome => outcome) := by
  by_cases hnode : ∃ kind children, trees = [.node kind children]
  · obtain ⟨kind, children, rfl⟩ := hnode
    obtain ⟨more, rfl⟩ := hollowAll_eq_singleton htrees.symm
    simp only
    split
    · exact .matched name htrees hrest
    · exact .failed
  · have hother : ∀ kind children, others ≠ [.node kind children] := by
      rintro kind children rfl
      obtain ⟨more, rfl⟩ := hollowAll_eq_singleton htrees
      exact hnode ⟨_, _, rfl⟩
    split
    next heq =>
      cases heq
      exact absurd ⟨_, _, rfl⟩ hnode
    · exact .failed
    next hnot => exact (hnot _ _ _ rfl).elim

/-- Tokens that are alike are read alike by a pattern. -/
def RunsAlike (grammar : R → Pattern R) (asked : Test → Prop) (fuel : Nat) (pattern : Pattern R) : Prop :=
  ∀ tokens others : List Token, List.Forall₂ (Token.Alike asked) tokens others →
    Outcome.Alike asked (run grammar fuel pattern tokens) (run grammar fuel pattern others)

/-- From trees of the same form, reading goes on alike. -/
def GrowsAlike (grammar : R → Pattern R) (asked : Test → Prop) (fuel : Nat) (tail : Pattern R) : Prop :=
  ∀ (formed grown : List Tree) (tokens others : List Token), hollowAll formed = hollowAll grown →
    List.Forall₂ (Token.Alike asked) tokens others →
    Outcome.Alike asked (grow grammar fuel tail formed tokens) (grow grammar fuel tail grown others)

section

variable {asked : Test → Prop} {fuel : Nat} {first second item tail : Pattern R}

theorem runsAlike_token {test : Test} (h : asked test) : RunsAlike grammar asked (fuel + 1) (.token test) := by
  intro tokens others htokens
  cases htokens with
  | nil => exact .failed
  | @cons token other rest more htoken hrest =>
    rw [run, run]
    simp only [htoken test h]
    split
    · exact .matched none rfl hrest
    · exact .failed

theorem RunsAlike.seq (hfirst : RunsAlike grammar asked fuel first)
    (hsecond : RunsAlike grammar asked fuel second) :
    RunsAlike grammar asked (fuel + 1) (.seq first second) := by
  intro tokens others htokens
  rw [run, run]
  rcases (hfirst _ _ htokens).cases with
    ⟨h, h'⟩ | ⟨h, h'⟩ | ⟨trees, _, name, rest, more, h, h', htrees, hrest⟩
    <;> rw [h, h']
  · exact .exhausted
  · exact .failed
  · simp only
    rcases (hsecond _ _ hrest).cases with
      ⟨h, h'⟩ | ⟨h, h'⟩ | ⟨_, _, later, _, _, h, h', hmore, hlast⟩
      <;> rw [h, h']
    · exact .exhausted
    · exact .failed
    · exact .matched _ (by rw [hollowAll_append, hollowAll_append, htrees, hmore]) hlast

theorem RunsAlike.alt (hfirst : RunsAlike grammar asked fuel first)
    (hsecond : RunsAlike grammar asked fuel second) :
    RunsAlike grammar asked (fuel + 1) (.alt first second) := by
  intro tokens others htokens
  rw [run, run]
  rcases (hfirst _ _ htokens).cases with
    ⟨h, h'⟩ | ⟨h, h'⟩ | ⟨_, _, name, _, _, h, h', htrees, hrest⟩
    <;> rw [h, h']
  · exact .exhausted
  · exact hsecond _ _ htokens
  · exact .matched name htrees hrest

theorem RunsAlike.many (hitem : RunsAlike grammar asked fuel item)
    (hmany : RunsAlike grammar asked fuel (.many item)) : RunsAlike grammar asked (fuel + 1) (.many item) := by
  intro tokens others htokens
  rw [run, run]
  rcases (hitem _ _ htokens).cases with
    ⟨h, h'⟩ | ⟨h, h'⟩ | ⟨trees, _, name, rest, more, h, h', htrees, hrest⟩
    <;> rw [h, h']
  · exact .exhausted
  · exact .matched none rfl htokens
  · simp only [hrest.length_eq, htokens.length_eq]
    split
    · rcases (hmany _ _ hrest).cases with
        ⟨h, h'⟩ | ⟨h, h'⟩ | ⟨_, _, later, _, _, h, h', hmore, hlast⟩
        <;> rw [h, h']
      · exact .exhausted
      · exact .failed
      · exact .matched _ (by rw [hollowAll_append, hollowAll_append, htrees, hmore]) hlast
    · exact .matched none rfl htokens

theorem RunsAlike.peek (hitem : RunsAlike grammar asked fuel item) :
    RunsAlike grammar asked (fuel + 1) (.peek item) := by
  intro tokens others htokens
  rw [run, run]
  rcases (hitem _ _ htokens).cases with ⟨h, h'⟩ | ⟨h, h'⟩ | ⟨_, _, _, _, _, h, h', -⟩ <;> rw [h, h']
  · exact .exhausted
  · exact .failed
  · exact .matched none rfl htokens

theorem RunsAlike.absent (hitem : RunsAlike grammar asked fuel item) :
    RunsAlike grammar asked (fuel + 1) (.absent item) := by
  intro tokens others htokens
  rw [run, run]
  rcases (hitem _ _ htokens).cases with ⟨h, h'⟩ | ⟨h, h'⟩ | ⟨_, _, _, _, _, h, h', -⟩ <;> rw [h, h']
  · exact .exhausted
  · exact .matched none rfl htokens
  · exact .failed

theorem RunsAlike.rule {rule : R} (hrule : RunsAlike grammar asked fuel (grammar rule)) :
    RunsAlike grammar asked (fuel + 1) (.rule rule) := by
  intro tokens others htokens
  rw [run, run]
  rcases (hrule _ _ htokens).cases with
    ⟨h, h'⟩ | ⟨h, h'⟩ | ⟨_, _, name, _, _, h, h', htrees, hrest⟩
    <;> rw [h, h']
  · exact .exhausted
  · exact .failed
  · exact .matched none (by rw [hollowAll_wrap, hollowAll_wrap, htrees]) hrest

theorem RunsAlike.extend (hfirst : RunsAlike grammar asked fuel first)
    (htail : GrowsAlike grammar asked fuel tail) :
    RunsAlike grammar asked (fuel + 1) (.extend first tail) := by
  intro tokens others htokens
  rw [run, run]
  rcases (hfirst _ _ htokens).cases with
    ⟨h, h'⟩ | ⟨h, h'⟩ | ⟨_, _, name, rest, more, h, h', htrees, hrest⟩
    <;> rw [h, h']
  · exact .exhausted
  · exact .failed
  · exact htail _ _ _ _ (by rw [hollowAll_wrap, hollowAll_wrap, htrees]) hrest

theorem RunsAlike.only (hitem : RunsAlike grammar asked fuel item) (kinds : List Node) :
    RunsAlike grammar asked (fuel + 1) (.only kinds item) := by
  intro tokens others htokens
  rw [run, run]
  rcases (hitem _ _ htokens).cases with
    ⟨h, h'⟩ | ⟨h, h'⟩ | ⟨_, _, name, _, _, h, h', htrees, hrest⟩
    <;> rw [h, h']
  · exact .exhausted
  · exact .failed
  · exact only_alike kinds name htrees hrest

theorem RunsAlike.grow
    (htail : RunsAlike grammar asked fuel tail) (hgrow : GrowsAlike grammar asked fuel tail) :
    GrowsAlike grammar asked (fuel + 1) tail := by
  intro formed grown tokens others hformed htokens
  rw [Grammar.grow, Grammar.grow]
  rcases (htail _ _ htokens).cases with
    ⟨h, h'⟩ | ⟨h, h'⟩ | ⟨_, _, name, rest, more, h, h', htrees, hrest⟩
    <;> rw [h, h']
  · exact .exhausted
  · exact .matched none hformed htokens
  · simp only [hrest.length_eq, htokens.length_eq]
    split
    · refine hgrow _ _ _ _ ?_ hrest
      rw [hollowAll_wrap, hollowAll_wrap, hollowAll_append, hollowAll_append, hformed, htrees]
    · exact .matched none hformed htokens

end

/-- Tokens that the tests of a grammar do not tell apart are read alike. -/
theorem run_and_grow_alike {asked : Test → Prop}
    (hgrammar : ∀ rule, ∀ test ∈ (grammar rule).tests, asked test) (fuel : Nat) :
    (∀ pattern, (∀ test ∈ pattern.tests, asked test) → RunsAlike grammar asked fuel pattern) ∧
      ∀ tail, (∀ test ∈ tail.tests, asked test) → GrowsAlike grammar asked fuel tail := by
  induction fuel with
  | zero =>
    refine ⟨fun pattern _ _ _ _ => ?_, fun tail _ _ _ _ _ _ _ => ?_⟩
    · rw [run, run]
      exact .exhausted
    · rw [grow, grow]
      exact .exhausted
  | succ fuel ih =>
    obtain ⟨hrun, hgrow⟩ := ih
    refine ⟨fun pattern hasked => ?_, fun tail hasked => (hrun tail hasked).grow (hgrow tail hasked)⟩
    cases pattern with
    | empty => exact fun _ _ htokens => .matched none rfl htokens
    | label kind => exact fun _ _ htokens => .matched (some kind) rfl htokens
    | token test => exact runsAlike_token (hasked test (List.mem_singleton_self _))
    | seq first second =>
      rw [Pattern.tests, List.forall_mem_append] at hasked
      exact (hrun first hasked.1).seq (hrun second hasked.2)
    | alt first second =>
      rw [Pattern.tests, List.forall_mem_append] at hasked
      exact (hrun first hasked.1).alt (hrun second hasked.2)
    | many item => exact (hrun item hasked).many (hrun (.many item) hasked)
    | peek item => exact (hrun item hasked).peek
    | absent item => exact (hrun item hasked).absent
    | rule rule => exact (hrun (grammar rule) (hgrammar rule)).rule
    | extend base tail =>
      rw [Pattern.tests, List.forall_mem_append] at hasked
      exact (hrun base hasked.1).extend (hgrow tail hasked.2)
    | only kinds item => exact (hrun item hasked).only kinds

/-- Tokens that the grammar of modules does not tell apart have the same tree, but for its leaves. -/
theorem exists_parse_of_alike {tokens others : List Token} {module : Module}
    (h : parse tokens = some module)
    (halike : List.Forall₂ (Token.Alike fun test => ∃ rule : Rule, test ∈ rule.pattern.tests) tokens
      others) : ∃ result, parse others = some result ∧ hollowAll result = hollowAll module := by
  have hasked : ∀ rule : Rule, ∀ test ∈ rule.pattern.tests, ∃ rule : Rule, test ∈ rule.pattern.tests :=
    fun rule _ htest => ⟨rule, htest⟩
  unfold parse at h ⊢
  rw [halike.length_eq] at h
  generalize depthFor others.length = fuel at h ⊢
  have hrun := (run_and_grow_alike hasked fuel).1 (.rule .module) (by simp [Pattern.tests]) _ _ halike
  rcases hrun.cases with ⟨heq, -⟩ | ⟨heq, -⟩ | ⟨_, result, name, rest, more, heq, hother, htrees, hrest⟩
  · rw [heq] at h
    cases h
  · rw [heq] at h
    cases h
  · rw [heq] at h
    cases hrest with
    | nil =>
      cases h
      exact ⟨result, by rw [hother], htrees.symm⟩
    | cons => cases h

/-! ### Words and names -/

/-- The words that a rule asks for in some place: keywords, and names with a meaning of their own. -/
def words : List (List Char) := keywords ++ ["match", "case", "type", "_", "r", "s", "a"].map String.toList

/-- The text is a name, and no keyword. -/
structure IsFree (name : List Char) : Prop where
  identifier : Text.isIdentifier name = true
  free : name ∉ keywords

/-- The text is a name and none of these words. -/
structure IsPlain (name : List Char) : Prop where
  identifier : Text.isIdentifier name = true
  unasked : name ∉ words

def IsPlainName (token : Token) : Prop := token.kind = .name ∧ IsPlain token.text

/-- The token is a name, and no keyword. -/
def Token.IsName (token : Token) : Prop :=
  token.kind = .name ∧ Text.isIdentifier token.text = true ∧ token.text ∉ keywords

theorem IsPlainName.isName {token : Token} (h : IsPlainName token) : Token.IsName token :=
  ⟨h.1, h.2.identifier, fun hmem => h.2.unasked (List.mem_append_left _ hmem)⟩

/-- The text of a test is one of the words, or no name. -/
def Test.isKnown : Test → Bool
  | .text word => words.contains word || !Text.isIdentifier word
  | _ => true

set_option maxRecDepth 4000 in
theorem Rule.isKnown_tests (rule : Rule) : rule.pattern.tests.all Test.isKnown = true := by
  cases rule <;> decide

theorem Rule.isKnown_of_mem {rule : Rule} {test : Test} (h : test ∈ rule.pattern.tests) :
    test.isKnown = true :=
  List.all_eq_true.1 rule.isKnown_tests test h

theorem IsPlain.ne_of_isKnown {name word : List Char} (h : IsPlain name)
    (hknown : (Test.text word).isKnown = true) : name ≠ word := by
  rintro rfl
  rw [Test.isKnown, h.identifier, Bool.not_true, Bool.or_false, List.contains_iff_mem] at hknown
  exact h.unasked hknown

theorem IsPlain.not_keyword {name : List Char} (h : IsPlain name) : keywords.contains name = false := by
  rw [Bool.eq_false_iff, ne_eq, List.contains_iff_mem]
  exact fun hmem => h.unasked (List.mem_append_left _ hmem)

/-- A name that no rule asks for may give way to another one. -/
theorem alike_name {token : Token} {runtime : List Char} (hplain : IsPlainName token)
    (hruntime : IsPlain runtime) :
    Token.Alike (fun test => ∃ rule : Rule, test ∈ rule.pattern.tests) token
      { token with text := runtime } := by
  obtain ⟨hkind, htext⟩ := hplain
  rintro test ⟨rule, htest⟩
  have hknown := Rule.isKnown_of_mem htest
  cases test with
  | text word =>
    simp only [Test.holds, beq_eq_false_iff_ne.2 (htext.ne_of_isKnown hknown),
      beq_eq_false_iff_ne.2 (hruntime.ne_of_isKnown hknown)]
  | identifier => simp only [Test.holds, htext.not_keyword, hruntime.not_keyword]
  | _ => simp only [Test.holds, hkind] <;> rfl

/-- The grammar does not look at what a string says. -/
theorem alike_string {token : Token} (hkind : token.kind = .string) (new : List Char)
    (asked : Test → Prop) : Token.Alike asked token { token with text := new } := by
  intro test _
  cases test <;> simp only [Test.holds, hkind] <;> rfl

end Bundler.Grammar
