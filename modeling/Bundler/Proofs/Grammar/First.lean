import Bundler.Proofs.Grammar.Ending

/-!
# What a pattern begins with

A pattern takes its first token by one of a few tests. Where none of them holds of the next token, nothing is
taken (`leavesOf_eq_nil_of_misses`), so a pattern that has to take one fails (`Ends.fails`). The tests that hold
of a token are given as a list that has them all.
-/

namespace Bundler.Grammar

open Bundler.Source (Token TokenKind)

variable {tokens rest : List Token} {token : Token} {accepted : List Test}

/-! ### The tests a token passes -/

def Token.Passes (token : Token) (accepted : List Test) : Prop :=
  ∀ test : Test, test.holds token = true → test ∈ accepted

def Token.IsKeyword (word : String) (token : Token) : Prop :=
  token.kind = .name ∧ token.text = word.toList ∧ word.toList ∈ keywords

/-- The token is an operator or a delimiter. -/
def Token.IsSign (sign : String) (token : Token) : Prop :=
  token.kind = .operator ∧ token.text = sign.toList

theorem Token.IsKeyword.passes {word : String} (h : Token.IsKeyword word token) :
    Token.Passes token [.text word.toList, .kind .name] := by
  obtain ⟨hkind, htext, hmem⟩ := h
  intro test htest
  cases test with
  | identifier =>
    rw [Test.holds, htext, List.contains_iff_mem.2 hmem] at htest
    simp at htest
  | text wanted =>
    rw [Test.holds, Bool.and_eq_true, beq_iff_eq, htext] at htest
    rw [htest.2]
    exact List.mem_cons_self
  | kind wanted =>
    rw [Test.holds, beq_iff_eq, hkind] at htest
    simp [← htest]
  | _ =>
    simp only [Test.holds, hkind] at htest
    cases htest

theorem Token.IsSign.passes {sign : String} (h : Token.IsSign sign token) :
    Token.Passes token [.text sign.toList, .kind .operator] := by
  obtain ⟨hkind, htext⟩ := h
  intro test htest
  cases test with
  | text wanted =>
    rw [Test.holds, Bool.and_eq_true, beq_iff_eq, htext] at htest
    rw [htest.2]
    exact List.mem_cons_self
  | kind wanted =>
    rw [Test.holds, beq_iff_eq, hkind] at htest
    simp [← htest]
  | _ =>
    simp only [Test.holds, hkind] at htest
    cases htest

/-- A token that is neither a name nor an operator, a number or the start of a formatted string passes one
test only. -/
theorem Token.passes_kind (hkind : token.kind ≠ .name ∧ token.kind ≠ .operator ∧ token.kind ≠ .number
    ∧ token.kind ≠ .formatStart) : Token.Passes token [.kind token.kind] := by
  obtain ⟨hname, hoperator, hnumber, hformat⟩ := hkind
  intro test htest
  cases test with
  | kind wanted =>
    rw [Test.holds, beq_iff_eq] at htest
    simp [htest]
  | _ => simp [Test.holds, hname, hoperator, hnumber, hformat] at htest

theorem Token.Passes.mono {more : List Test} (h : Token.Passes token accepted) (hsub : accepted ⊆ more) :
    Token.Passes token more :=
  fun test htest => hsub (h test htest)

/-! ### The first test -/

namespace Pattern

/-- The first test of the pattern is one of those given as missed, given this of the rules. -/
def missesWith (missed : Test → Bool) (known : Rule → Bool) : Pattern Rule → Bool
  | .token test => missed test
  | .seq first second =>
    missesWith missed known first && (!first.skips || missesWith missed known second)
  | .alt first second => missesWith missed known first && missesWith missed known second
  | .many item | .only _ item => missesWith missed known item
  | .rule name => known name
  | .extend base _ => missesWith missed known base && !base.skips
  | .empty | .peek _ | .absent _ | .label _ => true

end Pattern

/-- The first test of the rule is missed, if rules nest no deeper than this. -/
def Rule.missesWithin (missed : Test → Bool) : Nat → Rule → Bool
  | 0, _ => false
  | nesting + 1, rule => rule.pattern.missesWith missed (missesWithin missed nesting)

/-- The pattern has to take a token, and its first test is missed. -/
def Pattern.stopsAt (missed : Test → Bool) (pattern : Pattern Rule) : Bool :=
  pattern.shallow && pattern.missesWith missed (Rule.missesWithin missed 30) && !pattern.skips

/-- The pattern has to take a token, and its first test is none of these. -/
def Pattern.refuses (accepted : List Test) (pattern : Pattern Rule) : Bool :=
  pattern.stopsAt fun test => !accepted.contains test

/-- The pattern has to take a token, and its first test is one of these. -/
def Pattern.beginsWith (tests : List Test) (pattern : Pattern Rule) : Bool :=
  pattern.stopsAt tests.contains

theorem leavesOf_eq_nil_of_misses {pattern : Pattern Rule} {trees : List Tree} {name : Option Node}
    {nesting : Nat} {missed : Test → Bool} (htoken : ∀ test, missed test = true → test.holds token = false)
    (h : Reads Rule.pattern pattern tokens trees name rest) (htokens : tokens.head? = some token)
    (hmisses : pattern.missesWith missed (Rule.missesWithin missed nesting) = true) :
    leavesOf trees = [] := by
  induction h generalizing nesting with
  | token _ htest =>
    cases htokens
    rw [htoken _ hmisses] at htest
    cases htest
  | seq hfirst _ ihfirst ihsecond =>
    rw [Pattern.missesWith, Bool.and_eq_true, Bool.or_eq_true] at hmisses
    have hnil := ihfirst htokens hmisses.1
    have hskips := skips_of_reads hfirst hnil
    rw [leavesOf_append, hnil, List.nil_append]
    have hsame := leavesOf_reads hfirst
    rw [hnil, List.nil_append] at hsame
    exact ihsecond (hsame ▸ htokens) (hmisses.2.resolve_left (by simp [hskips]))
  | left _ _ ih =>
    rw [Pattern.missesWith, Bool.and_eq_true] at hmisses
    exact ih htokens hmisses.1
  | right _ _ ih =>
    rw [Pattern.missesWith, Bool.and_eq_true] at hmisses
    exact ih htokens hmisses.2
  | again hitem _ ihitem ihmany =>
    have hnil := ihitem htokens hmisses
    have hsame := leavesOf_reads hitem
    rw [hnil, List.nil_append] at hsame
    rw [leavesOf_append, hnil, ihmany (hsame ▸ htokens) hmisses]
    rfl
  | rule _ ih =>
    rw [Pattern.missesWith] at hmisses
    cases nesting with
    | zero => cases hmisses
    | succ nesting =>
      rw [leavesOf_wrap]
      exact ih htokens hmisses
  | base _ hbase ih =>
    rw [Pattern.missesWith, Bool.and_eq_true] at hmisses
    rw [leavesOf_wrap]
    exact ih htokens hmisses.1
  | tail hformed _ ihformed _ =>
    have hparts := hmisses
    rw [Pattern.missesWith, Bool.and_eq_true, Bool.not_eq_true'] at hparts
    -- an extension whose base takes a token takes one
    have hskips := skips_of_reads hformed (ihformed htokens hmisses)
    rw [Pattern.skips, hparts.2] at hskips
    cases hskips
  | only _ _ ih => exact ih htokens hmisses
  | empty => rfl
  | stop => rfl
  | peek => rfl
  | absent => rfl
  | label => rfl

theorem not_reads_of_stopsAt {pattern : Pattern Rule} {trees : List Tree} {name : Option Node}
    {missed : Test → Bool} (hstops : pattern.stopsAt missed = true)
    (htoken : ∀ test, missed test = true → test.holds token = false) (htokens : tokens.head? = some token) :
    ¬Reads Rule.pattern pattern tokens trees name rest := by
  intro h
  rw [Pattern.stopsAt, Bool.and_eq_true, Bool.and_eq_true, Bool.not_eq_true'] at hstops
  have hskips := skips_of_reads h (leavesOf_eq_nil_of_misses htoken h htokens hstops.1.2)
  rw [hstops.2] at hskips
  cases hskips

theorem ends_of_stopsAt {pattern : Pattern Rule} {missed : Test → Bool}
    (hstops : pattern.stopsAt missed = true) (htoken : ∀ test, missed test = true → test.holds token = false)
    (htokens : tokens.head? = some token) : Ends Rule.pattern pattern tokens .failed := by
  have hshallow := hstops
  rw [Pattern.stopsAt, Bool.and_eq_true, Bool.and_eq_true] at hshallow
  obtain ⟨outcome, h⟩ := exists_ends hshallow.1.1 tokens
  cases outcome with
  | exhausted => exact absurd rfl h.verdict
  | failed => exact h
  | matched => exact absurd h.reads (not_reads_of_stopsAt hstops htoken htokens)

theorem Token.Passes.misses (h : Token.Passes token accepted) :
    ∀ test, (!accepted.contains test) = true → test.holds token = false := by
  intro test hmissed
  rw [Bool.not_eq_true', Bool.eq_false_iff, ne_eq, List.contains_iff_mem] at hmissed
  exact Bool.eq_false_iff.2 fun htest => hmissed (h test htest)

theorem Ends.fails {pattern : Pattern Rule} (hrefuses : pattern.refuses accepted = true)
    (hpasses : Token.Passes token accepted) (htokens : tokens.head? = some token) :
    Ends Rule.pattern pattern tokens .failed :=
  ends_of_stopsAt hrefuses hpasses.misses htokens

/-- A pattern fails at a token that none of its first tests take. -/
theorem Ends.fails_at {pattern : Pattern Rule} {tests : List Test} (hbegins : pattern.beginsWith tests = true)
    (htoken : ∀ test ∈ tests, test.holds token = false) (htokens : tokens.head? = some token) :
    Ends Rule.pattern pattern tokens .failed :=
  ends_of_stopsAt hbegins (fun test htest => htoken test (List.contains_iff_mem.1 htest)) htokens

end Bundler.Grammar
