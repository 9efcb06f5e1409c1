import Bundler.Proofs.Grammar.First

/-!
# A string in parentheses

Around a string may stand any number of parentheses. Where an expression is asked for, the string is read
with all of them, as groups one inside the other (`Enclosed.takes`); where a target is asked for, nothing
is read (`Enclosed.no_target`).
-/

namespace Bundler.Grammar

open Bundler.Source (Token)

variable {tokens rest : List Token} {literal closer : Token} {value : Tree}

/-- The tokens begin with a string in parentheses, or without. -/
inductive Enclosed (literal : Token) : Tree → List Token → List Token → Prop
  | bare (rest : List Token) : Enclosed literal (.leaf literal) (literal :: rest) rest
  | parens {opening closing : Token} {value : Tree} {tokens rest : List Token}
      (hopening : Token.IsSign "(" opening) (hclosing : Token.IsSign ")" closing)
      (hinner : Enclosed literal value tokens (closing :: rest)) :
    Enclosed literal (.node .group [.leaf opening, value, .leaf closing]) (opening :: tokens) rest

/-- The tests of the first token of such a string. -/
def enclosedTests : List Test := [.text ['('], .kind .operator, .kind .string]

def behindTests : List Test := [.text [')'], .text [','], .kind .operator]

theorem Enclosed.head (h : Enclosed literal value tokens rest) (hliteral : literal.kind = .string) :
    ∃ head, tokens.head? = some head ∧ Token.Passes head enclosedTests := by
  cases h with
  | bare =>
    refine ⟨literal, rfl, (Token.passes_kind (by simp [hliteral])).mono ?_⟩
    simp [hliteral, enclosedTests]
  | parens hopening => exact ⟨_, rfl, hopening.passes.mono (by simp [enclosedTests])⟩

/-! ### From an atom to an expression -/

abbrev Rule.Takes (rule : Rule) (tokens : List Token) (value : Tree) (rest : List Token) : Prop :=
  Ends Rule.pattern (.rule rule) tokens (.matched [value] none rest)

/-- The rules from an atom up to an expression. -/
def operands : List Rule :=
  [.atom, .primary, .awaited, .power, .factor, .term, .sum, .shift, .bitwiseAnd, .bitwiseXor, .bitwiseOr,
    .comparison, .inversion, .conjunction, .disjunction, .expression]

/-- These rules, and an expression that may be named. -/
def ladder : List Rule := operands ++ [.namedExpression]

/-- The tests for what stands in front of an operand. -/
def prefixTests : List Test := ["await", "+", "-", "~", "not"].map fun word => .text word.toList

/-- The tests for what goes on behind an operand. -/
def suffixTests : List Test :=
  [".", "(", "[", "**", "*", "/", "//", "%", "@", "+", "-", "<<", ">>", "&", "^", "|", "==", "!=", "<=", "<",
    ">=", ">", "in", "not", "is", "and", "or", "if"].map fun word => .text word.toList

set_option maxRecDepth 20000 in
/-- Where nothing but an atom stands, every rule above it reads the atom. -/
theorem takes_operand {head : Token} (hatom : Rule.Takes .atom tokens value (closer :: rest))
    (hhead : tokens.head? = some head) (hstart : ∀ test ∈ prefixTests, test.holds head = false)
    (hcloser : ∀ test ∈ suffixTests, test.holds closer = false) :
    ∀ rule ∈ operands, rule.Takes tokens value (closer :: rest) := by
  have hstop : ∀ {pattern : Pattern Rule}, pattern.beginsWith suffixTests = true →
      Ends Rule.pattern pattern (closer :: rest) .failed := fun h => .fails_at h hcloser rfl
  have hnot : ∀ {pattern : Pattern Rule}, pattern.beginsWith prefixTests = true →
      Ends Rule.pattern pattern tokens .failed := fun h => .fails_at h hstart hhead
  have hprimary : Rule.Takes .primary tokens value (closer :: rest) :=
    .unnamed (hatom.extend (.stop (hstop rfl)))
  have hawaited : Rule.Takes .awaited tokens value (closer :: rest) :=
    .unnamed ((hnot rfl).right hprimary)
  have hpower : Rule.Takes .power tokens value (closer :: rest) :=
    .unnamed (hawaited.without (hstop rfl))
  have hfactor : Rule.Takes .factor tokens value (closer :: rest) :=
    .unnamed ((hnot rfl).right hpower)
  have hterm : Rule.Takes .term tokens value (closer :: rest) :=
    .unnamed (hfactor.extend (.stop (hstop rfl)))
  have hsum : Rule.Takes .sum tokens value (closer :: rest) :=
    .unnamed (hterm.extend (.stop (hstop rfl)))
  have hshift : Rule.Takes .shift tokens value (closer :: rest) :=
    .unnamed (hsum.extend (.stop (hstop rfl)))
  have hand : Rule.Takes .bitwiseAnd tokens value (closer :: rest) :=
    .unnamed (hshift.extend (.stop (hstop rfl)))
  have hxor : Rule.Takes .bitwiseXor tokens value (closer :: rest) :=
    .unnamed (hand.extend (.stop (hstop rfl)))
  have hor : Rule.Takes .bitwiseOr tokens value (closer :: rest) :=
    .unnamed (hxor.extend (.stop (hstop rfl)))
  have hcomparison : Rule.Takes .comparison tokens value (closer :: rest) :=
    .unnamed (hor.without (hstop rfl))
  have hinversion : Rule.Takes .inversion tokens value (closer :: rest) :=
    .unnamed ((hnot rfl).right hcomparison)
  have hconjunction : Rule.Takes .conjunction tokens value (closer :: rest) :=
    .unnamed (hinversion.without (hstop rfl))
  have hdisjunction : Rule.Takes .disjunction tokens value (closer :: rest) :=
    .unnamed (hconjunction.without (hstop rfl))
  have hexpression : Rule.Takes .expression tokens value (closer :: rest) :=
    .unnamed (.left (hdisjunction.without (hstop rfl)) _)
  simp only [operands, List.forall_mem_cons]
  exact ⟨hatom, hprimary, hawaited, hpower, hfactor, hterm, hsum, hshift, hand, hxor, hor, hcomparison,
    hinversion, hconjunction, hdisjunction, hexpression, nofun⟩

set_option maxRecDepth 20000 in
theorem takes_of_atom {head : Token} (hatom : Rule.Takes .atom tokens value (closer :: rest))
    (hhead : tokens.head? = some head) (hstart : Token.Passes head enclosedTests)
    (hcloser : Token.Passes closer behindTests) :
    ∀ rule ∈ ladder, rule.Takes tokens value (closer :: rest) := by
  have hoperands := takes_operand hatom hhead (fun test htest => hstart.misses test (by revert test; decide))
    (fun test htest => hcloser.misses test (by revert test; decide))
  have hnot : Ends Rule.pattern (Rule.name ++ Rule.tok ":=" ++ Rule.ref .expression ++ .label .named) tokens
      .failed := .fails rfl hstart hhead
  have habsent : Ends Rule.pattern (.absent (Rule.tok ":=")) (closer :: rest)
      (.matched [] none (closer :: rest)) := .absent (.fails rfl hcloser rfl)
  have hnamed : Rule.Takes .namedExpression tokens value (closer :: rest) :=
    .unnamed (hnot.right ((hoperands .expression (by simp [operands])).seq habsent))
  exact List.forall_mem_append.2 ⟨hoperands, List.forall_mem_singleton.2 hnamed⟩

/-! ### The string is read -/

def pieceTests : List Test := [.kind .string, .plainFormat, .templateFormat]

theorem takes_string (hliteral : literal.kind = .string)
    (hcloser : ∀ test ∈ pieceTests, test.holds closer = false) :
    Rule.Takes .atom (literal :: closer :: rest) (.leaf literal) (closer :: rest) := by
  have hpasses : Token.Passes literal [.kind literal.kind] := Token.passes_kind (by simp [hliteral])
  rw [hliteral] at hpasses
  have hnot : ∀ {pattern : Pattern Rule}, pattern.refuses [.kind .string] = true →
      Ends Rule.pattern pattern (literal :: closer :: rest) .failed := fun h => .fails h hpasses rfl
  have hpiece : Ends Rule.pattern (.alt (.token (.kind .string)) (.rule .formattedString))
      (literal :: closer :: rest) (.matched [.leaf literal] none (closer :: rest)) :=
    (Ends.token (by simp [Test.holds, hliteral])).left _
  have hstrings : Rule.Takes .strings (literal :: closer :: rest) (.leaf literal) (closer :: rest) :=
    .unnamed (hpiece.without (.fails_at rfl hcloser rfl))
  exact .unnamed ((hnot rfl).right ((hnot rfl).right (hstrings.left _)))

theorem takes_parens {opening closing : Token} (hopening : Token.IsSign "(" opening)
    (hclosing : Token.IsSign ")" closing) (hinner : Rule.Takes .namedExpression tokens value (closing :: rest))
    {head : Token} (hhead : tokens.head? = some head) (hstart : Token.Passes head enclosedTests) :
    Rule.Takes .atom (opening :: tokens) (.node .group [.leaf opening, value, .leaf closing]) rest := by
  have hnot : ∀ {pattern : Pattern Rule}, pattern.refuses [.text ['('], .kind .operator] = true →
      Ends Rule.pattern pattern (opening :: tokens) .failed := fun h => .fails h hopening.passes rfl
  have hnone : ∀ {pattern : Pattern Rule}, pattern.refuses enclosedTests = true →
      Ends Rule.pattern pattern tokens .failed := fun h => .fails h hstart hhead
  have hclose : Ends Rule.pattern (Rule.tok ")") (closing :: rest) (.matched [.leaf closing] none rest) :=
    .token (by simp [Test.holds, hclosing.1, hclosing.2])
  have hopen : Ends Rule.pattern (Rule.tok "(") (opening :: tokens) (.matched [.leaf opening] none tokens) :=
    .token (by simp [Test.holds, hopening.1, hopening.2])
  have hpattern : Ends Rule.pattern (Rule.pattern .parenthesized) (opening :: tokens)
      (.matched [.leaf opening, value, .leaf closing] (some .group) rest) :=
    hopen.seq ((hnone rfl).right ((hnone rfl).right
      (.left (hinner.seq (.left (hclose.seq (.label .group)) _)) _)))
  have hgroup : Rule.Takes .parenthesized (opening :: tokens)
      (.node .group [.leaf opening, value, .leaf closing]) rest := hpattern.rule
  exact .unnamed ((hnot rfl).right ((hnot rfl).right
    ((hnot rfl).right ((hnot rfl).right (hgroup.left _)))))

theorem Enclosed.takes (h : Enclosed literal value tokens (closer :: rest)) (hliteral : literal.kind = .string)
    (hcloser : Token.Passes closer behindTests) :
    ∀ rule ∈ ladder, rule.Takes tokens value (closer :: rest) := by
  generalize hbehind : closer :: rest = behind at h
  induction h generalizing closer rest with
  | bare =>
    subst hbehind
    obtain ⟨head, hhead, hstart⟩ := (Enclosed.bare (closer :: rest)).head hliteral
    have hpieces : ∀ test ∈ pieceTests, test.holds closer = false :=
      fun test htest => hcloser.misses test (by revert test; decide)
    exact takes_of_atom (takes_string hliteral hpieces) hhead hstart hcloser
  | @parens opening closing value tokens rest hopening hclosing hinner ih =>
    subst hbehind
    have hclosers : Token.Passes closing behindTests := hclosing.passes.mono (by simp [behindTests])
    have hnamed := ih hclosers rfl .namedExpression (by simp [ladder, operands])
    obtain ⟨head, hhead, hstart⟩ := hinner.head hliteral
    exact takes_of_atom (takes_parens hopening hclosing hnamed hhead hstart) rfl
      (hopening.passes.mono (by simp [enclosedTests])) hcloser

/-! ### The string is no target -/

theorem Enclosed.no_place (h : Enclosed literal value tokens (closer :: rest)) (hliteral : literal.kind = .string)
    (hcloser : Token.Passes closer behindTests) : Ends Rule.pattern Rule.place tokens .failed := by
  have hprimary := h.takes hliteral hcloser .primary (by simp [ladder, operands])
  refine hprimary.only_other fun kind hkind children heq => ?_
  cases h with
  | bare => cases heq
  | parens =>
    cases heq
    simp at hkind

def targets : List Rule := [.starAtom, .target, .starTarget, .singleTarget, .deleteTarget]

/-- A string in parentheses is no target. -/
theorem Enclosed.no_target (h : Enclosed literal value tokens (closer :: rest))
    (hliteral : literal.kind = .string) (hcloser : Token.Passes closer behindTests) :
    ∀ rule ∈ targets, Ends Rule.pattern (.rule rule) tokens .failed := by
  generalize hbehind : closer :: rest = behind at h
  induction h generalizing closer rest with
  | bare =>
    subst hbehind
    have hbare : Enclosed literal (.leaf literal) (literal :: closer :: rest) (closer :: rest) := .bare _
    have hplace := hbare.no_place hliteral hcloser
    have hpasses : Token.Passes literal [.kind literal.kind] := Token.passes_kind (by simp [hliteral])
    rw [hliteral] at hpasses
    have hnot : ∀ {pattern : Pattern Rule}, pattern.refuses [.kind .string] = true →
        Ends Rule.pattern pattern (literal :: closer :: rest) .failed := fun h => .fails h hpasses rfl
    have hatom : Ends Rule.pattern (.rule .starAtom) (literal :: closer :: rest) .failed :=
      hnot rfl
    have htarget : Ends Rule.pattern (.rule .target) (literal :: closer :: rest) .failed :=
      .rule_failed (hplace.right hatom)
    have hstar : Ends Rule.pattern (.rule .starTarget) (literal :: closer :: rest) .failed :=
      .rule_failed ((hnot rfl).right htarget)
    have hsingle : Ends Rule.pattern (.rule .singleTarget) (literal :: closer :: rest) .failed :=
      .rule_failed (hplace.right (hnot rfl))
    have hdelete : Ends Rule.pattern (.rule .deleteTarget) (literal :: closer :: rest) .failed :=
      .rule_failed (hplace.right (hnot rfl))
    simp only [targets, List.forall_mem_cons]
    exact ⟨hatom, htarget, hstar, hsingle, hdelete, nofun⟩
  | @parens opening closing value tokens rest hopening hclosing hinner ih =>
    subst hbehind
    have hinside := ih (hclosing.passes.mono (by simp [behindTests])) rfl
    simp only [targets, List.forall_mem_cons] at hinside ⊢
    obtain ⟨-, htarget, -, hsingle, hdelete, -⟩ := hinside
    obtain ⟨head, hhead, hstart⟩ := hinner.head hliteral
    have hplace := (Enclosed.parens hopening hclosing hinner).no_place hliteral hcloser
    have hnot : ∀ {pattern : Pattern Rule}, pattern.refuses [.text ['('], .kind .operator] = true →
        Ends Rule.pattern pattern (opening :: tokens) .failed := fun h => .fails h hopening.passes rfl
    have hnone : ∀ {pattern : Pattern Rule}, pattern.refuses enclosedTests = true →
        Ends Rule.pattern pattern tokens .failed := fun h => .fails h hstart hhead
    have hopen : Ends Rule.pattern (Rule.tok "(") (opening :: tokens) (.matched [.leaf opening] none tokens) :=
      .token (by simp [Test.holds, hopening.1, hopening.2])
    have hatom : Ends Rule.pattern (.rule .starAtom) (opening :: tokens) .failed :=
      .rule_failed ((hnot rfl).right (.right (hopen.seq_failed_behind
        ((hnone rfl).right (.right (.seq_failed htarget _) (hnone rfl))))
        (hnot rfl)))
    have htarget : Ends Rule.pattern (.rule .target) (opening :: tokens) .failed :=
      .rule_failed (hplace.right hatom)
    have hstar : Ends Rule.pattern (.rule .starTarget) (opening :: tokens) .failed :=
      .rule_failed ((hnot rfl).right htarget)
    have hsingle : Ends Rule.pattern (.rule .singleTarget) (opening :: tokens) .failed :=
      .rule_failed (hplace.right ((hnot rfl).right
        (.seq_failed (.seq_failed (hopen.seq_failed_behind hsingle) _) _)))
    have hdelete : Ends Rule.pattern (.rule .deleteTarget) (opening :: tokens) .failed :=
      .rule_failed (hplace.right ((hnot rfl).right (.right (hopen.seq_failed_behind
        ((hnone rfl).right (.seq_failed hdelete _))) (hnot rfl))))
    exact ⟨hatom, htarget, hstar, hsingle, hdelete, nofun⟩

end Bundler.Grammar
