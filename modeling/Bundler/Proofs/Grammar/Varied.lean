import Bundler.Proofs.Grammar.Alike
import Bundler.Proofs.Grammar.Enclosed
import Bundler.Proofs.Grammar.Tandem

/-!
# Names and strings that give way to others

Within a logical line a name may give way to any other name that is no keyword, a string to another string, and
a string in parentheses that a parenthesis precedes to a string without them (`Varies`). A token that a test
takes on one side it takes on the other, unless the test asks for a word that may be a name
(`Varies.taken`).
-/

namespace Bundler.Grammar

open Bundler.Source (Token TokenKind)

variable {fuel : Nat} {tokens twins rest left : List Token} {test : Test}

/-! ### The relation -/

/-- The token keeps apart what comes before it: it is no name, and it does not end the name of a conversion. -/
def Token.Bars (token : Token) : Prop :=
  ∀ test ∈ [Test.identifier, .text [':'], .text ['\x7d']], test.holds token = false

/-- The tests do not tell the tokens apart. -/
abbrev Token.Same (token twin : Token) : Prop := Token.Alike (fun _ => True) token twin

/-- The string behind an opening parenthesis loses the parentheses of its own. -/
structure Loses (literal twin closer : Token) (tokens rest : List Token) : Prop where
  enclosed : ∃ value, Enclosed literal value tokens (closer :: rest)
  literal : literal.kind = .string
  twin : twin.kind = .string
  closer : Token.Passes closer behindTests

/-- Within a line, names give way to names and strings to strings; behind the end of the line comes
anything. -/
inductive Varies : Sides
  | nil : Varies [] []
  | kept {token twin : Token} {rest left : List Token} (hsame : Token.Same token twin)
      (hrest : Varies rest left) : Varies (token :: rest) (twin :: left)
  | line {token twin : Token} (htoken : token.kind = .newline) (htwin : twin.kind = .newline)
      (rest left : List Token) : Varies (token :: rest) (twin :: left)
  | name {token twin next other : Token} {rest left : List Token} (htoken : Token.IsName token)
      (htwin : Token.IsName twin) (hnext : Token.Bars next) (hother : Token.Bars other)
      (hrest : Varies (next :: rest) (other :: left)) :
    Varies (token :: next :: rest) (twin :: other :: left)
  | parens {opening literal twin closer : Token} {tokens rest left : List Token}
      (hopening : Token.IsSign "(" opening) (hloses : Loses literal twin closer tokens rest)
      (hrest : Varies rest left) : Varies (opening :: tokens) (opening :: twin :: closer :: left)

/-- Behind an opening parenthesis, a string has lost its own. -/
inductive Inside : Sides
  | mk {literal twin closer : Token} {tokens rest left : List Token}
      (hloses : Loses literal twin closer tokens rest) (hrest : Varies rest left) :
    Inside tokens (twin :: closer :: left)

/-- In a line, or directly behind a parenthesis if this is said. -/
def Near (inside : Bool) : Sides := fun tokens twins =>
  Varies tokens twins ∨ inside = true ∧ Inside tokens twins

theorem Varies.near {inside : Bool} (h : Varies tokens twins) : Near inside tokens twins := .inl h

theorem Near.mono {inside wider : Bool} (h : Near inside tokens twins)
    (hwider : inside = true → wider = true) : Near wider tokens twins :=
  h.imp_right fun h => ⟨hwider h.1, h.2⟩

theorem near_false : Near false tokens twins ↔ Varies tokens twins := by simp [Near]

/-! ### Single tokens -/

/-- The test is not met by names that are no keywords, unless by all of them. -/
def Test.steady : Test → Bool
  | .text word => keywords.contains word || !Text.isIdentifier word
  | .kind wanted => !List.contains [.newline, .name, .operator] wanted
  | _ => true

/-- The test is met neither by an opening parenthesis nor by a string. -/
def Test.mild (test : Test) : Bool := test.steady && !enclosedTests.contains test

theorem Token.Same.kind {token twin : Token} (h : Token.Same token twin) : twin.kind = token.kind := by
  have hkind := h (.kind token.kind) trivial
  rw [Test.holds, Test.holds, beq_self_eq_true, beq_iff_eq] at hkind
  exact hkind

theorem Token.IsName.holds_iff {token : Token} (h : Token.IsName token) (hsteady : test.steady = true) :
    test.holds token = true ↔ test = .identifier := by
  obtain ⟨hkind, hname, hword⟩ := h
  cases test with
  | identifier => simp [Test.holds, hkind, hword]
  | text word =>
    simp only [Test.holds, Bool.and_eq_true, beq_iff_eq, reduceCtorEq, iff_false, not_and]
    rintro - rfl
    simp [Test.steady, hword, hname] at hsteady
  | kind wanted =>
    simp only [Test.holds, beq_iff_eq, reduceCtorEq, iff_false]
    rintro rfl
    simp [Test.steady, hkind] at hsteady
  | _ => simp [Test.holds, hkind]

theorem steady_of_newline {token : Token} (htoken : token.kind = .newline) (hsteady : test.steady = true) :
    test.holds token = false := by
  rw [Bool.eq_false_iff]
  intro htest
  have hpasses : Token.Passes token [.kind token.kind] := Token.passes_kind (by simp [htoken])
  have hmem := hpasses test htest
  rw [List.mem_singleton, htoken] at hmem
  subst hmem
  cases hsteady

/-- A steady test is met on both sides or on neither. -/
theorem Varies.head_iff (h : Varies tokens twins) (hsteady : test.steady = true) :
    (∃ token, tokens.head? = some token ∧ test.holds token = true)
      ↔ ∃ twin, twins.head? = some twin ∧ test.holds twin = true := by
  cases h with
  | nil => simp
  | kept hsame => simp [hsame test trivial]
  | line htoken htwin => simp [steady_of_newline htoken hsteady, steady_of_newline htwin hsteady]
  | name htoken htwin => simp [htoken.holds_iff hsteady, htwin.holds_iff hsteady]
  | parens => simp

theorem Loses.twin_passes {literal twin closer : Token} (h : Loses literal twin closer tokens rest) :
    Token.Passes twin enclosedTests :=
  (Token.passes_kind (by simp [h.twin])).mono (by simp [h.twin, enclosedTests])

theorem Loses.head {literal twin closer : Token} (h : Loses literal twin closer tokens rest) :
    ∃ head, tokens.head? = some head ∧ Token.Passes head enclosedTests := by
  obtain ⟨value, hvalue⟩ := h.enclosed
  exact hvalue.head h.literal

/-- What a steady test takes on one side, it takes on the other. -/
theorem Varies.taken {token : Token} (h : Varies (token :: rest) twins) (hsteady : test.steady = true)
    (htest : test.holds token = true) : ∃ twin left, twins = twin :: left ∧ test.holds twin = true
      ∧ twin.kind = token.kind ∧ Near (test == .text ['(']) rest left := by
  cases h with
  | kept hsame hrest => exact ⟨_, _, rfl, by rw [hsame test trivial, htest], hsame.kind, hrest.near⟩
  | line htoken => simp [steady_of_newline htoken hsteady] at htest
  | name htoken htwin _ _ hrest =>
    have hidentifier := (htoken.holds_iff hsteady).1 htest
    exact ⟨_, _, rfl, (htwin.holds_iff hsteady).2 hidentifier, htwin.1.trans htoken.1.symm, hrest.near⟩
  | parens hopening hloses hrest =>
    refine ⟨_, _, rfl, htest, rfl, .inr ⟨?_, .mk hloses hrest⟩⟩
    have hmem := hopening.passes test htest
    simp only [List.mem_cons, List.not_mem_nil, or_false] at hmem
    rcases hmem with rfl | rfl
    · rfl
    · cases hsteady

theorem tandem_token (hsteady : test.steady = true) :
    Tandem Rule.pattern fuel Varies (.token test) (Near (test == .text ['('])) := by
  refine .token (fun token rest twins hsides htest => hsides.taken hsteady htest)
    fun tokens twin left hsides htest => ?_
  obtain ⟨token, hhead, htoken⟩ := (hsides.head_iff hsteady).2 ⟨twin, rfl, htest⟩
  obtain ⟨rest, rfl⟩ := List.head?_eq_some_iff.1 hhead
  exact ⟨token, rest, rfl, htoken⟩

theorem tandem_newline :
    Tandem Rule.pattern fuel Varies (.token (.kind .newline)) fun _ _ => True := by
  have hname : ∀ {token : Token}, Token.IsName token → (Test.kind .newline).holds token = false := by
    intro token h
    simp [Test.holds, h.1]
  have hopening : ∀ {token : Token}, Token.IsSign "(" token → (Test.kind .newline).holds token = false := by
    intro token h
    simp [Test.holds, h.1]
  refine .token (fun token rest twins hsides htest => ?_) fun tokens twin left hsides htest => ?_
  · cases hsides with
    | kept hsame => exact ⟨_, _, rfl, by rw [hsame _ trivial, htest], hsame.kind, trivial⟩
    | line htoken htwin => exact ⟨_, _, rfl, by simp [Test.holds, htwin], htwin.trans htoken.symm, trivial⟩
    | name htoken => simp [hname htoken] at htest
    | parens hparen => simp [hopening hparen] at htest
  · cases hsides with
    | kept hsame => exact ⟨_, _, rfl, by rw [← hsame _ trivial, htest]⟩
    | line htoken => exact ⟨_, _, rfl, by simp [Test.holds, htoken]⟩
    | name _ htwin => simp [hname htwin] at htest
    | parens hparen => simp [hopening hparen] at htest

/-- A mild test is met neither by what had parentheses nor by what has lost them. -/
theorem tandem_token_inside (hmild : test.mild = true) (after : Sides) :
    Tandem Rule.pattern fuel Inside (.token test) after := by
  have hnot : test ∉ enclosedTests := by
    rw [Test.mild, Bool.and_eq_true, Bool.not_eq_true', Bool.eq_false_iff, ne_eq,
      List.contains_iff_mem] at hmild
    exact hmild.2
  refine .token (fun token rest twins hsides htest => ?_) fun tokens twin left hsides htest => ?_
  · cases hsides with
    | mk hloses =>
      obtain ⟨head, hhead, hpasses⟩ := hloses.head
      cases hhead
      exact absurd (hpasses test htest) hnot
  · cases hsides with
    | mk hloses => exact absurd (hloses.twin_passes test htest) hnot

end Bundler.Grammar
