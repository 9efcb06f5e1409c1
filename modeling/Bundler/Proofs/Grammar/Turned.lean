import Bundler.Proofs.Grammar.InLine
import Bundler.Proofs.Load.Calls

/-!
# Trees whose calls are turned

`Turns` relates the trees of a module to those in which some calls have another name for their callee and
another string for their only argument, without the parentheses around it. Their leaves vary in a line
(`Turns.varies`), so what stands in a line is read alike (`Turns.reads`).
-/

namespace Bundler.Grammar

open Bundler.Source (Token TokenKind)

variable {trees others more result : List Tree} {rest left : List Token} {kind : Node}

/-! ### The relation -/

/-- The tree is the token, or parentheses around it. -/
inductive Tree.Encloses : Tree → Token → Prop
  | leaf (token : Token) : Encloses (.leaf token) token
  | group {opening closing token : Token} {inner : Tree} (hopening : Token.IsSign "(" opening)
      (hclosing : Token.IsSign ")" closing) (hinner : inner.Encloses token) :
    Encloses (.node .group [.leaf opening, inner, .leaf closing]) token

theorem Tree.Encloses.enclosed {tree : Tree} {token : Token} (h : tree.Encloses token) (rest : List Token) :
    Enclosed token tree (tree.leaves ++ rest) rest := by
  induction h generalizing rest with
  | leaf => exact .bare rest
  | @group opening closing token inner hopening hclosing _ ih =>
    simpa [Tree.leaves, leavesOf] using Enclosed.parens hopening hclosing (ih (closing :: rest))

theorem Tree.Encloses.kind_ne_newline {tree : Tree} {token : Token} (h : tree.Encloses token)
    (hkind : token.kind = .string) : ∀ leaf ∈ tree.leaves, leaf.kind ≠ .newline := by
  induction h with
  | leaf => simp [Tree.leaves, hkind]
  | group hopening hclosing _ ih =>
    simp only [Tree.leaves, leavesOf, List.append_nil, List.mem_append, List.mem_singleton]
    rintro leaf (rfl | hmem | rfl)
    · simp [hopening.1]
    · exact ih hkind leaf hmem
    · simp [hclosing.1]

/-- In some calls another name and another string have taken the places of the callee and of the value of
the only argument. -/
inductive Turns : List Tree → List Tree → Prop
  | nil : Turns [] []
  | leaf (token : Token) {trees others : List Tree} (hrest : Turns trees others) :
    Turns (.leaf token :: trees) (.leaf token :: others)
  | node (kind : Node) {children more trees others : List Tree} (hchildren : Turns children more)
      (hrest : Turns trees others) : Turns (.node kind children :: trees) (.node kind more :: others)
  | call {name twin opening literal other closer : Token} {value : Tree} (closing : List Token)
      {trees others : List Tree} (hname : Token.IsName name) (htwin : Token.IsName twin)
      (hopening : Token.IsSign "(" opening)
      (hvalue : value.Encloses literal)
      (hliteral : literal.kind = .string) (hother : other.kind = .string)
      (hcloser : Token.Passes closer behindTests) (hrest : Turns trees others) :
    Turns (.node .call (.leaf name :: .leaf opening :: .node .argument [value] :: .leaf closer
        :: closing.map .leaf) :: trees)
      (.node .call (.leaf twin :: .leaf opening :: .node .argument [.leaf other] :: .leaf closer
        :: closing.map .leaf) :: others)

namespace Turns

theorem append (h : Turns trees others) (hmore : Turns more result) :
    Turns (trees ++ more) (others ++ result) := by
  induction h with
  | nil => exact hmore
  | leaf token _ ih => exact .leaf token ih
  | node kind hchildren _ _ ih => exact .node kind hchildren ih
  | call closing hname htwin hopening hvalue hliteral hother hcloser _ ih =>
    exact .call closing hname htwin hopening hvalue hliteral hother hcloser ih

theorem of_append {first second : List Tree} (h : Turns (first ++ second) others) :
    ∃ trees more, others = trees ++ more ∧ Turns first trees ∧ Turns second more := by
  induction first generalizing others with
  | nil => exact ⟨[], others, rfl, .nil, h⟩
  | cons tree first ih =>
    rw [List.cons_append] at h
    cases h with
    | leaf token hrest =>
      obtain ⟨trees, more, rfl, hfirst, hsecond⟩ := ih hrest
      exact ⟨_ :: trees, more, rfl, .leaf token hfirst, hsecond⟩
    | node kind hchildren hrest =>
      obtain ⟨trees, more, rfl, hfirst, hsecond⟩ := ih hrest
      exact ⟨_ :: trees, more, rfl, .node kind hchildren hfirst, hsecond⟩
    | call closing hname htwin hopening hvalue hliteral hother hcloser hrest =>
      obtain ⟨trees, more, rfl, hfirst, hsecond⟩ := ih hrest
      exact ⟨_ :: trees, more, rfl, .call closing hname htwin hopening hvalue hliteral hother hcloser hfirst,
        hsecond⟩

/-- A node that is no call has a node of its kind for its twin. -/
theorem of_node {children : List Tree} (h : Turns [.node kind children] others) (hkind : kind ≠ .call) :
    ∃ more, others = [.node kind more] ∧ Turns children more := by
  cases h with
  | node _ hchildren hrest =>
    cases hrest
    exact ⟨_, rfl, hchildren⟩
  | call => exact absurd rfl hkind

theorem of_wrap {name : Option Node} (h : Turns (wrap name trees) others) (hname : name ≠ some .call) :
    ∃ more, others = wrap name more ∧ Turns trees more := by
  cases name with
  | none => exact ⟨others, rfl, h⟩
  | some kind => exact of_node h fun heq => hname (congrArg some heq)

theorem resemble (h : Turns trees others) : Resemble trees others := by
  have hleaves : ∀ tokens : List Token, Resemble (tokens.map .leaf) (tokens.map .leaf) := by
    intro tokens
    induction tokens with
    | nil => exact .nil
    | cons token rest ih => exact .leaf rfl ih
  induction h with
  | nil => exact .nil
  | leaf token _ ih => exact .leaf rfl ih
  | node kind _ _ ihchildren ih => exact .node kind ihchildren ih
  | call closing hname htwin hopening hvalue hliteral hother hcloser _ ih =>
    refine .node .call (.leaf (htwin.1.trans hname.1.symm) (.leaf rfl (.node .argument ?_ ?_))) ih
    · cases hvalue with
      | leaf => exact .leaf (hother.trans hliteral.symm) .nil
      | group hopening => exact .bare _ (by simp [hopening.1]) hother .nil
    · exact .leaf rfl (hleaves closing)

end Turns

theorem Token.IsSign.bars {token : Token} (h : Token.IsSign "(" token) : Token.Bars token := by
  intro test htest
  rw [Bool.eq_false_iff]
  intro hholds
  have hmem := h.passes test hholds
  simp only [List.mem_cons, List.not_mem_nil, or_false] at htest hmem
  obtain rfl | rfl | rfl := htest <;> obtain heq | heq := hmem <;> cases heq

theorem Varies.append_left (tokens : List Token) (h : Varies rest left) :
    Varies (tokens ++ rest) (tokens ++ left) := by
  induction tokens with
  | nil => exact h
  | cons token tokens ih => exact .kept (fun _ _ => rfl) ih

/-- Where a line ends, anything may follow. -/
theorem varies_of_newline {tokens : List Token} (hline : ∃ token ∈ tokens, token.kind = .newline) :
    Varies (tokens ++ rest) (tokens ++ left) := by
  induction tokens with
  | nil => simp at hline
  | cons token tokens ih =>
    obtain ⟨found, hmem, hkind⟩ := hline
    rcases List.mem_cons.1 hmem with rfl | hmem
    · exact .line hkind hkind _ _
    · exact .kept (fun _ _ => rfl) (ih ⟨found, hmem, hkind⟩)

namespace Turns

/-- The leaves vary in a line, if what follows them does or if the line ends among them. -/
theorem varies_or_line (h : Turns trees others)
    (hrest : Varies rest left ∨ ∃ token ∈ leavesOf trees, token.kind = .newline) :
    Varies (leavesOf trees ++ rest) (leavesOf others ++ left) := by
  induction h generalizing rest left with
  | nil => exact hrest.resolve_right (by simp [leavesOf])
  | leaf token _ ih =>
    simp only [leavesOf, Tree.leaves, List.cons_append, List.nil_append, List.mem_cons,
      exists_eq_or_imp] at hrest ⊢
    rcases hrest with hrest | hkind | hline
    · exact .kept (fun _ _ => rfl) (ih (.inl hrest))
    · exact .line hkind hkind _ _
    · exact .kept (fun _ _ => rfl) (ih (.inr hline))
  | node kind _ _ ihchildren ih =>
    simp only [leavesOf, Tree.leaves, List.append_assoc]
    rcases hrest with hrest | ⟨token, hmem, hkind⟩
    · exact ihchildren (.inl (ih (.inl hrest)))
    simp only [leavesOf, Tree.leaves, List.mem_append] at hmem
    rcases hmem with hmem | hmem
    · exact ihchildren (.inr ⟨token, hmem, hkind⟩)
    · exact ihchildren (.inl (ih (.inr ⟨token, hmem, hkind⟩)))
  | @call name twin opening literal other closer value closing trees others hname htwin hopening hvalue
      hliteral hother hcloser _ ih =>
    have hbehind : Varies (closing ++ (leavesOf trees ++ rest)) (closing ++ (leavesOf others ++ left)) := by
      rcases hrest with hrest | ⟨token, hmem, hkind⟩
      · exact (ih (.inl hrest)).append_left closing
      simp only [leavesOf, Tree.leaves, leavesOf_map_leaf, List.append_nil, List.cons_append,
        List.nil_append, List.mem_append, List.mem_cons] at hmem
      rcases hmem with rfl | rfl | (hmem | rfl | hmem) | hmem
      · simp [hname.1] at hkind
      · simp [hopening.1] at hkind
      · exact absurd hkind (hvalue.kind_ne_newline hliteral token hmem)
      · exact absurd (hcloser (.kind .newline) (by simp [Test.holds, hkind])) (by decide)
      · exact varies_of_newline ⟨token, hmem, hkind⟩
      · exact (ih (.inr ⟨token, hmem, hkind⟩)).append_left closing
    have hloses : Loses literal other closer (value.leaves ++ closer :: (closing ++ (leavesOf trees ++ rest)))
        (closing ++ (leavesOf trees ++ rest)) :=
      ⟨⟨value, hvalue.enclosed _⟩, hliteral, hother, hcloser⟩
    have hparens := Varies.parens hopening hloses hbehind
    simpa [leavesOf, Tree.leaves] using Varies.name hname htwin hopening.bars hopening.bars hparens

theorem varies (h : Turns trees others) (hrest : Varies rest left) :
    Varies (leavesOf trees ++ rest) (leavesOf others ++ left) :=
  h.varies_or_line (.inl hrest)

theorem reads {pattern : Pattern Rule} {name : Option Node} (h : Turns trees others)
    (hends : Ends Rule.pattern pattern (leavesOf trees ++ rest) (.matched trees name rest))
    (htame : pattern.tame = true) (hopens : pattern.opens = false) (hrest : Varies rest left) :
    Ends Rule.pattern pattern (leavesOf others ++ left) (.matched others name left) :=
  (hends.varied htame hopens h.resemble (h.varies hrest)).1

end Turns

end Bundler.Grammar
