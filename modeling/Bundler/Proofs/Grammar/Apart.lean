import Bundler.Proofs.Grammar.Alike
import Mathlib.Data.List.Chain

/-!
# What stands side by side

The grammar never lets a name come directly behind a number (`apart_of_read`). `Edge` says of a
pattern whether it may begin with a name, end with a number, or read nothing in front of a name; the
edges of a pattern are computed from those of its parts, and every rule is checked against a table.
-/

namespace Bundler.Grammar

open Bundler.Source (Token)

variable {tokens left right rest : List Token}

/-- How a pattern meets its neighbours: whether it may read nothing though a name comes next,
begin with a name, and end with a number though a name comes next. -/
structure Edge where
  passes : Bool
  opens : Bool
  ends : Bool
  deriving DecidableEq, Repr

namespace Edge

def nothing : Edge := ⟨true, false, false⟩

def seq (first second : Edge) : Edge where
  passes := first.passes && second.passes
  opens := first.opens || first.passes && second.opens
  ends := second.ends || second.passes && first.ends

def alt (first second : Edge) : Edge where
  passes := first.passes || second.passes
  opens := first.opens || second.opens
  ends := first.ends || second.ends

def many (item : Edge) : Edge := { item with passes := true }

def extend (base tail : Edge) : Edge where
  passes := base.passes
  opens := base.opens || base.passes && tail.opens
  ends := base.ends || tail.ends

/-- The wider edge promises less. -/
def within (edge wider : Edge) : Bool :=
  (!edge.passes || wider.passes) && (!edge.opens || wider.opens) && (!edge.ends || wider.ends)

/-- The two may stand side by side. -/
def meets (first second : Edge) : Bool := !(first.ends && second.opens)

theorem within_left (first second : Edge) : first.within (first.alt second) = true := by
  obtain ⟨passes, opens, ends⟩ := first
  cases passes <;> cases opens <;> cases ends <;> simp [within, alt]

theorem within_right (first second : Edge) : second.within (first.alt second) = true := by
  obtain ⟨passes, opens, ends⟩ := second
  cases passes <;> cases opens <;> cases ends <;> simp [within, alt]

theorem within_many (item : Edge) : (item.seq item.many).within item.many = true := by
  obtain ⟨passes, opens, ends⟩ := item
  cases passes <;> cases opens <;> cases ends <;> rfl

theorem within_base (base tail : Edge) : base.within (base.extend tail) = true := by
  obtain ⟨passes, opens, ends⟩ := base
  cases passes <;> cases opens <;> cases ends <;> simp [within, extend]

theorem within_extend (base tail : Edge) :
    ((base.extend tail).seq tail).within (base.extend tail) = true := by
  obtain ⟨passes, opens, ends⟩ := base
  obtain ⟨again, starts, stops⟩ := tail
  cases passes <;> cases opens <;> cases ends <;> cases again <;> cases starts <;> cases stops <;> rfl

theorem extend_meets {base tail : Edge} (hbase : base.meets tail = true) (htail : tail.meets tail = true) :
    (base.extend tail).meets tail = true := by
  rw [meets, Bool.not_eq_true', Bool.and_eq_false_iff] at hbase htail ⊢
  rcases hbase with hbase | hopens
  · rcases htail with htail | hopens
    · exact .inl (by rw [extend, hbase, htail, Bool.or_false])
    · exact .inr hopens
  · exact .inr hopens

end Edge

/-- No name stands directly behind a number. -/
def IsApart (tokens : List Token) : Prop :=
  tokens.IsChain fun token later => token.kind = .number → ¬Token.IsName later

/-- The tokens read keep to the edge. -/
structure Edge.Bounds (edge : Edge) (tokens rest : List Token) : Prop where
  passes : tokens = [] → (∃ later, rest.head? = some later ∧ Token.IsName later) → edge.passes = true
  opens : ∀ token, tokens.head? = some token → Token.IsName token → edge.opens = true
  ends : ∀ token later, tokens.getLast? = some token → token.kind = .number → rest.head? = some later →
    Token.IsName later → edge.ends = true
  apart : IsApart tokens

theorem Edge.Bounds.widen {edge wider : Edge} (h : edge.Bounds tokens rest)
    (hwithin : edge.within wider = true) : wider.Bounds tokens rest := by
  simp only [Edge.within, Bool.and_eq_true, Bool.or_eq_true, Bool.not_eq_true'] at hwithin
  obtain ⟨⟨hpasses, hopens⟩, hends⟩ := hwithin
  refine ⟨fun hnil hlater => ?_, fun token hhead hname => ?_,
    fun token later hlast hkind hhead hname => ?_, h.apart⟩
  · exact hpasses.resolve_left (by simp [h.passes hnil hlater])
  · exact hopens.resolve_left (by simp [h.opens token hhead hname])
  · exact hends.resolve_left (by simp [h.ends token later hlast hkind hhead hname])

theorem Edge.Bounds.seq {first second : Edge} (hfirst : first.Bounds left (right ++ rest))
    (hsecond : second.Bounds right rest) (hmeets : first.meets second = true) :
    (first.seq second).Bounds (left ++ right) rest where
  passes hnil hlater := by
    obtain ⟨rfl, rfl⟩ := List.append_eq_nil_iff.1 hnil
    simp [Edge.seq, hfirst.passes rfl hlater, hsecond.passes rfl hlater]
  opens token hhead hname := by
    cases left with
    | nil =>
      rw [List.nil_append] at hhead
      have hnext : (right ++ rest).head? = some token := by rw [List.head?_append, hhead, Option.some_or]
      simp [Edge.seq, hfirst.passes rfl ⟨token, hnext, hname⟩, hsecond.opens token hhead hname]
    | cons => simp [Edge.seq, hfirst.opens token hhead hname]
  ends token later hlast hkind hhead hname := by
    cases right with
    | nil =>
      rw [List.append_nil] at hlast
      simp [Edge.seq, hsecond.passes rfl ⟨later, hhead, hname⟩,
        hfirst.ends token later hlast hkind hhead hname]
    | cons next right =>
      rw [List.getLast?_append_cons] at hlast
      simp [Edge.seq, hsecond.ends token later hlast hkind hhead hname]
  apart := by
    refine List.isChain_append.2 ⟨hfirst.apart, hsecond.apart, fun token hlast later hhead hkind hname => ?_⟩
    have hnext : (right ++ rest).head? = some later := by
      rw [List.head?_append, Option.mem_def.1 hhead, Option.some_or]
    rw [Edge.meets, hfirst.ends token later hlast hkind hnext hname, hsecond.opens later hhead hname]
      at hmeets
    cases hmeets

/-! ### The grammar -/

/-- A name may pass the test. -/
def Test.opens : Test → Bool
  | .identifier => true
  | .kind wanted => wanted == .name
  | .text word => Text.isIdentifier word && !keywords.contains word
  | _ => false

/-- A number may pass the test. -/
def Test.ends : Test → Bool
  | .realNumber | .imaginaryNumber => true
  | .kind wanted => wanted == .number
  | _ => false

theorem Test.opens_of_holds {test : Test} {token : Token} (htest : test.holds token = true)
    (hname : Token.IsName token) : test.opens = true := by
  obtain ⟨hkind, hidentifier, hkeyword⟩ := hname
  cases test with
  | text word =>
    rw [Test.holds, Bool.and_eq_true, beq_iff_eq] at htest
    rw [Test.opens, ← htest.2, hidentifier, Bool.true_and, Bool.not_eq_true', ← Bool.not_eq_true,
      List.contains_iff_mem]
    exact hkeyword
  | kind wanted =>
    rw [Test.holds, beq_iff_eq, hkind] at htest
    rw [Test.opens, ← htest]
    rfl
  | identifier => rfl
  | _ =>
    simp only [Test.holds, hkind] at htest
    cases htest

theorem Test.ends_of_holds {test : Test} {token : Token} (htest : test.holds token = true)
    (hkind : token.kind = .number) : test.ends = true := by
  cases test with
  | kind wanted =>
    rw [Test.holds, beq_iff_eq, hkind] at htest
    rw [Test.ends, ← htest]
    rfl
  | realNumber => rfl
  | imaginaryNumber => rfl
  | _ =>
    simp only [Test.holds, hkind] at htest
    cases htest

def Rule.edge (rule : Rule) : Edge where
  passes := match rule with
    | .fieldSpec | .moreArguments => true
    | _ => false
  opens := match rule with
    | .classDefinition | .functionDefinition | .comprehensionClauses | .formattedString | .field
    | .moreArguments => false
    | _ => true
  ends := match rule with
    | .statement | .simpleStatements | .compound | .block | .classDefinition | .functionDefinition
    | .conditionalStatement | .elseIf | .elseBlock | .whileLoop | .forLoop | .withBlock | .tryBlock
    | .matchBlock | .caseBlock | .field => false
    | _ => true

namespace Pattern

def edge : Pattern Rule → Edge
  | .empty | .absent _ | .label _ => .nothing
  | .token test => ⟨false, test.opens, test.ends⟩
  | .seq first second => (edge first).seq (edge second)
  | .alt first second => (edge first).alt (edge second)
  | .many item => (edge item).many
  | .peek item => ⟨(edge item).passes || (edge item).opens, false, false⟩
  | .rule name => name.edge
  | .extend base tail => (edge base).extend (edge tail)
  | .only _ item => edge item

/-- Neighbours may stand side by side. -/
def meets : Pattern Rule → Bool
  | .seq first second => meets first && meets second && (edge first).meets (edge second)
  | .alt first second => meets first && meets second
  | .many item => meets item && (edge item).meets (edge item)
  | .peek item | .only _ item => meets item
  | .extend base tail =>
    meets base && meets tail && (edge base).meets (edge tail) && (edge tail).meets (edge tail)
  | _ => true

end Pattern

set_option maxRecDepth 4000 in
theorem Rule.meets_eq_true (rule : Rule) :
    (rule.pattern.meets && rule.pattern.edge.within rule.edge) = true := by
  cases rule <;> decide

theorem Edge.bounds_nil (edge : Edge)
    (hpasses : (∃ later, rest.head? = some later ∧ Token.IsName later) → edge.passes = true) :
    edge.Bounds [] rest := ⟨fun _ => hpasses, nofun, nofun, .nil⟩

theorem bounds_of_reads {pattern : Pattern Rule} {trees : List Tree} {name : Option Node}
    (h : Reads Rule.pattern pattern tokens trees name rest) (hmeets : pattern.meets = true) :
    pattern.edge.Bounds (leavesOf trees) rest := by
  induction h with
  | empty => exact Edge.bounds_nil _ fun _ => rfl
  | absent => exact Edge.bounds_nil _ fun _ => rfl
  | label => exact Edge.bounds_nil _ fun _ => rfl
  | stop => exact Edge.bounds_nil _ fun _ => rfl
  | @token test token rest htest =>
    refine ⟨nofun, fun first hhead hname => ?_, fun last later hlast hkind _ _ => ?_, .singleton _⟩
    · cases hhead
      exact Test.opens_of_holds htest hname
    · cases hlast
      exact Test.ends_of_holds htest hkind
  | seq hfirst hsecond ihfirst ihsecond =>
    simp only [Pattern.meets, Bool.and_eq_true] at hmeets
    rw [leavesOf_append]
    refine Edge.Bounds.seq ?_ (ihsecond hmeets.1.2) hmeets.2
    rw [leavesOf_reads hsecond]
    exact ihfirst hmeets.1.1
  | left _ _ ih =>
    rw [Pattern.meets, Bool.and_eq_true] at hmeets
    exact (ih hmeets.1).widen (Edge.within_left _ _)
  | right _ _ ih =>
    rw [Pattern.meets, Bool.and_eq_true] at hmeets
    exact (ih hmeets.2).widen (Edge.within_right _ _)
  | again hitem hmany ihitem ihmany =>
    have hparts := hmeets
    rw [Pattern.meets, Bool.and_eq_true] at hparts
    rw [leavesOf_append]
    have hfirst := ihitem hparts.1
    rw [← leavesOf_reads hmany] at hfirst
    exact (hfirst.seq (ihmany hmeets) hparts.2).widen (Edge.within_many _)
  | @peek item tokens rest trees name hitem ih =>
    have hbounds := ih hmeets
    refine Edge.bounds_nil _ fun ⟨later, hhead, hname⟩ => ?_
    rw [← leavesOf_reads hitem] at hhead
    cases htrees : leavesOf trees with
    | nil =>
      rw [htrees] at hhead
      simp [Pattern.edge, hbounds.passes htrees ⟨later, hhead, hname⟩]
    | cons first others =>
      rw [htrees] at hhead
      simp [Pattern.edge, hbounds.opens later (by rw [htrees]; exact hhead) hname]
  | @rule rule _ _ _ _ _ ih =>
    have hrule := rule.meets_eq_true
    rw [Bool.and_eq_true] at hrule
    rw [leavesOf_wrap]
    exact (ih hrule.1).widen hrule.2
  | base _ _ ih =>
    simp only [Pattern.meets, Bool.and_eq_true] at hmeets
    rw [leavesOf_wrap]
    exact (ih hmeets.1.1.1).widen (Edge.within_base _ _)
  | @tail base tail _ _ _ _ _ _ hformed htail ihformed ihtail =>
    have hparts := hmeets
    simp only [Pattern.meets, Bool.and_eq_true] at hparts
    obtain ⟨⟨⟨-, hsound⟩, hbase⟩, hagain⟩ := hparts
    rw [leavesOf_wrap, leavesOf_append]
    have hfirst := ihformed hmeets
    rw [← leavesOf_reads htail] at hfirst
    exact (hfirst.seq (ihtail hsound) (Edge.extend_meets hbase hagain)).widen (Edge.within_extend _ _)
  | only _ _ ih => exact ih hmeets

/-- In a module no name stands directly behind a number. -/
theorem apart_of_read {text : List Char} {module : Module} (h : read text = some module) :
    IsApart (leavesOf module) := by
  rw [read] at h
  split at h
  · exact (bounds_of_reads (reads_of_parse h) rfl).apart
  · cases h

end Bundler.Grammar
