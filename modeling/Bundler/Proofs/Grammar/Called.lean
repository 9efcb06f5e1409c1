import Bundler.Proofs.Grammar.Forms

/-!
# What a call is made of

Behind the callee of every call in a module stands a parenthesis, and the first argument comes directly
behind it (`calls_of_read`).
-/

namespace Bundler.Grammar

open Bundler.Source (Token)

variable {tokens rest : List Token} {trees : List Tree}

/-- A tree that is no leaf comes first. -/
def StartsInside (trees : List Tree) : Prop := ∀ token more, trees ≠ .leaf token :: more

/-- The parts of a call behind its callee: between the parentheses, nothing or an argument comes first. -/
inductive Parenthesized : List Tree → Prop
  | mk {opening : Token} {inner : List Tree} (closing : Token)
      (hopening : Test.holds opening (.text ['(']) = true) (hinner : StartsInside inner) :
    Parenthesized (.leaf opening :: (inner ++ [.leaf closing]))

/-- The parts of every call in the tree are those of a call. -/
inductive Tree.Calls : Tree → Prop
  | leaf (token : Token) : Calls (.leaf token)
  | node (kind : Node) (children : List Tree)
      (hcall : kind = .call → ∃ callee more, children = callee :: more ∧ Parenthesized more)
      (hchildren : ∀ tree ∈ children, tree.Calls) : Calls (.node kind children)

namespace Pattern

/-- The pattern reads what stands between parentheses, and these. -/
def isParenthesized : Pattern Rule → Bool
  | .seq (.seq (.token test) (.rule inner)) (.token _) => test == .text ['('] && inner == .call
  | _ => false

/-- The pattern names a call only behind its parentheses. -/
def closesCall : Pattern Rule → Bool
  | .alt first second => closesCall first && closesCall second
  | .seq first (.label kind) => kind != .call || isParenthesized first
  | pattern => (endings pattern).all fun ending => ending.2 != some .call

/-- The extensions in a pattern name calls only in this way. -/
def formsCalls : Pattern Rule → Bool
  | .seq first second | .alt first second => formsCalls first && formsCalls second
  | .many item | .only _ item => formsCalls item
  | .extend base tail => formsCalls base && formsCalls tail && closesCall tail
  | _ => true

end Pattern

set_option maxRecDepth 4000 in
theorem Rule.formsCalls_eq_true (rule : Rule) : rule.pattern.formsCalls = true := by
  cases rule <;> decide

theorem sound_pattern (rule : Rule) : rule.pattern.sound = true := by
  have h := rule.sound_eq_true
  rw [Rule.sound, Bool.and_eq_true] at h
  exact h.1

/-- A rule whose match always has a name forms one node. -/
theorem exists_node_of_reads {rule : Rule} {name : Option Node}
    (hnamed : (rule.pattern.endings.all fun ending => ending.2.isSome) = true)
    (h : Reads Rule.pattern (.rule rule) tokens trees name rest) :
    ∃ kind children, trees = [.node kind children] := by
  cases h with
  | @rule _ _ _ formed name hrule =>
    obtain ⟨-, ending, hending, rfl, -⟩ := formed_of_reads hrule (sound_pattern rule)
    obtain ⟨kind, hkind⟩ := Option.isSome_iff_exists.1 (List.all_eq_true.1 hnamed ending hending)
    rw [hkind]
    exact ⟨kind, formed, rfl⟩

theorem StartsInside.wrap {first : List Tree} (hne : first ≠ []) (h : StartsInside first)
    (name : Option Node) (more : List Tree) : StartsInside (Grammar.wrap name (first ++ more)) := by
  intro token others heq
  cases name with
  | some kind => cases heq
  | none =>
    cases first with
    | nil => exact hne rfl
    | cons tree first =>
      rw [Grammar.wrap, List.cons_append] at heq
      exact h token first (by rw [(List.cons.inj heq).1])

theorem startsInside_of_reads {rule : Rule} {name : Option Node}
    (hnamed : (rule.pattern.endings.all fun ending => ending.2.isSome) = true)
    (h : Reads Rule.pattern (.rule rule) tokens trees name rest) : trees ≠ [] ∧ StartsInside trees := by
  obtain ⟨kind, children, rfl⟩ := exists_node_of_reads hnamed h
  exact ⟨List.cons_ne_nil _ _, fun token more heq => by cases heq⟩

theorem startsInside_namedArguments {name : Option Node}
    (h : Reads Rule.pattern (.rule .namedArguments) tokens trees name rest) :
    trees ≠ [] ∧ StartsInside trees := by
  cases h with
  | @rule _ _ _ formed given hrule =>
  have hwrap : ∀ {first others : List Tree} (name : Option Node), first ≠ [] ∧ StartsInside first →
      wrap name (first ++ others) ≠ [] ∧ StartsInside (wrap name (first ++ others)) := by
    rintro first others name ⟨hne, hfirst⟩
    refine ⟨?_, hfirst.wrap hne name others⟩
    cases name with
    | some kind => exact List.cons_ne_nil _ _
    | none => exact List.append_ne_nil_of_left_ne_nil hne _
  cases hrule with
  | left _ hrule =>
    cases hrule with
    | seq hrule _ =>
    cases hrule with
    | seq hfirst _ =>
    rw [List.append_assoc]
    exact hwrap _ (startsInside_of_reads (by decide) hfirst)
  | right _ hrule =>
    cases hrule with
    | seq hfirst _ => exact hwrap _ (startsInside_of_reads (by decide) hfirst)

/-- Between the parentheses of a call comes nothing or an argument first. -/
theorem startsInside_call {name : Option Node}
    (h : Reads Rule.pattern (.rule .call) tokens trees name rest) : StartsInside trees := by
  cases h with
  | @rule _ _ _ formed given hrule =>
  cases hrule with
  | left _ hpeek =>
    cases hpeek
    exact fun token more heq => by cases heq
  | right _ hrule =>
  cases hrule with
  | left _ hrule =>
    cases hrule with
    | seq hfirst _ =>
    obtain ⟨hne, hstarts⟩ := startsInside_of_reads (by decide) hfirst
    exact hstarts.wrap hne _ _
  | right _ hrule =>
  cases hrule with
  | left _ hrule =>
    cases hrule with
    | seq hrule _ =>
    cases hrule with
    | seq hfirst _ =>
    obtain ⟨hne, hstarts⟩ := startsInside_of_reads (by decide) hfirst
    rw [List.append_assoc]
    exact hstarts.wrap hne _ _
  | right _ hrule =>
    cases hrule with
    | seq hfirst _ =>
    obtain ⟨hne, hstarts⟩ := startsInside_namedArguments hfirst
    exact hstarts.wrap hne _ _

/-- What is read with the name of a call stands between parentheses. -/
theorem parenthesized_of_reads {pattern : Pattern Rule} {name : Option Node}
    (h : Reads Rule.pattern pattern tokens trees name rest) (hcall : name = some .call)
    (hsound : pattern.sound = true) (hcloses : pattern.closesCall = true) : Parenthesized trees := by
  fun_induction Pattern.closesCall pattern generalizing name with
  | case1 first second ihfirst ihsecond =>
    rw [Pattern.sound, Bool.and_eq_true] at hsound
    rw [Bool.and_eq_true] at hcloses
    cases h with
    | left _ h => exact ihfirst h hcall hsound.1 hcloses.1
    | right _ h => exact ihsecond h hcall hsound.2 hcloses.2
  | case2 first kind =>
    cases h with
    | seq hfirst hsecond =>
    cases hsecond
    obtain rfl : kind = .call := Option.some.inj hcall
    have hform : first.isParenthesized = true := hcloses
    unfold Pattern.isParenthesized at hform
    split at hform
    next test inner closing =>
      rw [Bool.and_eq_true, beq_iff_eq, beq_iff_eq] at hform
      obtain ⟨rfl, rfl⟩ := hform
      cases hfirst with
      | seq hfirst hclosing =>
      cases hfirst with
      | seq hopening hinner =>
      cases hopening with
      | token _ hopening =>
      cases hclosing with
      | token =>
      rw [List.append_nil]
      exact .mk _ hopening (startsInside_call hinner)
    · cases hform
  | case3 pattern =>
    obtain ⟨-, ending, hending, rfl, -⟩ := formed_of_reads h hsound
    have hother := List.all_eq_true.1 hcloses ending hending
    rw [hcall] at hother
    cases hother

theorem calls_wrap {name : Option Node} (hname : name ≠ some .call) (htrees : ∀ tree ∈ trees, tree.Calls) :
    ∀ tree ∈ wrap name trees, tree.Calls := by
  cases name with
  | none => exact htrees
  | some kind =>
    rw [wrap, List.forall_mem_singleton]
    exact .node kind trees (fun hkind => absurd (congrArg some hkind) hname) htrees

theorem ne_call_of_settled {ending : Ending} (h : ending.settled = true) : ending.2 ≠ some .call := by
  obtain ⟨forms, name⟩ := ending
  rintro rfl
  cases h

theorem calls_of_reads {pattern : Pattern Rule} {name : Option Node}
    (h : Reads Rule.pattern pattern tokens trees name rest) (hsound : pattern.sound = true)
    (hforms : pattern.formsCalls = true) : ∀ tree ∈ trees, tree.Calls := by
  have happend : ∀ {first second : List Tree}, (∀ tree ∈ first, tree.Calls) →
      (∀ tree ∈ second, tree.Calls) → ∀ tree ∈ first ++ second, tree.Calls :=
    fun hfirst hsecond => List.forall_mem_append.2 ⟨hfirst, hsecond⟩
  induction h with
  | empty => exact nofun
  | token => exact List.forall_mem_singleton.2 (.leaf _)
  | stop => exact nofun
  | peek => exact nofun
  | absent => exact nofun
  | label => exact nofun
  | seq _ _ ihfirst ihsecond =>
    rw [Pattern.sound, Bool.and_eq_true] at hsound
    rw [Pattern.formsCalls, Bool.and_eq_true] at hforms
    exact happend (ihfirst hsound.1 hforms.1) (ihsecond hsound.2 hforms.2)
  | left _ _ ih =>
    rw [Pattern.sound, Bool.and_eq_true] at hsound
    rw [Pattern.formsCalls, Bool.and_eq_true] at hforms
    exact ih hsound.1 hforms.1
  | right _ _ ih =>
    rw [Pattern.sound, Bool.and_eq_true] at hsound
    rw [Pattern.formsCalls, Bool.and_eq_true] at hforms
    exact ih hsound.2 hforms.2
  | again _ _ ihitem ihmany => exact happend (ihitem hsound hforms) (ihmany hsound hforms)
  | only _ _ ih => exact ih hsound hforms
  | @rule rule _ _ _ _ hrule ih =>
    have hpattern := rule.sound_eq_true
    rw [Rule.sound, Bool.and_eq_true, List.all_eq_true] at hpattern
    obtain ⟨-, ending, hending, rfl, -⟩ := formed_of_reads hrule hpattern.1
    have hsettled := (Bool.and_eq_true_iff.1 (hpattern.2 ending hending)).1
    exact calls_wrap (ne_call_of_settled hsettled) (ih hpattern.1 rule.formsCalls_eq_true)
  | base _ hbase ih =>
    simp only [Pattern.sound, Bool.and_eq_true, List.all_eq_true] at hsound
    simp only [Pattern.formsCalls, Bool.and_eq_true] at hforms
    obtain ⟨⟨⟨hfirst, -⟩, hendings⟩, -⟩ := hsound
    obtain ⟨-, ending, hending, rfl, -⟩ := formed_of_reads hbase hfirst
    exact calls_wrap (ne_call_of_settled (hendings ending hending).1) (ih hfirst hforms.1.1)
  | @tail base tail _ _ _ _ _ name hformed htail ihformed ihtail =>
    obtain ⟨tree, rfl, -⟩ := (formed_of_reads hformed hsound).exists_eq
    have hfirst := ihformed hsound hforms
    simp only [Pattern.sound, Bool.and_eq_true, List.all_eq_true] at hsound
    simp only [Pattern.formsCalls, Bool.and_eq_true] at hforms
    have hmore := happend hfirst (ihtail hsound.1.1.2 hforms.1.2)
    cases name with
    | none => exact hmore
    | some kind =>
      rw [wrap, List.forall_mem_singleton]
      refine .node kind _ (fun hkind => ⟨tree, _, rfl, ?_⟩) hmore
      exact parenthesized_of_reads htail (congrArg some hkind) hsound.1.1.2 hforms.2

theorem calls_of_read {text : List Char} {module : Module} (h : read text = some module) :
    ∀ tree ∈ module, tree.Calls := by
  rw [read] at h
  split at h
  · exact calls_of_reads (reads_of_parse h) rfl rfl
  · cases h

end Bundler.Grammar
