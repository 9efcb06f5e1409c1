import Bundler.Proofs.Grammar.Called

/-!
# The signs in groups and calls

A group in a module is one tree between parentheses, and the arguments of a call stand between parentheses
with nothing but commas between them (`signed_of_parse`).
-/

namespace Bundler.Grammar

open Bundler.Source (Token)

variable {tokens rest : List Token} {trees : List Tree} {name : Option Node} {pattern : Pattern Rule}

/-- The token is met by the test for a sign. -/
abbrev Token.Shows (sign : Char) (token : Token) : Prop := Test.holds token (.text [sign]) = true

def InParens (trees : List Tree) : Prop :=
  ∃ opening inner closing, trees = .leaf opening :: (inner ++ [.leaf closing]) ∧ Token.Shows '(' opening
    ∧ Token.Shows ')' closing

def InCall (trees : List Tree) : Prop :=
  ∃ opening inner closing, trees = .leaf opening :: (inner ++ [.leaf closing]) ∧ Token.Shows '(' opening
    ∧ Token.Shows ')' closing ∧ ∀ token, Tree.leaf token ∈ inner → Token.Shows ',' token

/-- The groups and calls in the tree have their signs. -/
inductive Tree.Signed : Tree → Prop
  | leaf (token : Token) : Signed (.leaf token)
  | node (kind : Node) (children : List Tree) (hgroup : kind = .group → InParens children)
      (hcall : kind = .call → ∃ callee more, children = callee :: more ∧ InCall more)
      (hchildren : ∀ tree ∈ children, tree.Signed) : Signed (.node kind children)

/-! ### Commas -/

/-- The rule says what arguments a call has. -/
def Rule.lists : Rule → Bool
  | .call | .firstArgument | .positionalArgument | .starredArgument | .doubleStarredArgument
  | .keywordArgument | .arguments | .moreArguments | .namedArguments => true
  | _ => false

namespace Pattern

/-- What is read gets a name. -/
def named : Pattern Rule → Bool
  | .label _ => true
  | .seq first second => named first || named second
  | .alt first second => named first && named second
  | _ => false

/-- The tokens that are no part of another tree are commas, if there are any. -/
def commas : Pattern Rule → Bool
  | .token test => test == .text [',']
  | .seq first second => named first || named second || commas first && commas second
  | .alt first second => commas first && commas second
  | .many item => commas item
  | .rule name => name.lists
  | .empty | .label _ | .peek _ | .absent _ => true
  | .extend _ _ | .only _ _ => false

end Pattern

theorem Rule.commas_pattern (rule : Rule) : rule.lists = true → rule.pattern.commas = true := by
  cases rule <;> decide

theorem name_of_named (h : Reads Rule.pattern pattern tokens trees name rest) (hnamed : pattern.named = true) :
    name.isSome = true := by
  induction h with
  | label => rfl
  | seq _ _ ihfirst ihsecond =>
    rw [Pattern.named, Bool.or_eq_true] at hnamed
    rw [Option.isSome_or, Bool.or_eq_true]
    exact hnamed.symm.imp ihsecond ihfirst
  | left _ _ ih =>
    rw [Pattern.named, Bool.and_eq_true] at hnamed
    exact ih hnamed.1
  | right _ _ ih =>
    rw [Pattern.named, Bool.and_eq_true] at hnamed
    exact ih hnamed.2
  | _ => cases hnamed

theorem commas_of_reads (h : Reads Rule.pattern pattern tokens trees name rest) (hname : name = none)
    (hcommas : pattern.commas = true) : ∀ token, Tree.leaf token ∈ trees → Token.Shows ',' token := by
  have happend : ∀ {first second : List Tree}, (∀ token, Tree.leaf token ∈ first → Token.Shows ',' token) →
      (∀ token, Tree.leaf token ∈ second → Token.Shows ',' token) →
      ∀ token, Tree.leaf token ∈ first ++ second → Token.Shows ',' token := by
    intro first second hfirst hsecond token hmem
    exact (List.mem_append.1 hmem).elim (hfirst token) (hsecond token)
  induction h with
  | token _ htest =>
    rw [Pattern.commas, beq_iff_eq] at hcommas
    subst hcommas
    intro token hmem
    cases List.mem_singleton.1 hmem
    exact htest
  | seq hfirst hsecond ihfirst ihsecond =>
    rw [Option.or_eq_none_iff] at hname
    obtain ⟨rfl, rfl⟩ := hname
    simp only [Pattern.commas, Bool.or_eq_true, Bool.and_eq_true] at hcommas
    rcases hcommas with (hnamed | hnamed) | ⟨hcommas, hcommas'⟩
    · exact absurd (name_of_named hfirst hnamed) (by simp)
    · exact absurd (name_of_named hsecond hnamed) (by simp)
    · exact happend (ihfirst rfl hcommas) (ihsecond rfl hcommas')
  | left _ _ ih =>
    rw [Pattern.commas, Bool.and_eq_true] at hcommas
    exact ih hname hcommas.1
  | right _ _ ih =>
    rw [Pattern.commas, Bool.and_eq_true] at hcommas
    exact ih hname hcommas.2
  | again _ _ ihitem ihmany =>
    rw [Option.or_eq_none_iff] at hname
    obtain ⟨rfl, rfl⟩ := hname
    exact happend (ihitem rfl hcommas) (ihmany rfl hcommas)
  | @rule rule _ _ _ given _ ih =>
    cases given with
    | none => exact ih rfl (rule.commas_pattern hcommas)
    | some kind =>
      intro token hmem
      cases List.mem_singleton.1 hmem
  | base => cases hcommas
  | tail => cases hcommas
  | only => cases hcommas
  | _ => exact fun token hmem => absurd hmem List.not_mem_nil

/-! ### Groups -/

namespace Pattern

/-- Nothing that is read gets the name of a group. -/
def ungrouped (pattern : Pattern Rule) : Bool :=
  pattern.sound && pattern.endings.all fun ending => ending.2 != some .group

/-- The last token that is read closes a parenthesis. -/
def closes : Pattern Rule → Bool
  | .token test | .seq _ (.token test) => test == .text [')']
  | _ => false

/-- What gets the name of a group ends with a parenthesis. -/
def closesGroup : Pattern Rule → Bool
  | .alt first second => closesGroup first && closesGroup second
  | .seq first (.label kind) => kind != .group || closes first
  | .seq first second => ungrouped first && closesGroup second
  | pattern => ungrouped pattern

/-- What gets the name of a group stands between parentheses. -/
def opensGroup : Pattern Rule → Bool
  | .alt first second => opensGroup first && opensGroup second
  | .seq (.seq (.seq (.token test) inner) closing) (.label kind) =>
    kind != .group || test == .text ['('] && closes (.seq inner closing)
  | .seq (.token test) second =>
    test == .text ['('] && closesGroup second || ungrouped (.seq (.token test) second)
  | pattern => ungrouped pattern

/-- What a tail adds behind a callee: its parentheses and what stands between them. -/
def isCalled : Pattern Rule → Bool
  | .seq (.seq (.token opening) (.rule inner)) (.token closing) =>
    opening == .text ['('] && inner == .call && closing == .text [')']
  | _ => false

/-- The pattern names a call only behind its parentheses. -/
def namesCall : Pattern Rule → Bool
  | .alt first second => namesCall first && namesCall second
  | .seq first (.label kind) => kind != .call || isCalled first
  | pattern => (endings pattern).all fun ending => ending.2 != some .call

/-- The extensions in a pattern name calls only in this way, and no groups. -/
def formsSigned : Pattern Rule → Bool
  | .seq first second | .alt first second => formsSigned first && formsSigned second
  | .many item | .only _ item => formsSigned item
  | .extend base tail => formsSigned base && formsSigned tail && ungrouped base && namesCall tail
  | _ => true

end Pattern

theorem Rule.formsSigned_pattern (rule : Rule) : rule.pattern.formsSigned = true := by
  cases rule <;> decide

theorem Rule.opensGroup_pattern (rule : Rule) : rule.pattern.opensGroup = true := by
  cases rule <;> decide

theorem ne_group_of_reads (h : Reads Rule.pattern pattern tokens trees name rest)
    (hungrouped : pattern.ungrouped = true) : name ≠ some .group := by
  rw [Pattern.ungrouped, Bool.and_eq_true, List.all_eq_true] at hungrouped
  obtain ⟨-, ending, hending, rfl, -⟩ := formed_of_reads h hungrouped.1
  simpa using hungrouped.2 ending hending

/-- The last of the trees is a parenthesis. -/
def Closed (trees : List Tree) : Prop := ∃ fore token, trees = fore ++ [.leaf token] ∧ Token.Shows ')' token

theorem closed_of_closes (h : Reads Rule.pattern pattern tokens trees name rest)
    (hcloses : pattern.closes = true) : Closed trees := by
  unfold Pattern.closes at hcloses
  split at hcloses
  next test =>
    rw [beq_iff_eq] at hcloses
    subst hcloses
    cases h with
    | token _ htest => exact ⟨[], _, rfl, htest⟩
  next first test =>
    rw [beq_iff_eq] at hcloses
    subst hcloses
    cases h with
    | seq _ h =>
    cases h with
    | token _ htest => exact ⟨_, _, rfl, htest⟩
  · cases hcloses

theorem Closed.append {trees : List Tree} (first : List Tree) (h : Closed trees) : Closed (first ++ trees) := by
  obtain ⟨fore, token, rfl, htoken⟩ := h
  exact ⟨first ++ fore, token, (List.append_assoc _ _ _).symm, htoken⟩

theorem closed_of_reads (h : Reads Rule.pattern pattern tokens trees name rest) (hname : name = some .group)
    (hcloses : pattern.closesGroup = true) : Closed trees := by
  fun_induction Pattern.closesGroup pattern generalizing tokens trees name rest with
  | case1 first second ihfirst ihsecond =>
    rw [Bool.and_eq_true] at hcloses
    cases h with
    | left _ h => exact ihfirst h hname hcloses.1
    | right _ h => exact ihsecond h hname hcloses.2
  | case2 first kind =>
    cases h with
    | seq hfirst hlabel =>
    cases hlabel
    obtain rfl : kind = .group := Option.some.inj hname
    rw [List.append_nil]
    exact closed_of_closes hfirst (by simpa using hcloses)
  | case3 first second _ ih =>
    rw [Bool.and_eq_true] at hcloses
    cases h with
    | @seq _ _ _ _ _ _ _ given later hfirst hsecond =>
    have hlater : later = some .group := by
      cases later with
      | some kind => exact hname
      | none => exact absurd hname (ne_group_of_reads hfirst hcloses.1)
    exact (ih hsecond hlater hcloses.2).append _
  | case4 pattern => exact absurd hname (ne_group_of_reads h hcloses)

theorem inParens_of_reads (h : Reads Rule.pattern pattern tokens trees name rest) (hname : name = some .group)
    (hopens : pattern.opensGroup = true) : InParens trees := by
  have hboth : ∀ {opening : Token} {more : List Tree}, Token.Shows '(' opening → Closed more →
      InParens (.leaf opening :: more) := by
    rintro opening more hopening ⟨fore, closing, rfl, hclosing⟩
    exact ⟨opening, fore, closing, rfl, hopening, hclosing⟩
  fun_induction Pattern.opensGroup pattern generalizing tokens trees name rest with
  | case1 first second ihfirst ihsecond =>
    rw [Bool.and_eq_true] at hopens
    cases h with
    | left _ h => exact ihfirst h hname hopens.1
    | right _ h => exact ihsecond h hname hopens.2
  | case2 test inner closing kind =>
    cases h with
    | seq h hlabel =>
    cases hlabel
    obtain rfl : kind = .group := Option.some.inj hname
    have hparts : test = .text ['('] ∧ Pattern.closes (.seq inner closing) = true := by simpa using hopens
    obtain ⟨rfl, hcloses⟩ := hparts
    cases h with
    | seq h hclosing =>
    cases h with
    | seq hopening hinner =>
    cases hopening with
    | token _ htest =>
    rw [List.append_nil, List.singleton_append, List.cons_append]
    exact hboth htest (closed_of_closes (.seq hinner hclosing) hcloses)
  | case3 test second =>
    rw [Bool.or_eq_true, Bool.and_eq_true, beq_iff_eq] at hopens
    rcases hopens with ⟨rfl, hcloses⟩ | hungrouped
    · cases h with
      | @seq _ _ _ _ _ _ _ given later hopening hsecond =>
      cases hopening with
      | token _ htest =>
      have hlater : later = some .group := by simpa using hname
      exact hboth htest (closed_of_reads hsecond hlater hcloses)
    · exact absurd hname (ne_group_of_reads h hungrouped)
  | case4 pattern => exact absurd hname (ne_group_of_reads h hopens)

/-! ### Calls -/

theorem inCall_of_reads (h : Reads Rule.pattern pattern tokens trees name rest) (hname : name = some .call)
    (hsound : pattern.sound = true) (hnames : pattern.namesCall = true) : InCall trees := by
  fun_induction Pattern.namesCall pattern generalizing name with
  | case1 first second ihfirst ihsecond =>
    rw [Pattern.sound, Bool.and_eq_true] at hsound
    rw [Bool.and_eq_true] at hnames
    cases h with
    | left _ h => exact ihfirst h hname hsound.1 hnames.1
    | right _ h => exact ihsecond h hname hsound.2 hnames.2
  | case2 first kind =>
    cases h with
    | seq hfirst hsecond =>
    cases hsecond
    obtain rfl : kind = .call := Option.some.inj hname
    have hform : first.isCalled = true := by simpa using hnames
    unfold Pattern.isCalled at hform
    split at hform
    next opening inner closing =>
      simp only [Bool.and_eq_true, beq_iff_eq] at hform
      obtain ⟨⟨rfl, rfl⟩, rfl⟩ := hform
      cases hfirst with
      | seq hfirst hclosing =>
      cases hfirst with
      | seq hopening hinner =>
      cases hopening with
      | token _ hopening =>
      cases hclosing with
      | token _ hclosing =>
      cases hinner with
      | rule hinner =>
      rw [List.append_nil]
      exact ⟨_, _, _, rfl, hopening, hclosing, commas_of_reads (.rule hinner) rfl rfl⟩
    · cases hform
  | case3 pattern =>
    obtain ⟨-, ending, hending, rfl, -⟩ := formed_of_reads h hsound
    have hother := List.all_eq_true.1 hnames ending hending
    rw [hname] at hother
    cases hother

theorem signed_wrap (hgroup : name = some .group → InParens trees) (hcall : name ≠ some .call)
    (htrees : ∀ tree ∈ trees, tree.Signed) : ∀ tree ∈ wrap name trees, tree.Signed := by
  cases name with
  | none => exact htrees
  | some kind =>
    rw [wrap, List.forall_mem_singleton]
    exact .node kind trees (fun hkind => hgroup (congrArg some hkind))
      (fun hkind => absurd (congrArg some hkind) hcall) htrees

theorem signed_of_reads (h : Reads Rule.pattern pattern tokens trees name rest) (hsound : pattern.sound = true)
    (hforms : pattern.formsSigned = true) : ∀ tree ∈ trees, tree.Signed := by
  induction h with
  | token => exact List.forall_mem_singleton.2 (.leaf _)
  | seq _ _ ihfirst ihsecond =>
    rw [Pattern.sound, Bool.and_eq_true] at hsound
    rw [Pattern.formsSigned, Bool.and_eq_true] at hforms
    exact List.forall_mem_append.2 ⟨ihfirst hsound.1 hforms.1, ihsecond hsound.2 hforms.2⟩
  | left _ _ ih =>
    rw [Pattern.sound, Bool.and_eq_true] at hsound
    rw [Pattern.formsSigned, Bool.and_eq_true] at hforms
    exact ih hsound.1 hforms.1
  | right _ _ ih =>
    rw [Pattern.sound, Bool.and_eq_true] at hsound
    rw [Pattern.formsSigned, Bool.and_eq_true] at hforms
    exact ih hsound.2 hforms.2
  | again _ _ ihitem ihmany => exact List.forall_mem_append.2 ⟨ihitem hsound hforms, ihmany hsound hforms⟩
  | only _ _ ih => exact ih hsound hforms
  | @rule rule _ _ _ _ hrule ih =>
    have hpattern := rule.sound_eq_true
    rw [Rule.sound, Bool.and_eq_true, List.all_eq_true] at hpattern
    obtain ⟨-, ending, hending, rfl, -⟩ := formed_of_reads hrule hpattern.1
    have hsettled := (Bool.and_eq_true_iff.1 (hpattern.2 ending hending)).1
    exact signed_wrap (fun hname => inParens_of_reads hrule hname rule.opensGroup_pattern)
      (ne_call_of_settled hsettled) (ih hpattern.1 rule.formsSigned_pattern)
  | base _ hbase ih =>
    simp only [Pattern.sound, Bool.and_eq_true, List.all_eq_true] at hsound
    simp only [Pattern.formsSigned, Bool.and_eq_true] at hforms
    obtain ⟨⟨⟨hfirst, -⟩, hendings⟩, -⟩ := hsound
    obtain ⟨-, ending, hending, rfl, -⟩ := formed_of_reads hbase hfirst
    exact signed_wrap (fun hname => absurd hname (ne_group_of_reads hbase hforms.1.2))
      (ne_call_of_settled (hendings ending hending).1) (ih hfirst hforms.1.1.1)
  | @tail base tail _ _ _ _ _ name hformed htail ihformed ihtail =>
    obtain ⟨tree, rfl, -⟩ := (formed_of_reads hformed hsound).exists_eq
    have hfirst := ihformed hsound hforms
    simp only [Pattern.sound, Bool.and_eq_true, List.all_eq_true] at hsound
    simp only [Pattern.formsSigned, Bool.and_eq_true] at hforms
    have hmore := List.forall_mem_append.2 ⟨hfirst, ihtail hsound.1.1.2 hforms.1.1.2⟩
    obtain ⟨-, ⟨forms, kind?⟩, hending, rfl, -⟩ := formed_of_reads htail hsound.1.1.2
    have hgrows := hsound.2 _ hending
    cases kind? with
    | none => cases hgrows
    | some kind =>
      rw [wrap, List.forall_mem_singleton]
      refine .node kind _ (fun hkind => ?_) (fun hkind => ⟨tree, _, rfl, ?_⟩) hmore
      · subst hkind
        cases hgrows
      · exact inCall_of_reads htail (congrArg some hkind) hsound.1.1.2 hforms.2
  | _ => exact List.forall_mem_nil _

theorem signed_of_parse {module : Module} (h : parse tokens = some module) : ∀ tree ∈ module, tree.Signed :=
  signed_of_reads (reads_of_parse h) rfl rfl

end Bundler.Grammar
