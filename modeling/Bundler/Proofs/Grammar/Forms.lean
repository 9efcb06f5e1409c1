import Bundler.Proofs.Grammar.Reads
import Mathlib.Data.List.Forall2

/-!
# The form of a syntax tree

`Pattern.endings` computes what kinds of trees a pattern can form, without any tokens, and `Rule.sound`
checks each rule of the grammar against what the others promise. From these checks `wellFormed_of_read` gets
the form of every tree that is read: parentheses hold one expression, an argument is one expression, and
what follows the callee of a call is made of single tokens and arguments.
-/

namespace Bundler.Grammar

open Bundler.Source (Token)

/-! ### Kinds of trees -/

/-- What is known of one tree. -/
inductive Form
  | leaf
  | node (kind : Node)
  | tree
  deriving DecidableEq

/-- What is known of a sequence of trees: each of them, or that all may stand between the parentheses of
a call, or nothing. -/
inductive Forms
  | each (forms : List Form)
  | parts
  | anything
  deriving DecidableEq

/-- An argument of a call. -/
def Node.isPart : Node → Bool
  | .argument | .generator | .keywordArgument | .starredArgument | .doubleStarredArgument => true
  | _ => false

namespace Form

def isPart : Form → Bool
  | .leaf => true
  | .node kind => kind.isPart
  | .tree => false

/-- Whatever has the form has the wider one. -/
def within (form wider : Form) : Bool := wider == .tree || form == wider

def Matches : Form → Tree → Prop
  | .leaf, found => ∃ token, found = .leaf token
  | .node kind, found => ∃ children, found = .node kind children
  | .tree, _ => True

end Form

/-- The tree is a token or an argument. -/
def Tree.IsPart (tree : Tree) : Prop :=
  (∃ token, tree = .leaf token) ∨ ∃ kind children, kind.isPart = true ∧ tree = .node kind children

namespace Forms

def areParts : Forms → Bool
  | .each forms => forms.all Form.isPart
  | .parts => true
  | .anything => false

def within : Forms → Forms → Bool
  | _, .anything => true
  | forms, .parts => forms.areParts
  | .each forms, .each wider =>
    forms.length == wider.length && (forms.zip wider).all fun pair => pair.1.within pair.2
  | _, .each _ => false

/-- What is known of two sequences one after the other. Of more than three trees nothing is kept but that
they are parts. -/
def append (first second : Forms) : Forms :=
  match first, second with
  | .each forms, .each others =>
    if forms.length + others.length ≤ 3 then .each (forms ++ others)
    else if first.areParts && second.areParts then .parts else .anything
  | first, second => if first.areParts && second.areParts then .parts else .anything

def Match : Forms → List Tree → Prop
  | .each forms, trees => List.Forall₂ Form.Matches forms trees
  | .parts, trees => ∀ tree ∈ trees, tree.IsPart
  | .anything, _ => True

end Forms

variable {forms others : Forms} {trees more : List Tree}

theorem Form.isPart_of_matches {form : Form} {tree : Tree} (h : form.Matches tree)
    (hpart : form.isPart = true) : tree.IsPart := by
  cases form with
  | leaf =>
    obtain ⟨token, rfl⟩ := h
    exact .inl ⟨token, rfl⟩
  | node kind =>
    obtain ⟨children, rfl⟩ := h
    exact .inr ⟨kind, children, hpart, rfl⟩
  | tree => cases hpart

theorem Form.matches_of_within {form wider : Form} {tree : Tree} (h : form.Matches tree)
    (hwithin : form.within wider = true) : wider.Matches tree := by
  rw [within, Bool.or_eq_true, beq_iff_eq, beq_iff_eq] at hwithin
  rcases hwithin with rfl | rfl
  · trivial
  · exact h

theorem Forms.isPart_of_match (h : forms.Match trees) (hparts : forms.areParts = true) :
    ∀ tree ∈ trees, tree.IsPart := by
  cases forms with
  | each forms =>
    rw [areParts, List.all_eq_true] at hparts
    intro tree htree
    rw [Match] at h
    induction h with
    | nil => cases htree
    | cons hfirst _ ih =>
      rw [List.forall_mem_cons] at hparts
      rcases List.mem_cons.1 htree with rfl | htree
      · exact Form.isPart_of_matches hfirst hparts.1
      · exact ih hparts.2 htree
  | parts => exact h
  | anything => cases hparts

theorem Forms.match_of_within (h : forms.Match trees) (hwithin : forms.within others = true) :
    others.Match trees := by
  cases others with
  | anything => trivial
  | parts => exact isPart_of_match h (by cases forms <;> exact hwithin)
  | each wider =>
    cases forms with
    | parts => cases hwithin
    | anything => cases hwithin
    | each forms =>
      rw [within, Bool.and_eq_true, beq_iff_eq, List.all_eq_true] at hwithin
      obtain ⟨hlength, hall⟩ := hwithin
      rw [Match] at h ⊢
      induction h generalizing wider with
      | nil =>
        cases wider with
        | nil => exact .nil
        | cons _ _ => cases hlength
      | cons hfirst _ ih =>
        cases wider with
        | nil => cases hlength
        | cons first wider =>
          rw [List.zip_cons_cons, List.forall_mem_cons] at hall
          exact .cons (Form.matches_of_within hfirst hall.1) (ih _ (Nat.succ.inj hlength) hall.2)

theorem Forms.match_append (hfirst : forms.Match trees) (hsecond : others.Match more) :
    (forms.append others).Match (trees ++ more) := by
  have hloose : ∀ forms others : Forms, forms.Match trees → others.Match more →
      (if forms.areParts && others.areParts then Forms.parts else .anything).Match (trees ++ more) := by
    intro forms others hfirst hsecond
    split
    next hparts =>
      rw [Bool.and_eq_true] at hparts
      intro tree htree
      rcases List.mem_append.1 htree with htree | htree
      · exact isPart_of_match hfirst hparts.1 tree htree
      · exact isPart_of_match hsecond hparts.2 tree htree
    · trivial
  unfold append
  split
  · split
    · exact List.rel_append hfirst hsecond
    · exact hloose _ _ hfirst hsecond
  · exact hloose _ _ hfirst hsecond

/-! ### Nodes -/

/-- The trees are what a node of the kind is made of. -/
def Node.Fits (kind : Node) (children : List Tree) : Prop :=
  (kind = .group → ∃ opening inner closing, children = [.leaf opening, inner, .leaf closing]) ∧
  (kind = .argument → ∃ value, children = [value]) ∧
  (kind = .call → ∃ callee rest, children = callee :: rest ∧ ∀ tree ∈ rest, tree.IsPart)

/-- Every node of the tree is made of what its kind asks for. -/
inductive Tree.WellFormed : Tree → Prop
  | leaf (token : Token) : WellFormed (.leaf token)
  | node (kind : Node) (children : List Tree) (hfits : kind.Fits children)
      (hchildren : ∀ tree ∈ children, tree.WellFormed) : WellFormed (.node kind children)

/-- A rule may give trees of these forms this name. -/
def Node.closes (kind : Node) (forms : Forms) : Bool :=
  match kind with
  | .group => forms.within (.each [.leaf, .tree, .leaf])
  | .argument => forms.within (.each [.tree])
  | .call => false
  | _ => true

/-- A tree followed by trees of these forms may get this name. -/
def Node.continues (kind : Node) (forms : Forms) : Bool :=
  match kind with
  | .group | .argument => false
  | .call => forms.areParts
  | _ => true

theorem Node.fits_of_closes {kind : Node} (h : forms.Match trees) (hcloses : kind.closes forms = true) :
    kind.Fits trees := by
  refine ⟨?_, ?_, ?_⟩
  · rintro rfl
    have hmatch := Forms.match_of_within h hcloses
    rw [Forms.Match] at hmatch
    cases hmatch with
    | cons hopening hmatch =>
    cases hmatch with
    | cons hinner hmatch =>
    cases hmatch with
    | cons hclosing hmatch =>
    cases hmatch
    obtain ⟨opening, rfl⟩ := hopening
    obtain ⟨closing, rfl⟩ := hclosing
    exact ⟨opening, _, closing, rfl⟩
  · rintro rfl
    have hmatch := Forms.match_of_within h hcloses
    rw [Forms.Match] at hmatch
    cases hmatch with
    | cons hvalue hmatch =>
    cases hmatch
    exact ⟨_, rfl⟩
  · rintro rfl
    cases hcloses

theorem Node.fits_of_continues {kind : Node} {tree : Tree} (h : forms.Match trees)
    (hcontinues : kind.continues forms = true) : kind.Fits (tree :: trees) := by
  refine ⟨?_, ?_, ?_⟩
  · rintro rfl
    cases hcontinues
  · rintro rfl
    cases hcontinues
  · rintro rfl
    exact ⟨tree, trees, rfl, Forms.isPart_of_match h hcontinues⟩

/-! ### Patterns -/

/-- How reading by a pattern can end: with trees of these forms, and with this name. -/
abbrev Ending := Forms × Option Node

namespace Ending

/-- A rule may end in this way. -/
def settled : Ending → Bool
  | (_, none) => true
  | (forms, some kind) => kind.closes forms

/-- The forms of the trees once the name has been given. -/
def wrapped : Ending → Forms
  | (forms, none) => forms
  | (_, some kind) => .each [.node kind]

/-- A tail may end in this way. -/
def grows : Ending → Bool
  | (_, none) => false
  | (forms, some kind) => kind.continues forms

end Ending

def Rule.promise : Rule → Forms
  | .call | .firstArgument | .positionalArgument | .starredArgument | .doubleStarredArgument
  | .keywordArgument | .arguments | .moreArguments | .namedArguments => .parts
  | .expression | .lambda | .yieldExpression | .namedExpression | .disjunction | .conjunction
  | .inversion | .comparison | .bitwiseOr | .bitwiseXor | .bitwiseAnd | .shift | .sum | .term | .factor
  | .power | .awaited | .primary | .atom | .parenthesized | .bracketed | .braced | .strings
  | .formattedString | .target | .starAtom | .singleTarget | .deleteTarget => .each [.tree]
  | _ => .anything

namespace Pattern

/-- The ways in which reading by a pattern can end, given what each rule promises. -/
def endings : Pattern Rule → List Ending
  | .empty | .peek _ | .absent _ => [(.each [], none)]
  | .token _ => [(.each [.leaf], none)]
  | .seq first second =>
    ((endings first).flatMap fun ending => (endings second).map fun later =>
      (ending.1.append later.1, later.2.or ending.2)).eraseDups
  | .alt first second => (endings first ++ endings second).eraseDups
  | .many item =>
    let forms := if (endings item).all (·.1.areParts) then Forms.parts else .anything
    (forms, none) :: (endings item).map fun ending => (forms, ending.2)
  | .rule name => [(name.promise, none)]
  | .label kind => [(.each [], some kind)]
  | .extend _ _ => [(.each [.tree], none)]
  | .only _ item => endings item

/-- The extensions in a pattern form one node after the other, each from one tree. -/
def sound : Pattern Rule → Bool
  | .seq first second | .alt first second => sound first && sound second
  | .many item | .only _ item => sound item
  | .extend base tail =>
    sound base && sound tail
      && ((endings base).all fun ending => ending.settled && ending.wrapped.within (.each [.tree]))
      && (endings tail).all Ending.grows
  | _ => true

end Pattern

/-- A rule keeps its promise. -/
def Rule.sound (rule : Rule) : Bool :=
  rule.pattern.sound
    && rule.pattern.endings.all fun ending => ending.settled && ending.wrapped.within rule.promise

theorem Rule.sound_eq_true (rule : Rule) : rule.sound = true := by
  cases rule <;> decide

def Pattern.Formed (pattern : Pattern Rule) (trees : List Tree) (name : Option Node) : Prop :=
  (∀ tree ∈ trees, tree.WellFormed) ∧ ∃ ending ∈ pattern.endings, ending.2 = name ∧ ending.1.Match trees

theorem wellFormed_wrap {name : Option Node} {ending : Ending} (htrees : ∀ tree ∈ trees, tree.WellFormed)
    (hname : ending.2 = name) (hmatch : ending.1.Match trees) (hsettled : ending.settled = true) :
    (∀ tree ∈ wrap name trees, tree.WellFormed) ∧ ending.wrapped.Match (wrap name trees) := by
  obtain ⟨forms, kind?⟩ := ending
  obtain rfl : kind? = name := hname
  cases kind? with
  | none => exact ⟨htrees, hmatch⟩
  | some kind =>
    refine ⟨?_, .cons ⟨trees, rfl⟩ .nil⟩
    rw [wrap, List.forall_mem_singleton]
    exact .node kind trees (Node.fits_of_closes hmatch hsettled) htrees

theorem Pattern.Formed.append {first second : Pattern Rule} {name later : Option Node}
    (hfirst : first.Formed trees name) (hsecond : second.Formed more later) :
    (Pattern.seq first second).Formed (trees ++ more) (later.or name) := by
  obtain ⟨htrees, ending, hending, rfl, hmatch⟩ := hfirst
  obtain ⟨hmore, after, hafter, rfl, hmatches⟩ := hsecond
  refine ⟨?_, (ending.1.append after.1, after.2.or ending.2), ?_, rfl,
    Forms.match_append hmatch hmatches⟩
  · intro tree htree
    rcases List.mem_append.1 htree with htree | htree
    · exact htrees tree htree
    · exact hmore tree htree
  · rw [Pattern.endings, List.mem_eraseDups, List.mem_flatMap]
    exact ⟨ending, hending, List.mem_map.2 ⟨after, hafter, rfl⟩⟩

theorem Pattern.formed_many_nil (item : Pattern Rule) : (Pattern.many item).Formed [] none := by
  refine ⟨by simp, _, List.mem_cons_self, rfl, ?_⟩
  split
  · exact fun tree htree => absurd htree List.not_mem_nil
  · trivial

theorem Pattern.Formed.many {item : Pattern Rule} {name later : Option Node}
    (hitem : item.Formed trees name) (hmany : (Pattern.many item).Formed more later) :
    (Pattern.many item).Formed (trees ++ more) (later.or name) := by
  obtain ⟨htrees, ending, hending, rfl, hmatch⟩ := hitem
  obtain ⟨hmore, after, hafter, rfl, hmatches⟩ := hmany
  have hforms : after.1 = if item.endings.all (·.1.areParts) then Forms.parts else .anything := by
    rw [endings] at hafter
    rcases List.mem_cons.1 hafter with rfl | hafter
    · rfl
    · obtain ⟨_, -, rfl⟩ := List.mem_map.1 hafter
      rfl
  rw [hforms] at hmatches
  refine ⟨?_, (if item.endings.all (·.1.areParts) then Forms.parts else .anything,
    after.2.or ending.2), ?_, rfl, ?_⟩
  · intro tree htree
    rcases List.mem_append.1 htree with htree | htree
    · exact htrees tree htree
    · exact hmore tree htree
  · rw [endings] at hafter ⊢
    cases hlater : after.2 with
    | none => exact List.mem_cons_of_mem _ (List.mem_map.2 ⟨ending, hending, rfl⟩)
    | some kind =>
      rcases List.mem_cons.1 hafter with rfl | hafter
      · cases hlater
      · obtain ⟨source, hsource, rfl⟩ := List.mem_map.1 hafter
        refine List.mem_cons_of_mem _ (List.mem_map.2 ⟨source, hsource, ?_⟩)
        simp only at hlater
        rw [hlater, Option.some_or]
  · split
    next hparts =>
      rw [if_pos hparts] at hmatches
      intro tree htree
      rcases List.mem_append.1 htree with htree | htree
      · exact Forms.isPart_of_match hmatch (List.all_eq_true.1 hparts ending hending) tree htree
      · exact hmatches tree htree
    · trivial

theorem Pattern.Formed.widen {pattern wider : Pattern Rule} {name : Option Node}
    (h : pattern.Formed trees name) (hsub : ∀ ending ∈ pattern.endings, ending ∈ wider.endings) :
    wider.Formed trees name := by
  obtain ⟨htrees, ending, hending, hname, hmatch⟩ := h
  exact ⟨htrees, ending, hsub ending hending, hname, hmatch⟩

/-- One tree, and no name. -/
theorem Pattern.formed_extend {base tail : Pattern Rule} {tree : Tree} (htree : tree.WellFormed) :
    (Pattern.extend base tail).Formed [tree] none :=
  ⟨by simpa using htree, _, List.mem_singleton_self _, rfl, .cons trivial .nil⟩

theorem Pattern.Formed.exists_eq {base tail : Pattern Rule} {name : Option Node}
    (h : (Pattern.extend base tail).Formed trees name) : ∃ tree, trees = [tree] ∧ tree.WellFormed := by
  obtain ⟨htrees, ending, hending, -, hmatch⟩ := h
  rw [endings, List.mem_singleton] at hending
  subst hending
  cases hmatch with
  | cons _ hmatch =>
  cases hmatch
  exact ⟨_, rfl, htrees _ (List.mem_singleton_self _)⟩

theorem formed_of_reads {pattern : Pattern Rule} {tokens rest : List Token} {name : Option Node}
    (h : Reads Rule.pattern pattern tokens trees name rest) (hsound : pattern.sound = true) :
    pattern.Formed trees name := by
  induction h with
  | empty => exact ⟨by simp, _, List.mem_singleton_self _, rfl, .nil⟩
  | token => exact ⟨by simpa using .leaf _, _, List.mem_singleton_self _, rfl, .cons ⟨_, rfl⟩ .nil⟩
  | seq _ _ ihfirst ihsecond =>
    rw [Pattern.sound, Bool.and_eq_true] at hsound
    exact (ihfirst hsound.1).append (ihsecond hsound.2)
  | left _ _ ih =>
    rw [Pattern.sound, Bool.and_eq_true] at hsound
    refine (ih hsound.1).widen fun ending hending => ?_
    rw [Pattern.endings, List.mem_eraseDups]
    exact List.mem_append_left _ hending
  | right _ _ ih =>
    rw [Pattern.sound, Bool.and_eq_true] at hsound
    refine (ih hsound.2).widen fun ending hending => ?_
    rw [Pattern.endings, List.mem_eraseDups]
    exact List.mem_append_right _ hending
  | stop => exact Pattern.formed_many_nil _
  | again _ _ ihitem ihmany => exact (ihitem hsound).many (ihmany hsound)
  | peek => exact ⟨by simp, _, List.mem_singleton_self _, rfl, .nil⟩
  | absent => exact ⟨by simp, _, List.mem_singleton_self _, rfl, .nil⟩
  | @rule rule _ _ _ _ _ ih =>
    have hrule := rule.sound_eq_true
    rw [Rule.sound, Bool.and_eq_true, List.all_eq_true] at hrule
    obtain ⟨htrees, ending, hending, hname, hmatch⟩ := ih hrule.1
    obtain ⟨hsettled, hwithin⟩ := Bool.and_eq_true_iff.1 (hrule.2 ending hending)
    obtain ⟨hwrapped, hforms⟩ := wellFormed_wrap htrees hname hmatch hsettled
    exact ⟨hwrapped, _, List.mem_singleton_self _, rfl, Forms.match_of_within hforms hwithin⟩
  | label => exact ⟨by simp, _, List.mem_singleton_self _, rfl, .nil⟩
  | base _ _ ih =>
    simp only [Pattern.sound, Bool.and_eq_true, List.all_eq_true] at hsound
    obtain ⟨⟨⟨hbase, -⟩, hendings⟩, -⟩ := hsound
    obtain ⟨htrees, ending, hending, hname, hmatch⟩ := ih hbase
    obtain ⟨hsettled, hwithin⟩ := hendings ending hending
    obtain ⟨hwrapped, hforms⟩ := wellFormed_wrap htrees hname hmatch hsettled
    exact ⟨hwrapped, _, List.mem_singleton_self _, rfl, Forms.match_of_within hforms hwithin⟩
  | tail _ _ ihformed ihtail =>
    obtain ⟨tree, rfl, htree⟩ := (ihformed hsound).exists_eq
    simp only [Pattern.sound, Bool.and_eq_true, List.all_eq_true] at hsound
    obtain ⟨⟨⟨-, htail⟩, -⟩, hgrows⟩ := hsound
    obtain ⟨htrees, ⟨forms, kind?⟩, hending, rfl, hmatch⟩ := ihtail htail
    have hgrow := hgrows _ hending
    cases kind? with
    | none => cases hgrow
    | some kind =>
      refine Pattern.formed_extend (.node kind _ (Node.fits_of_continues hmatch hgrow) ?_)
      exact List.forall_mem_cons.2 ⟨htree, htrees⟩
  | only _ _ ih => exact ih hsound

theorem wellFormed_of_read {text : List Char} {module : Module} (h : read text = some module) :
    ∀ tree ∈ module, tree.WellFormed := by
  rw [read] at h
  split at h
  · exact (formed_of_reads (reads_of_parse h) rfl).1
  · cases h

end Bundler.Grammar
