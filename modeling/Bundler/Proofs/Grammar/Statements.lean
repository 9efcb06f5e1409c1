import Bundler.Proofs.Grammar.Carried

/-!
# Statements

Where a module is read, the module with its calls turned is read as the turned trees (`parse_turned`). A
statement is read alike because the lines and the blocks that it is made of are. What may go on in the next line
looks there only for a word that is no name (`Settled`).
-/

namespace Bundler.Grammar

open Bundler.Source (Token TokenKind)

variable {fuel : Nat} {tokens rest left : List Token} {trees others : List Tree}
  {first second item pattern : Pattern Rule} {name : Option Node} {tests : List Test}

/-! ### What comes behind a statement -/

/-- The tests for what goes on with a statement. -/
def settledTests : List Test :=
  [.kind .indent, .text "elif".toList, .text "else".toList, .text "except".toList, .text "finally".toList]

/-- Nothing of these comes next. -/
abbrev Without (tests : List Test) : Sides := fun _ left => Misses tests left

abbrev Settled : Sides := Without settledTests

/-- The block comes to its end, or the module. -/
def Final : Sides := fun _ left =>
  ∃ token, left.head? = some token ∧ (token.kind = .dedent ∨ token.kind = .finish)

theorem Misses.mono {wider : List Test} (h : Misses wider tokens) (hsub : tests ⊆ wider) : Misses tests tokens := by
  obtain ⟨token, hhead, htests⟩ := h
  exact ⟨token, hhead, fun test htest => htests test (hsub htest)⟩

theorem Final.misses (h : Final rest left) (htests : tests.all (fun test => (Test.kind .dedent).excludes test
    && (Test.kind .finish).excludes test) = true) : Misses tests left := by
  obtain ⟨token, hhead, hkind⟩ := h
  refine ⟨token, hhead, fun test htest => ?_⟩
  have hexcludes := List.all_eq_true.1 htests test htest
  rw [Bool.and_eq_true] at hexcludes
  have hproper : Token.Proper token := fun hname => by
    rcases hkind with hkind | hkind <;> rw [hkind] at hname <;> cases hname
  rcases hkind with hkind | hkind
  · exact Test.holds_of_excludes hproper (by simp [Test.holds, hkind]) hexcludes.1
  · exact Test.holds_of_excludes hproper (by simp [Test.holds, hkind]) hexcludes.2

theorem Final.fails (h : Final rest left) (hrefuses : pattern.refuses [.kind .dedent, .kind .finish] = true) :
    Ends Rule.pattern pattern left .failed := by
  obtain ⟨token, hhead, hkind⟩ := h
  have hpasses : Token.Passes token [.kind .dedent, .kind .finish] := by
    have hown : Token.Passes token [.kind token.kind] :=
      Token.passes_kind (by rcases hkind with hkind | hkind <;> simp [hkind])
    rcases hkind with hkind | hkind
    · exact hown.mono (by simp [hkind])
    · exact hown.mono (by simp [hkind])
  exact .fails hrefuses hpasses hhead

/-- The end of a block comes behind what stands in it. -/
theorem leads_final : Leads fuel Anything (.token (.kind .dedent)) Final := by
  refine ⟨fun hturned hrun _ => ?_⟩
  obtain ⟨token, -, htest, rfl, rfl⟩ := exists_of_run_token hrun
  obtain rfl := hturned.turns.of_leaf
  exact ⟨token, rfl, .inl (by simpa [Test.holds] using htest)⟩

/-- What has to come behind a statement, or behind a part of one. -/
def Rule.limits : Rule → Sides
  | .statements => Final
  | .statement | .compound | .conditionalStatement | .elseIf | .whileLoop | .forLoop | .tryBlock => Settled
  | .decorators => Without [.text ['@']]
  | _ => Anything

/-- The rule says how lines make up statements. -/
def Rule.stacks : Rule → Bool
  | .statements | .statement | .simpleStatements | .compound | .block | .classDefinition
  | .functionDefinition | .conditionalStatement | .elseIf | .elseBlock | .whileLoop | .forLoop | .withBlock
  | .tryBlock | .matchBlock | .caseBlock | .decorators => true
  | _ => false

/-- The rules for statements carry over at this depth. -/
def Stacked (fuel : Nat) : Prop := ∀ rule : Rule, rule.stacks = true → Carries fuel rule.limits (.rule rule)

section

variable (h : Stacked fuel)

include h

theorem Stacked.get (rule : Rule) (hrule : rule.stacks = true) {limits : Sides}
    (hlimits : ∀ rest left, limits rest left → rule.limits rest left) : Carries fuel limits (.rule rule) :=
  (h rule hrule).imp hlimits

set_option maxRecDepth 20000 in
theorem carries_block : Carries fuel Anything (Rule.pattern .block) := by
  have hlines : Carries fuel Anything (Rule.newline ++ .token (.kind .indent) ++ Rule.ref .statements
      ++ .token (.kind .dedent)) :=
    (((Carries.token _).followed (.token _)).followed (h .statements rfl)).seq (.token _) leads_final
  have hline : Carries fuel Anything (.rule .simpleStatements) := h .simpleStatements rfl
  exact (hlines.alt hline (leads_failed [.kind .newline] rfl rfl rfl)).followed
    (.label _)

theorem carries_headed (htame : first.tame = true) (hopens : first.opens = false) :
    Carries fuel Anything (.seq first (.rule .block)) :=
  .before_line htame hopens (h .block rfl) rfl

theorem carries_else : Carries fuel Settled (.maybe (.rule .elseBlock)) :=
  .maybe (h.get .elseBlock rfl fun _ _ _ => trivial) fun _ _ hsettled => hsettled.fails rfl

theorem carries_elseIf : Carries fuel Settled (.maybe (.alt (.rule .elseIf) (.rule .elseBlock))) := by
  have helse : Carries fuel Settled (.rule .elseBlock) := h.get .elseBlock rfl fun _ _ _ => trivial
  have helseIf : Carries fuel Settled (.rule .elseIf) := h .elseIf rfl
  exact .maybe (helseIf.alt helse (leads_failed [.text "elif".toList] rfl rfl rfl))
    fun _ _ hsettled => hsettled.fails rfl

set_option maxRecDepth 20000 in
theorem carries_handlers {handler : Pattern Rule} (hhandler : Carries fuel Anything handler)
    (hskips : handler.skips = false) (hbegins : handler.beginsWith [.text "except".toList] = true) :
    Carries fuel Settled (Pattern.repeated handler ++ Pattern.maybe (Rule.ref .elseBlock)
      ++ Pattern.maybe (Rule.tok "finally" ++ Rule.tok ":" ++ Rule.ref .block)) := by
  have hending : Carries fuel Settled (Pattern.maybe (Rule.tok "finally" ++ Rule.tok ":" ++ Rule.ref .block)) :=
    .maybe ((carries_headed h rfl rfl).imp fun _ _ _ => trivial)
      fun _ _ hsettled => hsettled.fails rfl
  have helse : Carries fuel (Without [.text "except".toList, .text "else".toList])
      (Pattern.maybe (Rule.ref .elseBlock)) :=
    .maybe (h.get .elseBlock rfl fun _ _ _ => trivial) fun _ _ hnone => hnone.fails rfl
  have hmany : Carries fuel (Without [.text "except".toList]) (.many handler) :=
    .many hhandler hskips (fun _ _ hnone => hnone.fails hbegins) leads_anything
  have hbehind : Leads fuel Settled (Pattern.maybe (Rule.tok "finally" ++ Rule.tok ":" ++ Rule.ref .block))
      (Without [.text "except".toList, .text "else".toList]) :=
    leads_maybe (leads_misses rfl rfl) fun _ _ hsettled => hsettled.mono (by decide)
  have hbetween : Leads fuel (Without [.text "except".toList, .text "else".toList])
      (Pattern.maybe (Rule.ref .elseBlock)) (Without [.text "except".toList]) :=
    leads_maybe (leads_misses rfl rfl) fun _ _ hnone => hnone.mono (by decide)
  exact ((hhandler.followed hmany).seq helse hbetween).seq hending hbehind

end

def Rule.handler : Pattern Rule :=
  tok "except" ++
    Pattern.maybe (ref .expression ++ (Pattern.repeated (comma ++ ref .expression) ++ Pattern.maybe comma
      <|> comma
      <|> Pattern.maybe (tok "as" ++ Rule.name))) ++ tok ":" ++ ref .block

def Rule.groupHandler : Pattern Rule :=
  tok "except" ++ tok "*" ++ ref .expression ++
    (Pattern.repeated (comma ++ ref .expression) ++ Pattern.maybe comma <|> comma
      <|> Pattern.maybe (tok "as" ++ Rule.name)) ++
    tok ":" ++ ref .block

/-- The first part of a pattern, down to two parts of which the first has no parts. -/
def Pattern.start : Pattern Rule → Pattern Rule
  | .seq (.seq first second) _ => start (.seq first second)
  | pattern => pattern

theorem reads_start (h : Reads Rule.pattern pattern tokens trees name rest) :
    ∃ fore last given middle, trees = fore ++ last ∧ Reads Rule.pattern pattern.start tokens fore given middle := by
  fun_induction Pattern.start pattern generalizing trees name rest with
  | case1 first second third ih =>
    cases h with
    | seq hfirst _ =>
    obtain ⟨fore, last, given, middle, rfl, hstart⟩ := ih hfirst
    exact ⟨fore, _, given, middle, List.append_assoc _ _ _, hstart⟩
  | case2 pattern => exact ⟨trees, [], name, rest, (List.append_nil _).symm, h⟩

theorem Ends.start_failed (h : Ends Rule.pattern pattern.start tokens .failed) :
    Ends Rule.pattern pattern tokens .failed := by
  fun_induction Pattern.start pattern with
  | case1 first second third ih => exact (ih h).seq_failed _
  | case2 pattern => exact h

/-- A handler of a group begins with two tokens that no other handler begins with. -/
theorem star_of_reads {second third : Pattern Rule}
    (h : Reads Rule.pattern (Pattern.repeated Rule.groupHandler ++ second ++ third) tokens trees name rest) :
    ∃ except star more, trees = .leaf except :: .leaf star :: more
      ∧ (Test.text "except".toList).holds except = true ∧ (Test.text "*".toList).holds star = true := by
  obtain ⟨fore, last, given, middle, rfl, hstart⟩ := reads_start h
  have hpair : Reads Rule.pattern (.seq (Rule.tok "except") (Rule.tok "*")) tokens fore given middle := hstart
  cases hpair with
  | seq hexcept hstar =>
  cases hexcept with
  | token _ hexcept =>
  cases hstar with
  | token _ hstar => exact ⟨_, _, _, rfl, hexcept, hstar⟩

theorem handler_failed {except star : Token} (hexcept : (Test.text "except".toList).holds except = true)
    (hstar : Token.IsSign "*" star) : Ends Rule.pattern Rule.handler (except :: star :: rest) .failed := by
  have hnone : ∀ {pattern : Pattern Rule}, pattern.refuses [.text ['*'], .kind .operator] = true →
      Ends Rule.pattern pattern (star :: rest) .failed := fun hrefuses => .fails hrefuses hstar.passes rfl
  exact (((Ends.token hexcept).without (hnone rfl)).seq_failed_behind
    (hnone rfl)).seq_failed _

theorem leads_handler_failed {limits : Sides} {second third : Pattern Rule} :
    Leads fuel limits (Pattern.repeated Rule.groupHandler ++ second ++ third) fun _ twins =>
      Ends Rule.pattern Rule.handler twins .failed := by
  refine ⟨fun hturned hrun _ => ?_⟩
  obtain ⟨except, star, more, rfl, hexcept, hstar⟩ := star_of_reads (reads_of_run hrun)
  have hsign := (hturned.proper star (by simp [leavesOf, Tree.leaves])).isSign hstar (by decide)
  cases hturned.turns with
  | leaf _ hturns =>
  cases hturns with
  | leaf => exact handler_failed hexcept hsign

set_option maxRecDepth 20000 in
theorem carries_try (h : Stacked fuel) : Carries fuel Settled (Rule.pattern .tryBlock) := by
  have hhead : Carries fuel Anything (Rule.tok "try" ++ Rule.tok ":" ++ Rule.ref .block) :=
    carries_headed h rfl rfl
  have hending : Carries fuel Settled (Rule.tok "finally" ++ Rule.tok ":" ++ Rule.ref .block) :=
    (carries_headed h rfl rfl).imp fun _ _ _ => trivial
  have hhandler : Carries fuel Anything Rule.handler := carries_headed h rfl rfl
  have hgroup : Carries fuel Anything Rule.groupHandler := carries_headed h rfl rfl
  have hhandlers := carries_handlers h hhandler rfl rfl
  have hgroups := carries_handlers h hgroup rfl rfl
  have hother : Leads fuel Settled (Pattern.repeated Rule.groupHandler ++ Pattern.maybe (Rule.ref .elseBlock)
        ++ Pattern.maybe (Rule.tok "finally" ++ Rule.tok ":" ++ Rule.ref .block))
      fun _ twins => Ends Rule.pattern (Pattern.repeated Rule.handler ++ Pattern.maybe (Rule.ref .elseBlock)
        ++ Pattern.maybe (Rule.tok "finally" ++ Rule.tok ":" ++ Rule.ref .block)) twins .failed :=
    leads_handler_failed.imp fun _ _ hfailed => ((hfailed.seq_failed _).seq_failed _).seq_failed _
  exact hhead.followed (hending.alt (hhandlers.alt hgroups hother)
    (leads_failed [.text "finally".toList] rfl rfl rfl))

set_option maxRecDepth 20000 in
theorem carries_decorators : Carries fuel (Without [.text ['@']]) (Rule.pattern .decorators) := by
  have hitem : Carries fuel Anything (Rule.tok "@" ++ Rule.ref .namedExpression ++ Rule.newline) :=
    .before_line rfl rfl (.token _) rfl
  exact hitem.followed (.many hitem rfl (fun _ _ hnone => hnone.fails rfl) leads_anything)

/-! ### Compound statements -/

/-- A word that another one may stand in front of. -/
def Rule.afterAsync (word : String) : Pattern Rule := Pattern.maybe (tok "async") ++ tok word

theorem afterAsync_failed {token : Token} {more : List Token} {word : String}
    (htoken : (Test.text word.toList).holds token = false)
    (hnext : (Test.text "async".toList).holds token = true →
      ∃ next, more.head? = some next ∧ (Test.text word.toList).holds next = false) :
    Ends Rule.pattern (Rule.afterAsync word) (token :: more) .failed := by
  have hnone : ∀ {word : String} {tokens : List Token} {token : Token}, tokens.head? = some token →
      (Test.text word.toList).holds token = false → Ends Rule.pattern (Rule.tok word) tokens .failed := by
    intro word tokens token hhead hholds
    refine .token_failed fun found hfound => ?_
    rw [hhead] at hfound
    cases hfound
    exact hholds
  cases hasync : (Test.text "async".toList).holds token with
  | true =>
    obtain ⟨next, hhead, hholds⟩ := hnext hasync
    exact ((Ends.token hasync).left _).seq_failed_behind (hnone hhead hholds)
  | false => exact ((hnone rfl hasync).right .empty).seq_failed_behind (hnone rfl htoken)

theorem reads_afterAsync {rule : Rule} {word : String}
    (hnames : rule.pattern.endings.all (fun ending => ending.2.isNone) = true)
    (hstart : rule.pattern.start = Rule.afterAsync word)
    (h : Reads Rule.pattern (.rule rule) tokens trees name rest) :
    ∃ token more, (Test.text word.toList).holds token = true
      ∧ (trees = .leaf token :: more
        ∨ ∃ before, trees = .leaf before :: .leaf token :: more ∧ (Test.text "async".toList).holds before = true) := by
  cases h with
  | @rule _ _ _ children given h =>
  obtain rfl : given = none := by
    obtain ⟨-, ending, hending, rfl, -⟩ := formed_of_reads h (sound_pattern rule)
    exact Option.isNone_iff_eq_none.1 (List.all_eq_true.1 hnames ending hending)
  obtain ⟨fore, last, given, middle, rfl, hpair⟩ := reads_start h
  rw [hstart] at hpair
  cases hpair with
  | seq hfirst hsecond =>
  cases hsecond with
  | @token _ token _ htoken =>
  cases hfirst with
  | left _ hasync =>
    cases hasync with
    | token _ hasync => exact ⟨token, last, htoken, .inr ⟨_, rfl, hasync⟩⟩
  | right _ hempty =>
    cases hempty
    exact ⟨token, last, htoken, .inl rfl⟩

/-- What begins with one word, or with this word behind another one, does not begin with a third. -/
theorem leads_afterAsync {rule : Rule} {limits : Sides} {word other : String}
    (hnames : rule.pattern.endings.all (fun ending => ending.2.isNone) = true)
    (hstart : rule.pattern.start = Rule.afterAsync word) (hfirst : first.start = Rule.afterAsync other)
    (hword : (Test.text word.toList).excludes (.text other.toList) = true)
    (hasync : (Test.text word.toList).excludes (.text "async".toList) = true
      ∧ (Test.text "async".toList).excludes (.text other.toList) = true) :
    Leads fuel limits (.rule rule) fun _ twins => Ends Rule.pattern first twins .failed := by
  refine ⟨fun hturned hrun _ => .start_failed (hfirst ▸ ?_)⟩
  obtain ⟨token, more, htoken, heq⟩ := reads_afterAsync hnames hstart (reads_of_run hrun)
  have hproper := hturned.proper
  have hturns := hturned.turns
  have hholds : ∀ test : Test, token ∈ leavesOf _ → (Test.text word.toList).excludes test = true →
      test.holds token = false := fun test hmem => Test.holds_of_excludes (hproper token hmem) htoken
  rcases heq with rfl | ⟨before, rfl, hbefore⟩
  · have hmem : token ∈ leavesOf (.leaf token :: more) := by simp [leavesOf, Tree.leaves]
    cases hturns with
    | leaf =>
    refine afterAsync_failed (hholds _ hmem hword) fun hholds' => ?_
    rw [hholds _ hmem hasync.1] at hholds'
    cases hholds'
  · have hmem : token ∈ leavesOf (.leaf before :: .leaf token :: more) := by simp [leavesOf, Tree.leaves]
    cases hturns with
    | leaf _ hturns =>
    cases hturns with
    | leaf =>
    exact afterAsync_failed (Test.holds_of_excludes (hproper before (by simp [leavesOf, Tree.leaves])) hbefore hasync.2)
      fun _ => ⟨token, rfl, hholds _ hmem hword⟩

theorem Leads.alt {limits inner : Sides} (hfirst : Leads fuel limits first inner)
    (hsecond : Leads fuel limits second inner) : Leads fuel limits (.alt first second) inner := by
  refine ⟨fun hturned hrun hlimits => ?_⟩
  obtain hrun | ⟨-, hrun⟩ := cases_of_run_alt (run_of_le hrun nofun (Nat.le_succ fuel))
  · exact hfirst.lead hturned hrun hlimits
  · exact hsecond.lead hturned hrun hlimits

theorem carries_compound (h : Stacked fuel) : Carries fuel Settled (Rule.pattern .compound) := by
  have hfree : ∀ {rule : Rule}, rule.stacks = true → (∀ rest left, Settled rest left → rule.limits rest left) →
      Carries fuel Settled (.rule rule) := fun {rule} hstacks hlimits => h.get rule hstacks hlimits
  have hfunction : Carries fuel Settled (.rule .functionDefinition) := hfree rfl fun _ _ _ => trivial
  have hclass : Carries fuel Settled (.rule .classDefinition) := hfree rfl fun _ _ _ => trivial
  have hmatch : Carries fuel Settled (.rule .matchBlock) := hfree rfl fun _ _ _ => trivial
  have hwith : Carries fuel Settled (.rule .withBlock) := hfree rfl fun _ _ _ => trivial
  have hwhile : Carries fuel Settled (.rule .whileLoop) := h .whileLoop rfl
  have htry : Carries fuel Settled (.rule .tryBlock) := h .tryBlock rfl
  have hfor : Carries fuel Settled (.rule .forLoop) := h .forLoop rfl
  have hif : Carries fuel Settled (.rule .conditionalStatement) := h .conditionalStatement rfl
  have hdefinition : Carries fuel Settled (.alt (.rule .functionDefinition) (.rule .classDefinition)) :=
    hfunction.alt hclass
      (leads_failed [.text "async".toList, .text "def".toList] rfl rfl rfl)
  have hdecorated : Carries fuel Settled (.seq (.rule .decorators)
      (.alt (.rule .functionDefinition) (.rule .classDefinition))) :=
    (h .decorators rfl).seq hdefinition (leads_misses rfl rfl)
  have htail : Carries fuel Settled (.alt (.rule .tryBlock) (.alt (.rule .whileLoop) (.rule .matchBlock))) :=
    htry.alt (hwhile.alt hmatch (leads_failed [.text "while".toList] rfl rfl rfl))
      (leads_failed [.text "try".toList] rfl rfl rfl)
  have hloops := hfor.alt htail
    (leads_failed [.text "async".toList, .text "for".toList] rfl rfl rfl)
  -- a definition, a block with a context and a loop may all begin with the same word
  have hcontexts := hwith.alt hloops <| Leads.alt
    ((leads_afterAsync (by decide) rfl rfl (by decide) (by decide)).imp fun _ _ hfailed => hfailed.rule_failed)
    (leads_failed [.text "async".toList, .text "with".toList] rfl rfl rfl)
  have hconditions := hif.alt hcontexts
    (leads_failed [.text "if".toList] rfl rfl rfl)
  have hdecorations := hdecorated.alt hconditions
    (leads_failed [.text ['@']] rfl rfl rfl)
  have hclasses := hclass.alt hdecorations
    (leads_failed [.text "class".toList] rfl rfl rfl)
  have hno : ∀ {pattern : Pattern Rule},
      pattern.avoids [.text "async".toList, .text "def".toList] = true →
      Leads fuel Settled pattern fun _ twins => Ends Rule.pattern (.rule .functionDefinition) twins .failed :=
    fun havoids => leads_failed _ havoids rfl rfl
  exact hfunction.alt hclasses <| (hno rfl).alt <| (hno rfl).alt <|
    (hno rfl).alt <|
    ((leads_afterAsync (by decide) rfl rfl (by decide) (by decide)).imp fun _ _ hfailed => hfailed.rule_failed).alt <|
    ((leads_afterAsync (by decide) rfl rfl (by decide) (by decide)).imp fun _ _ hfailed => hfailed.rule_failed).alt
      (hno rfl)

/-! ### Cases -/

theorem leads_inLine : Leads fuel Varies pattern Varies :=
  ⟨fun hturned _ hrest => hturned.turns.varies hrest⟩

theorem carries_match (h : Stacked fuel) : Carries fuel Anything (Rule.pattern .matchBlock) := by
  have hcase : Carries fuel Anything (.rule .caseBlock) := h .caseBlock rfl
  have hcases : Carries fuel (Without [.text "case".toList]) (Pattern.repeated (Rule.ref .caseBlock)) :=
    hcase.followed (.many hcase rfl (fun _ _ hnone => hnone.fails rfl) leads_anything)
  have hsubject : Carries fuel Varies
      (Rule.tok "*" ++ Rule.ref .bitwiseOr ++ Rule.comma ++ Pattern.maybe (Rule.ref .starNamedExpressions)
        <|> Rule.ref .namedExpression ++ Pattern.maybe (Rule.comma
          ++ Pattern.maybe (Rule.ref .starNamedExpressions))) := .inLine rfl rfl
  have hhead : Carries fuel Anything (Rule.tok "match"
      ++ (Rule.tok "*" ++ Rule.ref .bitwiseOr ++ Rule.comma ++ Pattern.maybe (Rule.ref .starNamedExpressions)
        <|> Rule.ref .namedExpression ++ Pattern.maybe (Rule.comma
          ++ Pattern.maybe (Rule.ref .starNamedExpressions)))
      ++ Rule.tok ":" ++ Rule.newline) :=
    (((Carries.token _).followed hsubject).seq (.token _) leads_inLine).seq (.token _) (leads_varies rfl)
  exact ((hhead.followed (.token _)).followed hcases).seq (.token _)
    (leads_final.imp fun _ _ hfinal => hfinal.misses (by decide))

/-- What comes next ends the patterns of a case. -/
def Edge.Behind : Sides := fun rest left => ∃ token twin more last, rest = token :: more ∧ left = twin :: last
  ∧ Token.Passes token edgeTests ∧ Token.Passes twin edgeTests ∧ Varies rest left

/-- A colon comes next. -/
def Edge.Colon : Sides := fun rest left => ∃ colon more last, rest = colon :: more ∧ left = colon :: last
  ∧ Token.IsSign ":" colon ∧ Varies rest left

theorem Edge.Colon.behind (h : Edge.Colon rest left) : Edge.Behind rest left := by
  obtain ⟨colon, more, last, rfl, rfl, hcolon, hrest⟩ := h
  have hpasses : Token.Passes colon edgeTests := hcolon.passes.mono (by decide)
  exact ⟨colon, colon, more, last, rfl, rfl, hpasses, hpasses, hrest⟩

theorem passes_if {token : Token} (h : (Test.text "if".toList).holds token = true) :
    Token.Passes token edgeTests := by
  have hparts := h
  rw [Test.holds, Bool.and_eq_true, Bool.or_eq_true, beq_iff_eq, beq_iff_eq, beq_iff_eq] at hparts
  rcases hparts.1 with hkind | hkind
  · have hkeyword : Token.IsKeyword "if" token := ⟨hkind, hparts.2, by decide⟩
    exact hkeyword.passes.mono (by decide)
  · have hsign : Token.IsSign "if" token := ⟨hkind, hparts.2⟩
    exact hsign.passes.mono (by decide)

theorem carries_case (h : Stacked fuel) : Carries fuel Anything (Rule.pattern .caseBlock) := by
  have hpatterns : Carries fuel Edge.Behind (.rule .casePatterns) := by
    refine ⟨fun hturned hrun hbehind => ?_⟩
    obtain ⟨token, twin, more, last, rfl, rfl, htoken, htwin, hrest⟩ := hbehind
    exact hturned.turns.reads_case (ends_of_run hrun nofun) hturned.proper htoken htwin hrest
  have hguard : Carries fuel Edge.Colon (Pattern.maybe (Rule.tok "if" ++ Rule.ref .namedExpression)) := by
    refine Carries.imp (.inLine rfl rfl) fun rest left hcolon => ?_
    obtain ⟨-, -, -, -, -, -, hrest⟩ := hcolon
    exact hrest
  have hedge : Leads fuel Edge.Colon (Rule.tok "if" ++ Rule.ref .namedExpression) Edge.Behind := by
    refine ⟨fun hturned hrun hcolon => ?_⟩
    obtain ⟨-, -, -, -, -, -, hrest⟩ := hcolon
    obtain ⟨_, _, middle, more, _, hword, hvalue, rfl, -⟩ :=
      exists_of_run_seq (run_of_le hrun nofun (Nat.le_succ fuel))
    obtain ⟨token, -, htest, rfl, -⟩ := exists_of_run_token hword
    have hvaries := hturned.turns.varies hrest
    have hturns := hturned.turns
    rw [List.singleton_append] at hturns
    cases hturns with
    | leaf _ hturns => exact ⟨token, token, _, _, rfl, rfl, passes_if htest, passes_if htest, hvaries⟩
  have hcolon : Leads fuel Varies (Rule.tok ":") Edge.Colon := by
    refine ⟨fun hturned hrun hrest => ?_⟩
    obtain ⟨token, -, htest, rfl, rfl⟩ := exists_of_run_token hrun
    obtain rfl := hturned.turns.of_leaf
    have hsign := (hturned.proper token (by simp [leavesOf, Tree.leaves])).isSign htest (by decide)
    exact ⟨token, _, _, rfl, rfl, hsign, .kept (fun _ _ => rfl) hrest⟩
  have hhead := (Carries.followed (.token (.text "case".toList)) hpatterns).seq hguard
    (leads_maybe hedge fun _ _ hcolon => hcolon.behind)
  exact (hhead.seq (.token _) hcolon).seq (h .block rfl) (leads_varies rfl)

/-! ### Statements -/

/-- What stands behind the first end of a line. -/
theorem tail_eq {body fore more : List Token} {newline line : Token}
    (hbody : ∀ token ∈ body, token.kind ≠ .newline) (hfore : ∀ token ∈ fore, token.kind ≠ .newline)
    (hnewline : newline.kind = .newline) (hline : line.kind = .newline)
    (h : body ++ newline :: left = fore ++ line :: more) : left = more := by
  induction body generalizing fore with
  | nil =>
    cases fore with
    | nil => exact (List.cons.inj h).2
    | cons token fore =>
      obtain ⟨rfl, -⟩ := List.cons.inj h
      exact absurd hnewline (hfore _ List.mem_cons_self)
  | cons token body ih =>
    cases fore with
    | nil =>
      obtain ⟨rfl, -⟩ := List.cons.inj h
      exact absurd hline (hbody _ List.mem_cons_self)
    | cons other fore =>
      rw [List.forall_mem_cons] at hbody hfore
      exact ih hbody.2 hfore.2 (List.cons.inj h).2

theorem line_of_simple (h : Reads Rule.pattern (.rule .simpleStatements) tokens trees name rest) :
    ∃ body newline, leavesOf trees = body ++ [newline] ∧ (∀ token ∈ body, token.kind ≠ .newline)
      ∧ newline.kind = .newline := by
  cases h with
  | rule h =>
  cases h with
  | seq hbody hnewline =>
  cases hnewline with
  | @token _ newline _ hnewline =>
    refine ⟨_, newline, ?_, dry_of_reads hbody rfl, by simpa [Test.holds] using hnewline⟩
    rw [leavesOf_wrap, leavesOf_append]
    rfl

theorem lines_of_match (h : Reads Rule.pattern (.rule .matchBlock) tokens trees name rest) :
    ∃ fore line indent more, tokens = fore ++ line :: indent :: more
      ∧ (∀ token ∈ fore, token.kind ≠ .newline) ∧ line.kind = .newline ∧ indent.kind = .indent := by
  cases h with
  | rule h =>
  cases h with
  | seq h _ =>
  cases h with
  | seq h _ =>
  cases h with
  | seq h hindent =>
  cases h with
  | seq h hline =>
  cases hline with
  | @token _ line _ hline =>
  cases hindent with
  | @token _ indent _ hindent =>
    refine ⟨_, line, indent, _, (leavesOf_reads h).symm, dry_of_reads h rfl, ?_, ?_⟩
    · simpa [Test.holds] using hline
    · simpa [Test.holds] using hindent

/-- A line is no subject of cases where nothing further in stands behind it. -/
theorem match_failed {newline : Token} {body : List Token} (hbody : ∀ token ∈ body, token.kind ≠ .newline)
    (hnewline : newline.kind = .newline) (hsettled : Misses settledTests left) :
    Ends Rule.pattern (.rule .matchBlock) (body ++ newline :: left) .failed := by
  have hshallow : (Pattern.rule Rule.matchBlock).shallow = true := rfl
  obtain ⟨outcome, hends⟩ := exists_ends hshallow (body ++ newline :: left)
  cases outcome with
  | exhausted => exact absurd rfl hends.verdict
  | failed => exact hends
  | matched =>
    obtain ⟨fore, line, indent, more, heq, hfore, hline, hindent⟩ := lines_of_match hends.reads
    obtain rfl := tail_eq hbody hfore hnewline hline heq
    obtain ⟨token, hhead, htests⟩ := hsettled
    cases hhead
    have hnone := htests (.kind .indent) (by decide)
    simp [Test.holds, hindent] at hnone

def compoundTests : List Test :=
  [.text "async".toList, .text "def".toList, .text "class".toList, .text ['@'], .text "if".toList,
    .text "with".toList, .text "for".toList, .text "try".toList, .text "while".toList]

set_option maxRecDepth 20000 in
theorem carries_statement (h : Stacked fuel) : Carries fuel Settled (Rule.pattern .statement) := by
  have hcompound : Carries fuel Settled (.rule .compound) := h .compound rfl
  have hsimple : Carries fuel Settled (.rule .simpleStatements) := h.get .simpleStatements rfl fun _ _ _ => trivial
  have hmisses : Leads fuel Settled (.rule .simpleStatements) (Without compoundTests) :=
    leads_misses rfl rfl
  have hother : Leads fuel Settled (.rule .simpleStatements) fun _ twins =>
      Ends Rule.pattern (.rule .compound) twins .failed := by
    refine ⟨fun {_ others _ _ left} hturned hrun hsettled => ?_⟩
    have hfirst := hmisses.lead hturned hrun hsettled
    obtain ⟨body, newline, hleaves, hbody, hnewline⟩ :=
      line_of_simple (hsimple.carry hturned hrun hsettled).reads
    have hmatch : Ends Rule.pattern (.rule .matchBlock) (leavesOf others ++ left) .failed := by
      rw [hleaves, List.append_assoc]
      exact match_failed hbody hnewline hsettled
    have hno : ∀ {pattern : Pattern Rule}, pattern.beginsWith compoundTests = true →
        Ends Rule.pattern pattern (leavesOf others ++ left) .failed := fun hbegins => hfirst.fails hbegins
    exact .rule_failed <| (hno rfl).right <| (hno rfl).right <|
      (hno rfl).right <| (hno rfl).right <| (hno rfl).right <|
      (hno rfl).right <| (hno rfl).right <| (hno rfl).right hmatch
  exact (hcompound.alt hsimple hother).seq (.label _) (leads_label _)

set_option maxRecDepth 20000 in
theorem carries_statements (h : Stacked fuel) : Carries fuel Final (Rule.pattern .statements) := by
  have hstatement : Carries fuel Settled (.rule .statement) := h .statement rfl
  have hnext : Leads fuel Final (.many (.rule .statement)) Settled :=
    leads_many (leads_misses rfl rfl) fun _ _ hfinal => hfinal.misses (by decide)
  have hmany : Carries fuel Final (.many (.rule .statement)) := by
    exact .many hstatement (by decide) (fun _ _ hfinal => hfinal.fails rfl) hnext
  exact hstatement.seq hmany hnext

theorem stacked (fuel : Nat) : Stacked fuel := by
  induction fuel with
  | zero => exact fun rule _ => .zero _ _
  | succ fuel ih =>
    have hheaded : ∀ {first : Pattern Rule}, first.tame = true → first.opens = false →
        Carries fuel Anything (.seq first (.rule .block)) := carries_headed ih
    intro rule hrule
    cases rule with
    | statements => exact .rule (carries_statements ih)
    | statement => exact .rule (carries_statement ih)
    | simpleStatements => exact .rule (.before_line rfl rfl (.token _) rfl)
    | compound => exact .rule (carries_compound ih)
    | block => exact .rule (carries_block ih)
    | classDefinition => exact .rule (hheaded rfl rfl)
    | functionDefinition => exact .rule (hheaded rfl rfl)
    | conditionalStatement => exact .rule ((hheaded rfl rfl).followed (carries_elseIf ih))
    | elseIf => exact .rule ((hheaded rfl rfl).followed (carries_elseIf ih))
    | elseBlock => exact .rule (hheaded rfl rfl)
    | whileLoop => exact .rule ((hheaded rfl rfl).followed (carries_else ih))
    | forLoop => exact .rule ((hheaded rfl rfl).followed (carries_else ih))
    | withBlock => exact .rule (hheaded rfl rfl)
    | tryBlock => exact .rule (carries_try ih)
    | matchBlock => exact .rule (carries_match ih)
    | caseBlock => exact .rule (carries_case ih)
    | decorators => exact .rule carries_decorators
    | _ => cases hrule

/-! ### Modules -/

set_option maxRecDepth 20000 in
theorem carries_module (fuel : Nat) : Carries fuel Anything (Rule.pattern .module) := by
  have hstatements : Carries fuel Final (Pattern.maybe (Rule.ref .statements)) :=
    .maybe (stacked fuel .statements rfl) fun _ _ hfinal => hfinal.fails rfl
  have hfinish : Leads fuel Anything (.token (.kind .finish)) Final := by
    refine ⟨fun hturned hrun _ => ?_⟩
    obtain ⟨token, -, htest, rfl, rfl⟩ := exists_of_run_token hrun
    obtain rfl := hturned.turns.of_leaf
    exact ⟨token, rfl, .inr (by simpa [Test.holds] using htest)⟩
  exact hstatements.seq (.token _) hfinish

theorem exists_run_of_parse {module : Module} (h : parse tokens = some module) :
    ∃ fuel name, run Rule.pattern fuel (.rule .module) tokens = .matched module name [] := by
  unfold parse at h
  split at h
  next name hrun =>
    cases h
    exact ⟨_, name, hrun⟩
  · cases h

theorem parse_of_ends {module : Module} {name : Option Node}
    (h : Ends Rule.pattern (.rule .module) tokens (.matched module name [])) : parse tokens = some module := by
  have hverdict := run_ne_exhausted .module tokens
  unfold parse
  generalize hrun : run Rule.pattern (depthFor tokens.length) (.rule .module) tokens = outcome at hverdict
  rw [← h.unique (ends_of_run hrun hverdict)]

theorem parse_turned {module result : Module} (hparse : parse tokens = some module)
    (hturned : Turned module result) : parse (leavesOf result) = some result := by
  obtain ⟨fuel, name, hrun⟩ := exists_run_of_parse hparse
  rw [← leavesOf_of_parse hparse, ← List.append_nil (leavesOf module)] at hrun
  have hcarries : Carries (fuel + 1) Anything (.rule .module) := .rule (carries_module fuel)
  have hends : Ends Rule.pattern (.rule .module) (leavesOf result ++ []) (.matched result name []) :=
    hcarries.carry hturned (run_of_le hrun nofun (Nat.le_succ fuel)) trivial
  rw [List.append_nil] at hends
  exact parse_of_ends hends

end Bundler.Grammar
