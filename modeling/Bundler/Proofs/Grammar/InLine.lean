import Bundler.Proofs.Grammar.Varied

/-!
# What stands in a line

Every rule for what stands in a logical line reads a text alike before and after names have given way to names
and strings to strings (`tandem_inLine`). Some rules ask for a word that may be a name, such as `type` or the
letters of a conversion; what comes behind the name keeps these rules from reading it. Directly behind an
opening parenthesis a string may have lost its own: the rules that are tried there
(`Rule.mild`) read it with them and without, or not at all.
-/

namespace Bundler.Grammar

open Bundler.Source (Token TokenKind)

variable {fuel : Nat} {tokens twins rest left : List Token}

/-! ### Patterns -/

/-- The rule says what stands in a logical line. -/
def Rule.inLine : Rule → Bool
  | .module | .statements | .statement | .simpleStatements | .compound | .block | .classDefinition
  | .functionDefinition | .conditionalStatement | .elseIf | .elseBlock | .whileLoop | .forLoop | .withBlock
  | .tryBlock | .matchBlock | .caseBlock | .casePatterns | .casePattern | .closedPattern | .literalPattern
  | .starPattern | .sequenceItems | .classPattern | .mappingPattern | .decorators => false
  | _ => true

/-- The rule may be tried directly behind an opening parenthesis. -/
def Rule.mild (rule : Rule) : Bool :=
  ladder.contains rule || targets.contains rule || [Rule.call, .firstArgument, .positionalArgument,
    .keywordArgument, .starredArgument, .doubleStarredArgument, .arguments, .namedArguments,
    .yieldExpression, .lambda, .withItem, .parameters].contains rule

namespace Pattern

/-- The last token that the pattern reads may be an opening parenthesis. -/
def opens : Pattern Rule → Bool
  | .token test => test == .text ['(']
  | .seq first second => opens second || opens first && second.skips
  | .alt first second | .extend first second => opens first || opens second
  | .many item | .only _ item => opens item
  | .empty | .rule _ | .label _ | .peek _ | .absent _ => false

/-- The pattern may be tried directly behind an opening parenthesis. -/
def mild : Pattern Rule → Bool
  | .token test => test.mild
  | .seq first second => mild first && (!(opens first || first.skips) || mild second)
  | .alt first second => mild first && mild second
  | .many item | .peek item | .absent item => mild item
  | .rule name => name.mild
  | .empty | .label _ => true
  | .extend _ _ | .only _ _ => false

/-- The pattern is one token or another, or the end of the line. -/
def looks : Pattern Rule → Bool
  | .token test => test.steady || test == .kind .newline
  | .alt first second => looks first && looks second
  | _ => false

/-- The pattern reads what stands in a line, and behind an opening parenthesis it goes on with a pattern that
may be tried there. -/
def tame : Pattern Rule → Bool
  | .token test => test.steady
  | .seq first second => tame first && tame second && (!opens first || mild second)
  | .alt first second => tame first && tame second
  | .many item => tame item && !opens item
  | .peek item => tame item || looks item
  | .absent item => tame item
  | .rule name => name.inLine
  | .extend base tail => tame base && tame tail && !opens base && !opens tail
  | .only kinds item => tame item && !opens item && !kinds.contains .group
  | .empty | .label _ => true

end Pattern

def Rule.asksForWord (rule : Rule) : Bool := rule == .field || rule == .typeAlias

theorem tandem_looks {pattern : Pattern Rule} (hlooks : pattern.looks = true) :
    Tandem Rule.pattern fuel Varies pattern fun _ _ => True := by
  induction fuel generalizing pattern with
  | zero => exact .zero _ _ _
  | succ fuel ih =>
    cases pattern with
    | token test =>
      rw [Pattern.looks, Bool.or_eq_true, beq_iff_eq] at hlooks
      obtain hsteady | rfl := hlooks
      · exact (tandem_token hsteady).imp (fun _ _ h => h) fun _ _ _ => trivial
      · exact tandem_newline
    | alt first second =>
      rw [Pattern.looks, Bool.and_eq_true] at hlooks
      exact .alt (ih hlooks.1) (ih hlooks.2)
    | _ => cases hlooks

/-- Behind a parenthesis, a mild token is seen on neither side. -/
theorem tandem_looks_inside {pattern : Pattern Rule} (hlooks : pattern.looks = true)
    (hmild : pattern.mild = true) : Tandem Rule.pattern fuel Inside pattern fun _ _ => True := by
  induction fuel generalizing pattern with
  | zero => exact .zero _ _ _
  | succ fuel ih =>
    cases pattern with
    | token test => exact tandem_token_inside hmild _
    | alt first second =>
      rw [Pattern.looks, Bool.and_eq_true] at hlooks
      rw [Pattern.mild, Bool.and_eq_true] at hmild
      exact .alt (ih hlooks.1 hmild.1) (ih hlooks.2 hmild.2)
    | _ => cases hlooks

theorem Rule.opens_pattern (rule : Rule) : rule.inLine = true → rule.pattern.opens = false := by
  cases rule <;> decide

theorem Rule.tame_pattern (rule : Rule) :
    rule.inLine = true → rule.asksForWord = false → rule.pattern.tame = true := by
  cases rule <;> decide

theorem Rule.mild_pattern (rule : Rule) :
    rule.mild = true → rule ∈ ladder ∨ rule ∈ targets ∨ rule.pattern.mild = true := by
  cases rule <;> decide

theorem Rule.not_mild (rule : Rule) : rule.asksForWord = true → rule.mild = false := by
  cases rule <;> decide

/-! ### The rules that read both sides alike -/

variable {pattern first second item : Pattern Rule}

/-- What holds of patterns at this depth and below. -/
structure Alongside (fuel : Nat) : Prop where
  varies : ∀ less ≤ fuel, ∀ pattern : Pattern Rule, pattern.tame = true →
    Tandem Rule.pattern less Varies pattern (Near pattern.opens)
  inside : ∀ less ≤ fuel, ∀ pattern : Pattern Rule, pattern.tame = true → pattern.mild = true →
    Tandem Rule.pattern less Inside pattern (Near (pattern.opens || pattern.skips))

namespace Alongside

theorem near (h : Alongside fuel) {less : Nat} (hless : less ≤ fuel) {inside wide : Bool}
    (htame : pattern.tame = true) (hmild : inside = true → pattern.mild = true)
    (hwide : (pattern.opens || inside && pattern.skips) = true → wide = true) :
    Tandem Rule.pattern less (Near inside) pattern (Near wide) := by
  have hvaries : Tandem Rule.pattern less Varies pattern (Near wide) :=
    (h.varies less hless pattern htame).imp (fun _ _ h => h) fun _ _ hnear =>
      hnear.mono fun hopens => hwide (by simp [hopens])
  cases inside with
  | false => exact hvaries.imp (fun _ _ h => near_false.1 h) fun _ _ h => h
  | true =>
    have hinside : Tandem Rule.pattern less Inside pattern (Near wide) :=
      (h.inside less hless pattern htame (hmild rfl)).imp (fun _ _ h => h) fun _ _ hnear =>
        hnear.mono fun hskips => hwide (by simpa using hskips)
    exact (hvaries.or hinside).imp (fun _ _ h => h.imp_right And.right) fun _ _ h => h

theorem closed (h : Alongside fuel) {less : Nat} (hless : less ≤ fuel) (htame : pattern.tame = true)
    (hopens : pattern.opens = false) : Tandem Rule.pattern less Varies pattern Varies :=
  (h.varies less hless pattern htame).imp (fun _ _ h => h) fun _ _ hnear => near_false.1 (hopens ▸ hnear)

end Alongside

/-! ### Directly behind a parenthesis -/

/-- A string is read with its parentheses and without. -/
theorem tandem_ladder {rule : Rule} (hrule : rule ∈ ladder) (inside : Bool) :
    Tandem Rule.pattern fuel Inside (.rule rule) (Near inside) := by
  have htakes : ∀ {tokens twins}, Inside tokens twins → ∃ value twin rest left,
      Rule.Takes rule tokens value rest ∧ Rule.Takes rule twins (.leaf twin) left
        ∧ Resemble [value] [.leaf twin] ∧ Varies rest left := by
    rintro tokens twins ⟨hloses, hrest⟩
    obtain ⟨⟨value, hvalue⟩, hliteral, htwin, hcloser⟩ := hloses
    refine ⟨value, _, _, _, hvalue.takes hliteral hcloser rule hrule,
      (Enclosed.bare _).takes htwin hcloser rule hrule, ?_, .kept (fun _ _ => rfl) hrest⟩
    cases hvalue with
    | bare => exact .leaf (htwin.trans hliteral.symm) .nil
    | parens hopening => exact .bare _ (by simp [hopening.1]) htwin .nil
  refine ⟨fun hsides hrun => ?_, fun hsides hrun => ?_⟩
  · obtain ⟨value, twin, rest, left, hends, hends', hresemble, hleft⟩ := htakes hsides
    cases hends.unique (ends_of_run hrun nofun)
    exact ⟨_, left, hends', hresemble, hleft.near⟩
  · obtain ⟨value, twin, rest, left, hends, -⟩ := htakes hsides
    cases hends.unique (ends_of_run hrun nofun)

/-- A string is no target, with its parentheses or without. -/
theorem tandem_targets {rule : Rule} (hrule : rule ∈ targets) (after : Sides) :
    Tandem Rule.pattern fuel Inside (.rule rule) after := by
  refine ⟨fun hsides hrun => ?_, fun hsides hrun => ?_⟩
  · obtain ⟨⟨⟨value, hvalue⟩, hliteral, -, hcloser⟩, -⟩ := hsides
    cases (hvalue.no_target hliteral hcloser rule hrule).unique (ends_of_run hrun nofun)
  · obtain ⟨⟨-, -, htwin, hcloser⟩, -⟩ := hsides
    exact (Enclosed.bare _).no_target htwin hcloser rule hrule

/-! ### The words that may be names -/

/-- Where a name comes behind a word, the word is no name that gives way. -/
theorem Varies.of_word {token twin : Token} {word : String} (h : Varies (token :: rest) (twin :: left))
    (hword : word ≠ "(")
    (htext : (Test.text word.toList).holds token = true ∨ (Test.text word.toList).holds twin = true)
    (hname : (∃ next, rest.head? = some next ∧ Test.identifier.holds next = true)
      ∨ ∃ next, left.head? = some next ∧ Test.identifier.holds next = true) :
    Token.Same token twin ∧ Varies rest left := by
  cases h with
  | kept hsame hrest => exact ⟨hsame, hrest⟩
  | line htoken htwin => simp [Test.holds, htoken, htwin] at htext
  | name _ _ hnext hother =>
    have hnone := hnext .identifier (by simp)
    have hnone' := hother .identifier (by simp)
    simp [hnone, hnone'] at hname
  | parens hopening =>
    rw [or_self] at htext
    have hmem := hopening.passes _ htext
    simp only [List.mem_cons, Test.text.injEq, reduceCtorEq, List.not_mem_nil, or_false] at hmem
    exact absurd (String.ext hmem) hword

/-- A type alias begins with a word that is no name here, as another name comes behind it. -/
theorem tandem_alias :
    Tandem Rule.pattern fuel Varies (.seq (Rule.tok "type") Rule.name) Varies where
  matched {tokens twins trees name rest} hsides hrun := by
    cases reads_of_run hrun with
    | seq hfirst hsecond =>
    cases hfirst with
    | @token _ word _ hword =>
    cases hsecond with
    | @token _ next rest hnext =>
    obtain ⟨twin, htwin⟩ : ∃ twin, twins.head? = some twin := by
      cases hsides <;> simp
    obtain ⟨left, rfl⟩ := List.head?_eq_some_iff.1 htwin
    obtain ⟨hsame, hrest⟩ := hsides.of_word (by decide) (.inl hword) (.inl ⟨next, rfl, hnext⟩)
    obtain ⟨other, last, rfl, hother, hkind, hlast⟩ := hrest.taken rfl hnext
    exact ⟨_, last, (Ends.token ((hsame _ trivial).trans hword)).seq (.token hother),
      .leaf hsame.kind (.leaf hkind .nil), near_false.1 hlast⟩
  failed {tokens twins} hsides hrun := by
    have hshallow : Pattern.shallow (.seq (Rule.tok "type") Rule.name) = true := rfl
    obtain ⟨outcome, hends⟩ := exists_ends hshallow twins
    cases outcome with
    | exhausted => exact absurd rfl hends.verdict
    | failed => exact hends
    | matched =>
      cases hends.reads with
      | seq hfirst hsecond =>
      cases hfirst with
      | @token _ word _ hword =>
      cases hsecond with
      | @token _ next _ hnext =>
      obtain ⟨token, htoken⟩ : ∃ token, tokens.head? = some token := by
        cases hsides <;> simp
      obtain ⟨rest, rfl⟩ := List.head?_eq_some_iff.1 htoken
      obtain ⟨hsame, hrest⟩ := hsides.of_word (by decide) (.inr hword) (.inr ⟨next, rfl, hnext⟩)
      obtain ⟨other, hother, hname⟩ := (hrest.head_iff rfl).2 ⟨next, rfl, hnext⟩
      obtain ⟨last, rfl⟩ := List.head?_eq_some_iff.1 hother
      have hmatched : Ends Rule.pattern (.seq (Rule.tok "type") Rule.name) (token :: other :: last)
          (.matched [.leaf token, .leaf other] none last) :=
        (Ends.token ((hsame _ trivial).symm.trans hword)).seq (Ends.token hname)
      cases hmatched.unique (ends_of_run hrun nofun)

/-- Behind the mark of a conversion stands a name that gives way. -/
def Spoilt (tokens : List Token) : Prop :=
  ∃ mark name next rest, tokens = mark :: name :: next :: rest
    ∧ (Test.text ['!']).holds mark = true ∧ Token.Bars next

def Rule.conversion : Pattern Rule := tok "!" ++ oneOf ["r", "s", "a"]

/-- What stands behind the value of a field up to its conversion. -/
def Rule.valued : Pattern Rule := tok "\x7b" ++ yieldOrExpressions ++ Pattern.maybe (tok "=")

def Rule.format : Pattern Rule := tok ":" ++ ref .fieldSpec

/-- A field is not read where its conversion is spoilt. -/
theorem Spoilt.field_failed {trees : List Tree} {name : Option Node} (h : Spoilt rest)
    (hvalue : Ends Rule.pattern Rule.valued tokens (.matched trees name rest)) :
    Ends Rule.pattern (Rule.pattern .field) tokens .failed := by
  obtain ⟨mark, word, next, left, rfl, hmark, hnext⟩ := h
  have hstop : ∀ {last tail trees name}, (∀ sign ∈ [":", "\x7d"], (Test.text sign.toList).holds last = false) →
      Ends Rule.pattern (Pattern.maybe Rule.conversion) (mark :: word :: next :: left)
        (.matched trees name (last :: tail)) →
      Ends Rule.pattern (Rule.pattern .field) tokens .failed := by
    intro last tail trees name hlast hends
    have hno : ∀ sign ∈ [":", "\x7d"], Ends Rule.pattern (Rule.tok sign) (last :: tail) .failed := by
      intro sign hsign
      refine .token_failed fun token htoken => ?_
      cases htoken
      exact hlast sign hsign
    exact ((hvalue.seq hends).without ((hno ":" (by simp)).seq_failed _)).seq_failed_behind (hno "\x7d" (by simp))
  have hshallow : Rule.conversion.shallow = true := rfl
  obtain ⟨outcome, hends⟩ := exists_ends hshallow (mark :: word :: next :: left)
  cases outcome with
  | exhausted => exact absurd rfl hends.verdict
  | failed =>
    refine hstop (fun sign hsign => ?_) (hends.right .empty)
    simp only [Test.holds, Bool.and_eq_true, beq_iff_eq] at hmark
    simp only [List.mem_cons, List.not_mem_nil, or_false] at hsign
    obtain rfl | rfl := hsign <;> simp [Test.holds, hmark.2]
  | matched trees name last =>
    have hlast : last = next :: left := by
      have hletter : ∀ {tokens trees name}, Reads Rule.pattern (Rule.oneOf ["r", "s", "a"]) tokens trees name last →
          ∃ letter, tokens = letter :: last := by
        intro tokens trees name h
        cases h with
        | left _ h =>
          cases h
          exact ⟨_, rfl⟩
        | right _ h =>
        cases h with
        | left _ h =>
          cases h
          exact ⟨_, rfl⟩
        | right _ h =>
          cases h
          exact ⟨_, rfl⟩
      cases hends.reads with
      | seq hfirst hsecond =>
      cases hfirst with
      | token =>
      obtain ⟨letter, heq⟩ := hletter hsecond
      cases heq
      rfl
    subst hlast
    refine hstop (fun sign hsign => ?_) (hends.left _)
    simp only [List.mem_cons, List.not_mem_nil, or_false] at hsign
    obtain rfl | rfl := hsign
    · exact hnext (.text [':']) (by simp)
    · exact hnext (.text ['\x7d']) (by simp)

/-- No name gives way at the head of what is read. -/
def Sharp : Sides := fun tokens twins =>
  Varies tokens twins ∧ ¬∃ token next rest twin other left, tokens = token :: next :: rest
    ∧ twins = twin :: other :: left ∧ Token.Bars next ∧ Token.Bars other

/-- The conversion at the head of what is read, if any, is not spoilt. -/
def Clear : Sides := fun tokens twins => Varies tokens twins ∧ ¬(Spoilt tokens ∧ Spoilt twins)

/-- Where no name gives way, any word but a parenthesis is read on both sides. -/
theorem tandem_letter {text : List Char} (htext : text ≠ ['(']) :
    Tandem Rule.pattern fuel Sharp (.token (.text text)) Varies := by
  have hparen : ∀ {token : Token}, Token.IsSign "(" token → (Test.text text).holds token = false := by
    intro token h
    rw [Bool.eq_false_iff]
    intro htest
    have hmem := h.passes _ htest
    simp only [List.mem_cons, Test.text.injEq, reduceCtorEq, List.not_mem_nil, or_false] at hmem
    exact htext hmem
  refine .token (fun token rest twins hsides htest => ?_) fun tokens twin left hsides htest => ?_ <;>
    obtain ⟨hsides, hsharp⟩ := hsides
  · cases hsides with
    | kept hsame hrest => exact ⟨_, _, rfl, by rw [hsame _ trivial, htest], hsame.kind, hrest⟩
    | line htoken => simp [Test.holds, htoken] at htest
    | name _ _ hnext hother => exact absurd ⟨_, _, _, _, _, _, rfl, rfl, hnext, hother⟩ hsharp
    | parens hopening => simp [hparen hopening] at htest
  · cases hsides with
    | kept hsame => exact ⟨_, _, rfl, by rw [← hsame _ trivial, htest]⟩
    | line _ htwin => simp [Test.holds, htwin] at htest
    | name _ _ hnext hother => exact absurd ⟨_, _, _, _, _, _, rfl, rfl, hnext, hother⟩ hsharp
    | parens hopening => simp [hparen hopening] at htest

theorem tandem_mark : Tandem Rule.pattern fuel Clear (Rule.tok "!") Sharp := by
  refine .token (fun mark rest twins hsides htest => ?_) fun tokens twin left hsides htest => ?_
  · obtain ⟨twin, left, rfl, htwin, hkind, hrest⟩ := hsides.1.taken rfl htest
    refine ⟨twin, left, rfl, htwin, hkind, near_false.1 hrest, ?_⟩
    rintro ⟨token, next, last, word, other, past, rfl, rfl, hnext, hother⟩
    exact hsides.2 ⟨⟨mark, token, next, last, rfl, htest, hnext⟩, twin, word, other, past, rfl, htwin, hother⟩
  · obtain ⟨token, hhead, htoken⟩ := (hsides.1.head_iff rfl).2 ⟨twin, rfl, htest⟩
    obtain ⟨rest, rfl⟩ := List.head?_eq_some_iff.1 hhead
    exact ⟨token, rest, rfl, htoken⟩

theorem tandem_conversion : Tandem Rule.pattern fuel Clear Rule.conversion Varies := by
  have hletter : ∀ {text : List Char}, text ≠ ['('] →
      Tandem Rule.pattern fuel Sharp (.token (.text text)) Varies := tandem_letter
  have hletters : Tandem Rule.pattern fuel Sharp (Rule.oneOf ["r", "s", "a"]) Varies :=
    (Tandem.alt (hletter (by decide)) (Tandem.alt (hletter (by decide)) (hletter (by decide))).less).less
  exact (tandem_mark.seq hletters).less

/-- A field whose conversion is spoilt on one side is read on neither. -/
theorem tandem_field (h : Alongside fuel) : Tandem Rule.pattern fuel Varies (Rule.pattern .field) Varies := by
  have hvalued : Tandem Rule.pattern fuel Varies Rule.valued Varies :=
    h.closed (Nat.le_refl _) rfl rfl
  let spoilt : Sides := fun tokens twins => ∃ trees name rest others later left,
    run Rule.pattern fuel Rule.valued tokens = .matched trees name rest
      ∧ Ends Rule.pattern Rule.valued twins (.matched others later left) ∧ Spoilt rest ∧ Spoilt left
  let clear : Sides := fun tokens twins => Varies tokens twins ∧ ¬spoilt tokens twins
  have hcases : ∀ tokens twins, Varies tokens twins → clear tokens twins ∨ spoilt tokens twins := by
    intro tokens twins hsides
    by_cases hspoilt : spoilt tokens twins
    · exact .inr hspoilt
    · exact .inl ⟨hsides, hspoilt⟩
  have hvalued' : Tandem Rule.pattern fuel clear Rule.valued Clear := by
    refine ⟨fun hsides hrun => ?_, fun hsides hrun => hvalued.failed hsides.1 hrun⟩
    obtain ⟨others, left, hends, hresemble, hleft⟩ := hvalued.matched hsides.1 hrun
    exact ⟨others, left, hends, hresemble, hleft,
      fun hboth => hsides.2 ⟨_, _, _, _, _, _, hrun, hends, hboth⟩⟩
  have hconversion : Tandem Rule.pattern fuel Clear (Pattern.maybe Rule.conversion) Varies :=
    (tandem_conversion.alt (Tandem.empty.imp (fun _ _ h => h) fun _ _ h => h.1)).less
  have hformat : Tandem Rule.pattern fuel Varies (Pattern.maybe Rule.format) Varies :=
    h.closed (Nat.le_refl _) rfl rfl
  have hclose : Tandem Rule.pattern fuel Varies (Rule.tok "\x7d") Varies :=
    h.closed (Nat.le_refl _) rfl rfl
  have hclear : Tandem Rule.pattern fuel clear (Rule.pattern .field) Varies :=
    ((((hvalued'.seq hconversion).less.seq hformat).less).seq hclose).less
  have hspoilt : Tandem Rule.pattern fuel spoilt (Rule.pattern .field) Varies := by
    refine ⟨?_, ?_⟩
    · rintro tokens twins trees name rest ⟨_, _, _, _, _, _, hvalue, -, hrest, -⟩ hrun
      cases (hrest.field_failed (ends_of_run hvalue nofun)).unique (ends_of_run hrun nofun)
    · rintro tokens twins ⟨_, _, _, _, _, _, -, hends, -, hleft⟩ -
      exact hleft.field_failed hends
  exact (hclear.or hspoilt).imp hcases fun _ _ h => h

/-! ### Every rule for what stands in a line -/

theorem tandem_word (h : Alongside fuel) {rule : Rule} (hword : rule.asksForWord = true) :
    Tandem Rule.pattern (fuel + 1) Varies (.rule rule) Varies := by
  refine .rule ?_
  cases rule with
  | field => exact tandem_field h
  | typeAlias =>
    have hclosed : ∀ {pattern : Pattern Rule}, pattern.tame = true → pattern.opens = false →
        Tandem Rule.pattern fuel Varies pattern Varies := h.closed (Nat.le_refl _)
    have hparameters : Tandem Rule.pattern fuel Varies (Pattern.maybe (Rule.ref .typeParameters)) Varies :=
      hclosed rfl rfl
    have hequals : Tandem Rule.pattern fuel Varies (Rule.tok "=") Varies := hclosed rfl rfl
    have hvalue : Tandem Rule.pattern fuel Varies (Rule.ref .expression) Varies :=
      hclosed rfl rfl
    exact (((tandem_alias.seq hparameters).less.seq hequals).less.seq hvalue).less
  | _ => cases hword

theorem Alongside.varies_succ (h : Alongside fuel) (htame : pattern.tame = true) :
    Tandem Rule.pattern (fuel + 1) Varies pattern (Near pattern.opens) := by
  have hself := Nat.le_refl fuel
  cases pattern with
  | empty => exact Tandem.empty.imp (fun _ _ h => h) fun _ _ h => h.near
  | label kind => exact (Tandem.label kind).imp (fun _ _ h => h) fun _ _ h => h.near
  | token test => exact tandem_token htame
  | seq first second =>
    simp only [Pattern.tame, Bool.and_eq_true, Bool.or_eq_true, Bool.not_eq_true'] at htame
    obtain ⟨⟨hfirst, hsecond⟩, hmild⟩ := htame
    refine (h.varies fuel hself first hfirst).seq (h.near hself hsecond (fun hopens => ?_) id)
    exact hmild.resolve_left (by simp [hopens])
  | alt first second =>
    rw [Pattern.tame, Bool.and_eq_true] at htame
    refine .alt ((h.varies fuel hself first htame.1).imp (fun _ _ h => h) fun _ _ hnear => ?_)
      ((h.varies fuel hself second htame.2).imp (fun _ _ h => h) fun _ _ hnear => ?_)
    · exact hnear.mono fun hopens => by simp [Pattern.opens, hopens]
    · exact hnear.mono fun hopens => by simp [Pattern.opens, hopens]
  | many item =>
    simp only [Pattern.tame, Bool.and_eq_true, Bool.not_eq_true'] at htame
    exact (Tandem.many fun less hless => h.closed hless htame.1 htame.2).imp (fun _ _ h => h)
      fun _ _ h => h.near
  | peek item =>
    rw [Pattern.tame, Bool.or_eq_true] at htame
    obtain htame | hlooks := htame
    · exact (h.varies fuel hself item htame).peek.imp (fun _ _ h => h) fun _ _ h => h.near
    · exact (tandem_looks hlooks).peek.imp (fun _ _ h => h) fun _ _ h => h.near
  | absent item =>
    exact (h.varies fuel hself item htame).absent.imp (fun _ _ h => h) fun _ _ h => h.near
  | rule name =>
    refine Tandem.imp ?_ (fun _ _ h => h) fun _ _ h => Varies.near h
    cases hword : name.asksForWord with
    | true => exact tandem_word h hword
    | false => exact .rule (h.closed hself (name.tame_pattern htame hword) (name.opens_pattern htame))
  | extend base tail =>
    simp only [Pattern.tame, Bool.and_eq_true, Bool.not_eq_true'] at htame
    obtain ⟨⟨⟨hbase, htail⟩, hopens⟩, hopens'⟩ := htame
    exact (Tandem.extend (h.closed hself hbase hopens) fun less hless =>
      h.closed hless htail hopens').imp (fun _ _ h => h) fun _ _ h => h.near
  | only kinds item =>
    simp only [Pattern.tame, Bool.and_eq_true, Bool.not_eq_true', Bool.eq_false_iff, ne_eq,
      List.contains_iff_mem] at htame
    exact (Tandem.only htame.2 (h.closed hself htame.1.1 (Bool.eq_false_iff.2 htame.1.2))).imp
      (fun _ _ h => h) fun _ _ h => h.near

theorem Alongside.inside_succ (h : Alongside fuel) (htame : pattern.tame = true)
    (hmild : pattern.mild = true) :
    Tandem Rule.pattern (fuel + 1) Inside pattern (Near (pattern.opens || pattern.skips)) := by
  have hself := Nat.le_refl fuel
  have hstay : ∀ tokens twins, Inside tokens twins → Near true tokens twins := fun _ _ h => .inr ⟨rfl, h⟩
  cases pattern with
  | empty => exact Tandem.empty.imp (fun _ _ h => h) hstay
  | label kind => exact (Tandem.label kind).imp (fun _ _ h => h) hstay
  | token test => exact tandem_token_inside hmild _
  | seq first second =>
    simp only [Pattern.tame, Bool.and_eq_true] at htame
    simp only [Pattern.mild, Bool.and_eq_true, Bool.or_eq_true, Bool.not_eq_true'] at hmild
    refine (h.inside fuel hself first htame.1.1 hmild.1).seq
      (h.near hself htame.1.2 (fun hnear => hmild.2.resolve_left (by simp [hnear])) fun hwide => ?_)
    revert hwide
    simp only [Pattern.opens, Pattern.skips]
    cases first.opens <;> cases first.skips <;> cases second.opens <;> simp
  | alt first second =>
    rw [Pattern.tame, Bool.and_eq_true] at htame
    rw [Pattern.mild, Bool.and_eq_true] at hmild
    refine .alt ((h.inside fuel hself first htame.1 hmild.1).imp (fun _ _ h => h) fun _ _ hnear => ?_)
      ((h.inside fuel hself second htame.2 hmild.2).imp (fun _ _ h => h) fun _ _ hnear => ?_)
    · refine hnear.mono fun hwide => ?_
      simp only [Pattern.opens, Pattern.skips, Bool.or_eq_true] at hwide ⊢
      tauto
    · refine hnear.mono fun hwide => ?_
      simp only [Pattern.opens, Pattern.skips, Bool.or_eq_true] at hwide ⊢
      tauto
  | many item =>
    simp only [Pattern.tame, Bool.and_eq_true] at htame
    have hitem : ∀ less ≤ fuel, Tandem Rule.pattern less (Near true) item (Near true) := fun less hless =>
      h.near hless htame.1 (fun _ => hmild) fun _ => rfl
    exact (Tandem.many hitem).imp hstay fun _ _ h => h.mono fun _ => by simp [Pattern.skips]
  | peek item =>
    rw [Pattern.tame, Bool.or_eq_true] at htame
    obtain htame | hlooks := htame
    · exact (h.inside fuel hself item htame hmild).peek.imp (fun _ _ h => h) hstay
    · exact (tandem_looks_inside hlooks hmild).peek.imp (fun _ _ h => h) hstay
  | absent item => exact (h.inside fuel hself item htame hmild).absent.imp (fun _ _ h => h) hstay
  | rule name =>
    obtain hladder | htarget | hpattern := name.mild_pattern hmild
    · exact tandem_ladder hladder _
    · exact tandem_targets htarget _
    · have hword : name.asksForWord = false := by
        rw [Bool.eq_false_iff]
        exact fun hword => Bool.false_ne_true ((name.not_mild hword).symm.trans hmild)
      refine .rule ((h.inside fuel hself _ (name.tame_pattern htame hword) hpattern).imp (fun _ _ h => h)
        fun _ _ hnear => hnear.mono fun hwide => ?_)
      rw [name.opens_pattern htame, Bool.false_or] at hwide
      rwa [Pattern.opens, Bool.false_or, Pattern.skips, ← name.skips_pattern]
  | extend base tail => cases hmild
  | only kinds item => cases hmild

theorem alongside (fuel : Nat) : Alongside fuel := by
  induction fuel with
  | zero =>
    refine ⟨fun less hless pattern _ => ?_, fun less hless pattern _ _ => ?_⟩ <;>
    · obtain rfl := Nat.le_zero.1 hless
      exact .zero _ _ _
  | succ fuel ih =>
    refine ⟨fun less hless pattern htame => ?_, fun less hless pattern htame hmild => ?_⟩ <;>
      obtain hless | rfl := Nat.le_succ_iff.1 hless
    · exact ih.varies less hless pattern htame
    · exact ih.varies_succ htame
    · exact ih.inside less hless pattern htame hmild
    · exact ih.inside_succ htame hmild

/-- A pattern for what stands in a line reads both sides alike. -/
theorem tandem_inLine (htame : pattern.tame = true) (hopens : pattern.opens = false) :
    Tandem Rule.pattern fuel Varies pattern Varies :=
  (alongside fuel).closed (Nat.le_refl _) htame hopens

/-- What is known to resemble what was read is what is read on the other side. -/
theorem Ends.varied {trees others : List Tree} {name : Option Node}
    (h : Ends Rule.pattern pattern (leavesOf trees ++ rest) (.matched trees name rest))
    (htame : pattern.tame = true) (hopens : pattern.opens = false) (hresemble : Resemble trees others)
    (hsides : Varies (leavesOf trees ++ rest) (leavesOf others ++ left)) :
    Ends Rule.pattern pattern (leavesOf others ++ left) (.matched others name left) ∧ Varies rest left := by
  obtain ⟨-, fuel, hrun⟩ := h
  obtain ⟨more, last, hends, hmore, hlast⟩ := (tandem_inLine htame hopens).matched hsides hrun
  obtain ⟨rfl, rfl⟩ := hresemble.unique hmore hends.tokens_eq.symm
  exact ⟨hends, hlast⟩

end Bundler.Grammar
