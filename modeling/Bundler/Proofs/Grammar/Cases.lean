import Bundler.Proofs.Grammar.Called
import Bundler.Proofs.Grammar.Turned

/-!
# The patterns of a case

In front of the colon or the guard of a case nothing gives way but what stands in a formatted string
(`Calm`): a call has no place there. So the patterns are read alike though they ask for a word that may
be a name (`Turns.reads_case`). Colons stand in them only between braces, whose depth is counted.
-/

namespace Bundler.Grammar

open Bundler.Source (Token TokenKind)

variable {fuel depth : Nat} {deep : Bool} {tokens twins rest left : List Token} {trees others : List Tree}
  {test : Test} {pattern : Pattern Rule}

/-! ### The relation -/

/-- A name is spelt as one. -/
def Token.Proper (token : Token) : Prop := token.kind = .name → Text.isIdentifier token.text = true

theorem Token.Proper.isSign {token : Token} {sign : String} (h : Token.Proper token)
    (hholds : (Test.text sign.toList).holds token = true) (hsign : Text.isIdentifier sign.toList = false) :
    Token.IsSign sign token := by
  rw [Test.holds, Bool.and_eq_true, Bool.or_eq_true, beq_iff_eq, beq_iff_eq, beq_iff_eq] at hholds
  refine ⟨hholds.1.resolve_left fun hkind => ?_, hholds.2⟩
  have hname := h hkind
  rw [hholds.2, hsign] at hname
  cases hname

/-- The tests of what may follow the patterns of a case. -/
def edgeTests : List Test := [.text [':'], .text ['i', 'f'], .kind .operator, .kind .name]

/-- The patterns of a case, this deep in braces: nothing gives way but what stands in a formatted string. -/
inductive Calm : Nat → Sides
  | edge {token twin : Token} {rest left : List Token} (htoken : Token.Passes token edgeTests)
      (htwin : Token.Passes twin edgeTests) (h : Varies (token :: rest) (twin :: left)) :
    Calm 0 (token :: rest) (twin :: left)
  | kept {depth : Nat} {token : Token} {rest left : List Token} (hstart : token.kind ≠ .formatStart)
      (hbrace : ∀ brace ∈ [['\x7b'], ['\x7d']], (Test.text brace).holds token = false)
      (hrest : Calm depth rest left) : Calm depth (token :: rest) (token :: left)
  | opened {depth : Nat} {token : Token} {rest left : List Token} (htoken : Token.IsSign "\x7b" token)
      (hrest : Calm (depth + 1) rest left) : Calm depth (token :: rest) (token :: left)
  | closed {depth : Nat} {token : Token} {rest left : List Token} (htoken : Token.IsSign "\x7d" token)
      (hrest : Calm depth rest left) : Calm (depth + 1) (token :: rest) (token :: left)
  | formatted {depth : Nat} (kind : Node) {start : Token} {children more : List Tree}
      {rest left : List Token} (hstart : start.kind = .formatStart)
      (hends : Ends Rule.pattern (.rule .formattedString) (start :: (leavesOf children ++ rest))
        (.matched [.node kind (.leaf start :: children)] none rest))
      (hturns : Turns children more) (hrest : Calm depth rest left) :
    Calm depth (start :: (leavesOf children ++ rest)) (start :: (leavesOf more ++ left))

theorem Calm.varies (h : Calm depth tokens twins) : Varies tokens twins := by
  induction h with
  | edge _ _ h => exact h
  | kept _ _ _ ih => exact .kept (fun _ _ => rfl) ih
  | opened _ _ ih => exact .kept (fun _ _ => rfl) ih
  | closed _ _ ih => exact .kept (fun _ _ => rfl) ih
  | formatted _ _ _ hturns _ ih => exact .kept (fun _ _ => rfl) (hturns.varies ih)

/-! ### Reading in tandem -/

/-- The patterns of a case make the test at places of this kind, and go on at such a place. -/
def Test.calm (deep : Bool) : Test → Bool
  | .text word => !List.contains [[':'], ['i', 'f'], ['\x7b'], ['\x7d']] word || deep && word == [':']
  | .kind wanted => !List.contains [.operator, .name, .formatStart] wanted
  | .plainFormat | .templateFormat => false
  | .identifier | .realNumber | .imaginaryNumber => true

/-- The rule says what stands in the patterns of a case. -/
def Rule.inCase : Rule → Bool
  | .casePatterns | .casePattern | .closedPattern | .literalPattern | .starPattern | .sequenceItems
  | .classPattern | .mappingPattern | .strings | .formattedString => true
  | _ => false

/-- The pattern reads what stands in the patterns of a case, with colons or without. -/
def Pattern.calm (deep : Bool) : Pattern Rule → Bool
  | .token test => test.calm deep
  | .seq first second | .alt first second => calm deep first && calm deep second
  | .many item | .peek item | .absent item => calm deep item
  | .rule name => name.inCase
  | .empty | .label _ => true
  | .extend _ _ | .only _ _ => false

def Rule.isMarked (rule : Rule) : Bool := rule == .mappingPattern || rule == .formattedString

theorem Rule.calm_pattern (rule : Rule) :
    rule.inCase = true → rule.isMarked = false → rule.pattern.calm false = true := by
  cases rule <;> decide

theorem holds_of_edge {token : Token} (htoken : Token.Passes token edgeTests)
    (hcalm : test.calm false = true) : test.holds token = false := by
  rw [Bool.eq_false_iff]
  intro htest
  have hmem := htoken test htest
  simp only [edgeTests, List.mem_cons, List.not_mem_nil, or_false] at hmem
  rcases hmem with rfl | rfl | rfl | rfl <;> cases hcalm

theorem holds_of_brace {token : Token}
    (htoken : Token.IsSign "\x7b" token ∨ Token.IsSign "\x7d" token) (hcalm : test.calm deep = true) :
    test.holds token = false := by
  rw [Bool.eq_false_iff]
  intro htest
  have hmem : test ∈ [.text ['\x7b'], .text ['\x7d'], .kind .operator] := by
    rcases htoken with h | h
    · exact h.passes.mono (by simp) test htest
    · exact h.passes.mono (by simp) test htest
  simp only [List.mem_cons, List.not_mem_nil, or_false] at hmem
  rcases hmem with rfl | rfl | rfl <;> cases deep <;> cases hcalm

theorem holds_of_start {token : Token} (htoken : token.kind = .formatStart)
    (hcalm : test.calm deep = true) : test.holds token = false := by
  cases test with
  | plainFormat => cases hcalm
  | templateFormat => cases hcalm
  | kind wanted =>
    rw [Bool.eq_false_iff]
    intro htest
    rw [Test.holds, beq_iff_eq, htoken] at htest
    subst htest
    cases hcalm
  | _ => simp [Test.holds, htoken]

theorem Calm.tandem_token (hcalm : test.calm deep = true) (hdeep : deep = true → 0 < depth) :
    Tandem Rule.pattern fuel (Calm depth) (.token test) (Calm depth) := by
  refine .token (fun token rest twins hsides htest => ?_) fun tokens twin left hsides htest => ?_
  · cases hsides with
    | edge htoken =>
      obtain rfl : deep = false := Bool.eq_false_iff.2 fun h => absurd (hdeep h) (Nat.lt_irrefl 0)
      simp [holds_of_edge htoken hcalm] at htest
    | kept _ _ hrest => exact ⟨_, _, rfl, htest, rfl, hrest⟩
    | opened htoken => simp [holds_of_brace (.inl htoken) hcalm] at htest
    | closed htoken => simp [holds_of_brace (.inr htoken) hcalm] at htest
    | formatted _ hstart => simp [holds_of_start hstart hcalm] at htest
  · cases hsides with
    | edge _ htwin =>
      obtain rfl : deep = false := Bool.eq_false_iff.2 fun h => absurd (hdeep h) (Nat.lt_irrefl 0)
      simp [holds_of_edge htwin hcalm] at htest
    | kept => exact ⟨_, _, rfl, htest⟩
    | opened htoken => simp [holds_of_brace (.inl htoken) hcalm] at htest
    | closed htoken => simp [holds_of_brace (.inr htoken) hcalm] at htest
    | formatted _ hstart => simp [holds_of_start hstart hcalm] at htest

theorem Calm.tandem_opening :
    Tandem Rule.pattern fuel (Calm depth) (Rule.tok "\x7b") (Calm (depth + 1)) := by
  refine .token (fun token rest twins hsides htest => ?_) fun tokens twin left hsides htest => ?_
  · cases hsides with
    | edge htoken => exact absurd (htoken _ htest) (by decide)
    | kept _ hbrace => exact absurd (hbrace ['\x7b'] (by simp)) (by simpa using htest)
    | opened htoken hrest => exact ⟨_, _, rfl, htest, rfl, hrest⟩
    | closed htoken => exact absurd (htoken.passes _ htest) (by decide)
    | formatted _ hstart => simp [Test.holds, hstart] at htest
  · cases hsides with
    | edge _ htwin => exact absurd (htwin _ htest) (by decide)
    | _ => exact ⟨_, _, rfl, htest⟩

theorem Calm.tandem_closing :
    Tandem Rule.pattern fuel (Calm (depth + 1)) (Rule.tok "\x7d") (Calm depth) := by
  refine .token (fun token rest twins hsides htest => ?_) fun tokens twin left hsides htest => ?_
  · cases hsides with
    | kept _ hbrace => exact absurd (hbrace ['\x7d'] (by simp)) (by simpa using htest)
    | opened htoken => exact absurd (htoken.passes _ htest) (by decide)
    | closed htoken hrest => exact ⟨_, _, rfl, htest, rfl, hrest⟩
    | formatted _ hstart => simp [Test.holds, hstart] at htest
  · cases hsides <;> exact ⟨_, _, rfl, htest⟩

theorem formattedString_failed (h : ∀ token, tokens.head? = some token → token.kind ≠ .formatStart) :
    Ends Rule.pattern (.rule .formattedString) tokens .failed := by
  have hnone : ∀ test ∈ [Test.plainFormat, .templateFormat],
      Ends Rule.pattern (.token test) tokens .failed := by
    intro test htest
    refine .token_failed fun token hhead => ?_
    have hkind := h token hhead
    simp only [List.mem_cons, List.not_mem_nil, or_false] at htest
    obtain rfl | rfl := htest <;> simp [Test.holds, hkind]
  exact .rule_failed ((((hnone _ (by simp)).seq_failed _).seq_failed _).right
    (((hnone _ (by simp)).seq_failed _).seq_failed _))

/-- Formatted strings are read alike, whatever stands in them. -/
theorem Calm.tandem_formatted :
    Tandem Rule.pattern fuel (Calm depth) (.rule .formattedString) (Calm depth) := by
  have hcases : ∀ {tokens twins}, Calm depth tokens twins →
      (Ends Rule.pattern (.rule .formattedString) tokens .failed
        ∧ Ends Rule.pattern (.rule .formattedString) twins .failed)
      ∨ ∃ trees others rest left,
        Ends Rule.pattern (.rule .formattedString) tokens (.matched trees none rest)
          ∧ Ends Rule.pattern (.rule .formattedString) twins (.matched others none left)
          ∧ Resemble trees others ∧ Calm depth rest left := by
    intro tokens twins hsides
    have hother : ∀ {token : Token} {rest : List Token}, token.kind ≠ .formatStart →
        Ends Rule.pattern (.rule .formattedString) (token :: rest) .failed := by
      intro token rest hkind
      refine formattedString_failed fun found hfound => ?_
      cases hfound
      exact hkind
    have hsign : ∀ {token : Token} {sign : String}, Token.IsSign sign token → token.kind ≠ .formatStart := by
      intro token sign h
      simp [h.1]
    have hedge : ∀ {token : Token}, Token.Passes token edgeTests → token.kind ≠ .formatStart := by
      intro token h hkind
      exact absurd (h (.kind .formatStart) (by simp [Test.holds, hkind])) (by decide)
    cases hsides with
    | edge htoken htwin => exact .inl ⟨hother (hedge htoken), hother (hedge htwin)⟩
    | kept hstart => exact .inl ⟨hother hstart, hother hstart⟩
    | opened htoken => exact .inl ⟨hother (hsign htoken), hother (hsign htoken)⟩
    | closed htoken => exact .inl ⟨hother (hsign htoken), hother (hsign htoken)⟩
    | @formatted _ kind start children more rest left _ hends hturns hrest =>
      have hboth : Turns [.node kind (.leaf start :: children)] [.node kind (.leaf start :: more)] :=
        .node kind (.leaf start hturns) .nil
      have hleaves : ∀ (trees : List Tree) (tokens : List Token),
          leavesOf [.node kind (.leaf start :: trees)] ++ tokens = start :: (leavesOf trees ++ tokens) := by
        intro trees tokens
        simp [leavesOf, Tree.leaves]
      have hends' := hboth.reads (by rw [hleaves]; exact hends) rfl rfl hrest.varies
      rw [hleaves] at hends'
      exact .inr ⟨_, _, rest, left, hends, hends', hboth.resemble, hrest⟩
  refine ⟨fun hsides hrun => ?_, fun hsides hrun => ?_⟩
  · rcases hcases hsides with ⟨hends, -⟩ | ⟨_, others, _, left, hends, hends', hresemble, hrest⟩
    · cases hends.unique (ends_of_run hrun (by simp))
    · cases hends.unique (ends_of_run hrun (by simp))
      exact ⟨others, left, hends', hresemble, hrest⟩
  · rcases hcases hsides with ⟨-, hends⟩ | ⟨_, _, _, _, hends, -⟩
    · exact hends
    · cases hends.unique (ends_of_run hrun (by simp))

/-- What stands between the braces of a mapping and behind its colons is read alike. -/
theorem Calm.tandem_mapping
    (hinside : ∀ {pattern : Pattern Rule}, pattern.calm true = true →
      Tandem Rule.pattern fuel (Calm (depth + 1)) pattern (Calm (depth + 1))) :
    Tandem Rule.pattern fuel (Calm depth) (Rule.pattern .mappingPattern) (Calm depth) := by
  have hrest : Tandem Rule.pattern fuel (Calm (depth + 1))
      (Rule.tok "**" ++ Rule.captureName ++ Pattern.maybe Rule.comma) (Calm (depth + 1)) :=
    hinside rfl
  have hitems : Tandem Rule.pattern fuel (Calm (depth + 1))
      (Pattern.separated ((Rule.ref .literalPattern <|> Rule.qualifiedName) ++ Rule.tok ":"
          ++ Rule.ref .casePattern) Rule.comma
        ++ Pattern.maybe (Rule.comma ++ (Rule.tok "**" ++ Rule.captureName)) ++ Pattern.maybe Rule.comma)
      (Calm (depth + 1)) := hinside rfl
  exact (tandem_opening.seq (tandem_closing.alt
    ((hrest.seq tandem_closing).less.alt (hitems.seq tandem_closing).less).less).less).less

theorem Calm.tandem (fuel : Nat) : ∀ less ≤ fuel, ∀ {depth : Nat} {deep : Bool} {pattern : Pattern Rule},
    pattern.calm deep = true → (deep = true → 0 < depth) →
    Tandem Rule.pattern less (Calm depth) pattern (Calm depth) := by
  induction fuel with
  | zero =>
    intro less hless depth deep pattern _ _
    obtain rfl := Nat.le_zero.1 hless
    exact .zero _ _ _
  | succ fuel ih =>
    intro less hless depth deep pattern hcalm hdeep
    obtain hless | rfl := Nat.le_succ_iff.1 hless
    · exact ih less hless hcalm hdeep
    have hself := Nat.le_refl fuel
    cases pattern with
    | empty => exact .empty
    | label kind => exact .label kind
    | token test => exact Calm.tandem_token hcalm hdeep
    | seq first second =>
      rw [Pattern.calm, Bool.and_eq_true] at hcalm
      exact (ih fuel hself hcalm.1 hdeep).seq (ih fuel hself hcalm.2 hdeep)
    | alt first second =>
      rw [Pattern.calm, Bool.and_eq_true] at hcalm
      exact (ih fuel hself hcalm.1 hdeep).alt (ih fuel hself hcalm.2 hdeep)
    | many item =>
      have hitem : item.calm deep = true := hcalm
      exact .many fun less hless => ih less hless hitem hdeep
    | peek item =>
      have hitem : item.calm deep = true := hcalm
      exact (ih fuel hself hitem hdeep).peek
    | absent item =>
      have hitem : item.calm deep = true := hcalm
      exact (ih fuel hself hitem hdeep).absent
    | rule name =>
      cases hmarked : name.isMarked with
      | false => exact .rule (ih fuel hself (name.calm_pattern hcalm hmarked) nofun)
      | true =>
        cases name with
        | mappingPattern => exact .rule (tandem_mapping fun hcalm => ih fuel hself hcalm fun _ => Nat.succ_pos _)
        | formattedString => exact tandem_formatted
        | _ => cases hmarked
    | extend => cases hcalm
    | only => cases hcalm

/-! ### What is read as the patterns of a case -/

theorem Turns.of_leaf {token : Token} (h : Turns [.leaf token] others) : others = [.leaf token] := by
  cases h with
  | leaf _ hrest =>
    cases hrest
    rfl

theorem ne_call_of_run {rule : Rule} {name : Option Node}
    (h : run Rule.pattern fuel rule.pattern tokens = .matched trees name rest) : name ≠ some .call := by
  have hpattern := rule.sound_eq_true
  rw [Rule.sound, Bool.and_eq_true, List.all_eq_true] at hpattern
  obtain ⟨-, ending, hending, rfl, -⟩ := formed_of_reads (reads_of_run h) hpattern.1
  exact ne_call_of_settled (Bool.and_eq_true_iff.1 (hpattern.2 ending hending)).1

theorem Calm.of_token {token : Token} (hproper : Token.Proper token) (hcalm : test.calm deep = true)
    (htest : test.holds token = true) (hrest : Calm depth rest left) :
    Calm depth (token :: rest) (token :: left) := by
  refine .kept (fun hstart => ?_) (fun brace hbrace => ?_) hrest
  · simp [holds_of_start hstart hcalm] at htest
  · rw [Bool.eq_false_iff]
    intro hholds
    have hsign : Token.IsSign "\x7b" token ∨ Token.IsSign "\x7d" token := by
      simp only [List.mem_cons, List.not_mem_nil, or_false] at hbrace
      rcases hbrace with rfl | rfl
      · exact .inl (hproper.isSign hholds (by decide))
      · exact .inr (hproper.isSign hholds (by decide))
    simp [holds_of_brace hsign hcalm] at htest

/-- A formatted string begins with its start. -/
theorem start_of_reads {name : Option Node}
    (h : Reads Rule.pattern (.rule .formattedString) tokens trees name rest) :
    ∃ kind start children, kind ≠ .call ∧ start.kind = .formatStart
      ∧ trees = [.node kind (.leaf start :: children)] := by
  have hstart : ∀ {test : Test} {token : Token}, test ∈ [Test.plainFormat, .templateFormat] →
      test.holds token = true → token.kind = .formatStart := by
    intro test token hmem htest
    simp only [List.mem_cons, List.not_mem_nil, or_false] at hmem
    rcases hmem with rfl | rfl <;> simp_all [Test.holds]
  cases h with
  | rule h =>
  cases h with
  | left _ h =>
    cases h with
    | seq h hlabel =>
    cases hlabel
    cases h with
    | seq h _ =>
    cases h with
    | token _ htest => exact ⟨.formatted, _, _, by decide, hstart (by simp) htest, rfl⟩
  | right _ h =>
    cases h with
    | seq h hlabel =>
    cases hlabel
    cases h with
    | seq h _ =>
    cases h with
    | token _ htest => exact ⟨.templated, _, _, by decide, hstart (by simp) htest, rfl⟩

theorem Calm.of_formatted
    (h : Ends Rule.pattern (.rule .formattedString) (leavesOf trees ++ rest) (.matched trees none rest))
    (hturns : Turns trees others) (hrest : Calm depth rest left) :
    Calm depth (leavesOf trees ++ rest) (leavesOf others ++ left) := by
  obtain ⟨kind, start, children, hkind, hstart, rfl⟩ := start_of_reads h.reads
  obtain ⟨more, rfl, hmore⟩ := hturns.of_node hkind
  cases hmore with
  | leaf _ hmore =>
  have hleaves : ∀ (trees : List Tree) (tokens : List Token),
      leavesOf [.node kind (.leaf start :: trees)] ++ tokens = start :: (leavesOf trees ++ tokens) := by
    intro trees tokens
    simp [leavesOf, Tree.leaves]
  rw [hleaves] at h ⊢
  rw [hleaves]
  exact .formatted kind hstart h hmore hrest

/-- Between its braces a mapping is calm with colons. -/
theorem Calm.of_mapping {name : Option Node}
    (hinside : ∀ {pattern : Pattern Rule} {trees others : List Tree} {name : Option Node} {rest left : List Token},
      pattern.calm true = true →
      run Rule.pattern fuel pattern (leavesOf trees ++ rest) = .matched trees name rest →
      Turns trees others → (∀ token ∈ leavesOf trees, Token.Proper token) → Calm (depth + 1) rest left →
      Calm (depth + 1) (leavesOf trees ++ rest) (leavesOf others ++ left))
    (h : run Rule.pattern fuel (Rule.pattern .mappingPattern) (leavesOf trees ++ rest) = .matched trees name rest)
    (hturns : Turns trees others) (hproper : ∀ token ∈ leavesOf trees, Token.Proper token)
    (hrest : Calm depth rest left) : Calm depth (leavesOf trees ++ rest) (leavesOf others ++ left) := by
  have hclose : ∀ {trees others name}, run Rule.pattern fuel (Rule.tok "\x7d") (leavesOf trees ++ rest)
        = .matched trees name rest →
      Turns trees others → (∀ token ∈ leavesOf trees, Token.Proper token) →
      Calm (depth + 1) (leavesOf trees ++ rest) (leavesOf others ++ left) := by
    intro trees others name h hturns hproper
    obtain ⟨token, -, htest, rfl, -⟩ := exists_of_run_token h
    obtain rfl := hturns.of_leaf
    exact .closed ((hproper token (by simp [leavesOf, Tree.leaves])).isSign htest (by decide)) hrest
  have hbefore : ∀ {pattern : Pattern Rule} {trees others name}, pattern.calm true = true →
      run Rule.pattern fuel (.seq pattern (Rule.tok "\x7d")) (leavesOf trees ++ rest) = .matched trees name rest →
      Turns trees others → (∀ token ∈ leavesOf trees, Token.Proper token) →
      Calm (depth + 1) (leavesOf trees ++ rest) (leavesOf others ++ left) := by
    intro pattern trees others name hcalm h hturns hproper
    obtain ⟨fore, _, middle, last, _, hrun, hrun', rfl, -⟩ :=
      exists_of_run_seq (run_of_le h (by simp) (Nat.le_succ fuel))
    obtain rfl := leavesOf_reads (reads_of_run hrun')
    obtain ⟨fore', last', rfl, hfore, hlast⟩ := hturns.of_append
    simp only [leavesOf_append, List.append_assoc, List.forall_mem_append] at hrun hproper ⊢
    exact hinside hcalm hrun hfore hproper.1 (hclose hrun' hlast hproper.2)
  obtain ⟨opening, _, middle, inner, _, hopening, hinner, rfl, -⟩ :=
    exists_of_run_seq (run_of_le h (by simp) (Nat.le_succ fuel))
  obtain rfl := leavesOf_reads (reads_of_run hinner)
  obtain ⟨opening', inner', rfl, hsame, hturned⟩ := hturns.of_append
  obtain ⟨token, -, htest, rfl, -⟩ := exists_of_run_token hopening
  obtain rfl := hsame.of_leaf
  simp only [leavesOf_append, List.append_assoc, List.forall_mem_append] at hproper ⊢
  refine .opened ((hproper.1 token (by simp [leavesOf, Tree.leaves])).isSign htest (by decide)) ?_
  -- nothing, the rest of the mapping alone, or its items
  obtain h | ⟨-, h⟩ := cases_of_run_alt (run_of_le hinner (by simp) (Nat.le_succ fuel))
  · exact hclose h hturned hproper.2
  obtain h | ⟨-, h⟩ := cases_of_run_alt (run_of_le h (by simp) (Nat.le_succ fuel))
  · exact hbefore rfl h hturned hproper.2
  · exact hbefore rfl h hturned hproper.2

/-- What is read as the patterns of a case is calm. -/
theorem Calm.of_run {name : Option Node} (hcalm : pattern.calm deep = true) (hdeep : deep = true → 0 < depth)
    (h : run Rule.pattern fuel pattern (leavesOf trees ++ rest) = .matched trees name rest)
    (hturns : Turns trees others) (hproper : ∀ token ∈ leavesOf trees, Token.Proper token)
    (hrest : Calm depth rest left) : Calm depth (leavesOf trees ++ rest) (leavesOf others ++ left) := by
  induction fuel generalizing pattern depth deep trees others name rest left with
  | zero =>
    rw [run] at h
    cases h
  | succ fuel ih =>
    have hnothing : trees = [] → Calm depth (leavesOf trees ++ rest) (leavesOf others ++ left) := by
      rintro rfl
      cases hturns
      exact hrest
    have happend : ∀ {first second : Pattern Rule} {fore last : List Tree} {before later : Option Node}
        {middle : List Token}, first.calm deep = true → second.calm deep = true → trees = fore ++ last →
        run Rule.pattern fuel first (leavesOf trees ++ rest) = .matched fore before middle →
        run Rule.pattern fuel second middle = .matched last later rest →
        Calm depth (leavesOf trees ++ rest) (leavesOf others ++ left) := by
      rintro first second fore last before later middle hfirst hsecond rfl hrun hrun'
      obtain rfl := leavesOf_reads (reads_of_run hrun')
      obtain ⟨fore', last', rfl, hfore, hlast⟩ := hturns.of_append
      simp only [leavesOf_append, List.append_assoc, List.forall_mem_append] at hrun hproper ⊢
      exact ih hfirst hdeep hrun hfore hproper.1 (ih hsecond hdeep hrun' hlast hproper.2 hrest)
    cases pattern with
    | empty =>
      cases h
      exact hnothing rfl
    | label kind => exact hnothing (run_label h).1
    | token test =>
      obtain ⟨token, -, htest, rfl, -⟩ := exists_of_run_token h
      obtain rfl := hturns.of_leaf
      exact .of_token (hproper token (by simp [leavesOf, Tree.leaves])) hcalm htest hrest
    | seq first second =>
      rw [Pattern.calm, Bool.and_eq_true] at hcalm
      obtain ⟨fore, before, middle, last, later, hrun, hrun', hboth, -⟩ := exists_of_run_seq h
      exact happend hcalm.1 hcalm.2 hboth hrun hrun'
    | alt first second =>
      rw [Pattern.calm, Bool.and_eq_true] at hcalm
      obtain h | ⟨-, h⟩ := cases_of_run_alt h
      · exact ih hcalm.1 hdeep h hturns hproper hrest
      · exact ih hcalm.2 hdeep h hturns hproper hrest
    | many item =>
      obtain ⟨rfl, -⟩ | ⟨fore, before, middle, last, later, hrun, -, hrun', hboth, -⟩ := cases_of_run_many h
      · exact hnothing rfl
      · have hitem : item.calm deep = true := hcalm
        exact happend hitem hcalm hboth hrun hrun'
    | peek item =>
      cases reads_of_run h
      exact hnothing rfl
    | absent item =>
      cases reads_of_run h
      exact hnothing rfl
    | rule rule =>
      obtain rfl : name = none := by
        cases reads_of_run h
        rfl
      obtain ⟨children, given, hrun, rfl, -⟩ := exists_of_run_rule h
      have hplain := hturns.of_wrap (ne_call_of_run hrun)
      cases hmarked : rule.isMarked with
      | false =>
        obtain ⟨more, rfl, hchildren⟩ := hplain
        rw [leavesOf_wrap] at hrun hproper ⊢
        rw [leavesOf_wrap]
        exact ih (rule.calm_pattern hcalm hmarked) (by simp) hrun hchildren hproper hrest
      | true =>
        cases rule with
        | mappingPattern =>
          obtain ⟨more, rfl, hchildren⟩ := hplain
          rw [leavesOf_wrap] at hrun hproper ⊢
          rw [leavesOf_wrap]
          exact of_mapping (fun hcalm hrun hturns hproper hrest =>
            ih hcalm (fun _ => Nat.succ_pos _) hrun hturns hproper hrest) hrun hchildren hproper hrest
        | formattedString => exact of_formatted (ends_of_run h (by simp)) hturns hrest
        | _ => cases hmarked
    | extend => cases hcalm
    | only => cases hcalm

/-- The patterns of a case are read alike, up to its guard or its colon. -/
theorem Turns.reads_case {token twin : Token} {name : Option Node} (hturns : Turns trees others)
    (h : Ends Rule.pattern (.rule .casePatterns) (leavesOf trees ++ token :: rest)
      (.matched trees name (token :: rest)))
    (hproper : ∀ token ∈ leavesOf trees, Token.Proper token) (htoken : Token.Passes token edgeTests)
    (htwin : Token.Passes twin edgeTests) (hrest : Varies (token :: rest) (twin :: left)) :
    Ends Rule.pattern (.rule .casePatterns) (leavesOf others ++ twin :: left)
      (.matched others name (twin :: left)) := by
  obtain ⟨-, fuel, hrun⟩ := h
  have hpattern : (Pattern.rule Rule.casePatterns).calm false = true := rfl
  have hcalm := Calm.of_run hpattern nofun hrun hturns hproper (.edge htoken htwin hrest)
  have htandem : Tandem Rule.pattern fuel (Calm 0) (.rule .casePatterns) (Calm 0) :=
    Calm.tandem fuel fuel (Nat.le_refl _) hpattern nofun
  obtain ⟨more, last, hends, hmore, -⟩ := htandem.matched hcalm hrun
  obtain ⟨rfl, rfl⟩ := hturns.resemble.unique hmore hends.tokens_eq.symm
  exact hends

end Bundler.Grammar
