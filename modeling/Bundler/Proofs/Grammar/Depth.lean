import Bundler.Proofs.Grammar.Reads

/-!
# The depth of reading

`run` is given a depth that it must not exceed. Between one token and the next the rules nest no deeper
than `Pattern.depth` says, because no rule leads back to itself before a token is taken. So the depth that
`parse` allows is always enough (`run_ne_exhausted`), and more of it changes nothing (`run_of_le`).
-/

namespace Bundler.Grammar

open Bundler.Source (Token)

variable {R : Type} {grammar : R → Pattern R} {tokens rest : List Token}

/-! ### More depth -/

/-- Reading is exhausted, or it ends as it does at another depth. -/
def Outcome.Stays (outcome other : Outcome) : Prop := outcome = .exhausted ∨ other = outcome

theorem Outcome.Stays.eq {outcome other verdict : Outcome} (h : outcome.Stays other)
    (hverdict : outcome = verdict) (hne : verdict ≠ .exhausted) : other = verdict :=
  (h.resolve_left (hverdict ▸ hne)).trans hverdict

/-- What reading gives at one depth it gives at the next. -/
theorem run_and_grow_succ (fuel : Nat) :
    (∀ pattern tokens, (run grammar fuel pattern tokens).Stays (run grammar (fuel + 1) pattern tokens)) ∧
    (∀ tail formed tokens,
      (grow grammar fuel tail formed tokens).Stays (grow grammar (fuel + 1) tail formed tokens)) := by
  induction fuel with
  | zero => exact ⟨fun pattern tokens => .inl (by rw [run]), fun tail formed tokens => .inl (by rw [grow])⟩
  | succ fuel ih =>
    obtain ⟨hrun, hgrow⟩ := ih
    refine ⟨fun pattern tokens => ?_, fun tail formed tokens => ?_⟩
    · cases pattern with
      | empty => exact .inr rfl
      | token test => exact .inr rfl
      | label kind => exact .inr rfl
      | seq first second =>
        rw [run, run]
        obtain hfirst | hfirst := hrun first tokens
        · exact .inl (by rw [hfirst])
        · rw [hfirst]
          cases run grammar fuel first tokens with
          | matched trees name middle =>
            obtain hsecond | hsecond := hrun second middle
            · exact .inl (by simp only [hsecond])
            · exact .inr (by simp only [hsecond])
          | _ => exact .inr rfl
      | alt first second =>
        rw [run, run]
        obtain hfirst | hfirst := hrun first tokens
        · exact .inl (by rw [hfirst])
        · rw [hfirst]
          cases run grammar fuel first tokens with
          | failed => exact hrun second tokens
          | _ => exact .inr rfl
      | many item =>
        rw [run, run]
        obtain hitem | hitem := hrun item tokens
        · exact .inl (by rw [hitem])
        · rw [hitem]
          cases run grammar fuel item tokens with
          | matched trees name middle =>
            simp only
            split
            · obtain hmany | hmany := hrun (.many item) middle
              · exact .inl (by rw [hmany])
              · exact .inr (by rw [hmany])
            · exact .inr rfl
          | _ => exact .inr rfl
      | peek item | absent item | only kinds item =>
        rw [run, run]
        obtain hitem | hitem := hrun item tokens
        · exact .inl (by rw [hitem])
        · exact .inr (by rw [hitem])
      | rule rule =>
        rw [run, run]
        obtain hrule | hrule := hrun (grammar rule) tokens
        · exact .inl (by rw [hrule])
        · exact .inr (by rw [hrule])
      | extend base tail =>
        rw [run, run]
        obtain hbase | hbase := hrun base tokens
        · exact .inl (by rw [hbase])
        · rw [hbase]
          cases run grammar fuel base tokens with
          | matched trees name middle => exact hgrow tail _ middle
          | _ => exact .inr rfl
    · rw [grow, grow]
      obtain htail | htail := hrun tail tokens
      · exact .inl (by rw [htail])
      · rw [htail]
        cases run grammar fuel tail tokens with
        | matched trees name middle =>
          simp only
          split
          · exact hgrow tail _ middle
          · exact .inr rfl
        | _ => exact .inr rfl

theorem run_of_le {fuel more : Nat} {pattern : Pattern R} {outcome : Outcome}
    (h : run grammar fuel pattern tokens = outcome) (hne : outcome ≠ .exhausted) (hle : fuel ≤ more) :
    run grammar more pattern tokens = outcome := by
  induction hle with
  | refl => exact h
  | step _ ih => exact ((run_and_grow_succ _).1 _ _).eq ih hne

theorem grow_of_le {fuel more : Nat} {tail : Pattern R} {formed : List Tree} {outcome : Outcome}
    (h : grow grammar fuel tail formed tokens = outcome) (hne : outcome ≠ .exhausted) (hle : fuel ≤ more) :
    grow grammar more tail formed tokens = outcome := by
  induction hle with
  | refl => exact h
  | step _ ih => exact ((run_and_grow_succ _).2 _ _ _).eq ih hne

/-! ### Patterns that read nothing -/

/-- The rule may read nothing. -/
def Rule.skips : Rule → Bool
  | .fieldSpec | .moreArguments | .call => true
  | _ => false

/-- The pattern may read nothing. -/
def Pattern.skips : Pattern Rule → Bool
  | .token _ => false
  | .seq first second => skips first && skips second
  | .alt first second => skips first || skips second
  | .rule name => name.skips
  | .extend base _ => skips base
  | .only _ item => skips item
  | .empty | .many _ | .peek _ | .absent _ | .label _ => true

theorem Rule.skips_pattern (rule : Rule) : rule.pattern.skips = rule.skips := by
  cases rule <;> decide

/-- Only where a pattern may read nothing, nothing is read. -/
theorem skips_of_reads {pattern : Pattern Rule} {trees : List Tree} {name : Option Node}
    (h : Reads Rule.pattern pattern tokens trees name rest) (hnil : leavesOf trees = []) :
    pattern.skips = true := by
  induction h with
  | token => cases hnil
  | seq _ _ ihfirst ihsecond =>
    rw [leavesOf_append, List.append_eq_nil_iff] at hnil
    rw [Pattern.skips, ihfirst hnil.1, ihsecond hnil.2, Bool.and_self]
  | left _ _ ih => rw [Pattern.skips, ih hnil, Bool.true_or]
  | right _ _ ih => rw [Pattern.skips, ih hnil, Bool.or_true]
  | rule _ ih =>
    rw [leavesOf_wrap] at hnil
    rw [Pattern.skips, ← Rule.skips_pattern, ih hnil]
  | base _ _ ih =>
    rw [leavesOf_wrap] at hnil
    exact ih hnil
  | tail _ _ ihformed _ =>
    rw [leavesOf_wrap, leavesOf_append, List.append_eq_nil_iff] at hnil
    exact ihformed hnil.1
  | only _ _ ih => exact ih hnil
  | empty => rfl
  | stop => rfl
  | again => rfl
  | peek => rfl
  | absent => rfl
  | label => rfl

theorem length_le_of_run {fuel : Nat} {pattern : Pattern R} {trees : List Tree} {name : Option Node}
    (h : run grammar fuel pattern tokens = .matched trees name rest) : rest.length ≤ tokens.length := by
  rw [← leavesOf_reads (reads_of_run h), List.length_append]
  exact Nat.le_add_left _ _

theorem length_lt_of_run {fuel : Nat} {pattern : Pattern Rule} {trees : List Tree} {name : Option Node}
    (h : run Rule.pattern fuel pattern tokens = .matched trees name rest) (hskips : pattern.skips = false) :
    rest.length < tokens.length := by
  have hreads := reads_of_run h
  have hne : leavesOf trees ≠ [] := fun hnil => by
    rw [skips_of_reads hreads hnil] at hskips
    cases hskips
  rw [← leavesOf_reads hreads, List.length_append]
  exact Nat.lt_add_of_pos_left (List.length_pos_iff.2 hne)

/-! ### The depth that is needed -/

/-- How deep reading by a pattern goes before a token is taken, given this of each rule. -/
def Pattern.depthWith (depth : Rule → Nat) : Pattern Rule → Nat
  | .empty | .token _ | .label _ => 1
  | .seq first second =>
    max (depthWith depth first) (if first.skips then depthWith depth second else 0) + 1
  | .alt first second => max (depthWith depth first) (depthWith depth second) + 1
  | .many item | .peek item | .absent item | .only _ item => depthWith depth item + 1
  | .rule name => depth name
  | .extend base tail => max (depthWith depth base) (depthWith depth tail + 1) + 1

/-- How deep a rule goes before a token is taken, if rules nest no deeper than this. -/
def Rule.depthWithin : Nat → Rule → Nat
  | 0, _ => 0
  | nesting + 1, rule => rule.pattern.depthWith (depthWithin nesting) + 1

/-- How deep a rule goes before a token is taken. -/
def Rule.depth (rule : Rule) : Nat := rule.depthWithin 30

/-- How deep a pattern goes before a token is taken. -/
def Pattern.depth (pattern : Pattern Rule) : Nat := pattern.depthWith Rule.depth

set_option maxRecDepth 20000 in
theorem Rule.depth_pattern (rule : Rule) : rule.pattern.depth < rule.depth := by
  cases rule <;> decide

/-- No part of the pattern goes deeper than `parse` allows for one token. -/
def Pattern.shallow (pattern : Pattern Rule) : Bool :=
  decide (pattern.depth ≤ 600) && match pattern with
    | .seq first second | .alt first second | .extend first second => shallow first && shallow second
    | .many item | .peek item | .absent item | .only _ item => shallow item
    | .empty | .token _ | .rule _ | .label _ => true

set_option maxRecDepth 20000 in
theorem Rule.shallow_pattern (rule : Rule) : rule.pattern.shallow = true := by
  cases rule <;> decide

theorem Pattern.depth_le_of_shallow {pattern : Pattern Rule} (h : pattern.shallow = true) :
    pattern.depth ≤ 600 := by
  unfold Pattern.shallow at h
  exact of_decide_eq_true (Bool.and_eq_true_iff.1 h).1

theorem Pattern.depth_pos (pattern : Pattern Rule) : 0 < pattern.depth := by
  cases pattern with
  | rule rule => exact Nat.succ_pos _
  | _ => exact Nat.succ_pos _

/-- Reading by a pattern has a verdict at the depth that the number of tokens and the pattern ask for. -/
def Decides (fuel : Nat) (pattern : Pattern Rule) : Prop :=
  ∀ tokens : List Token, 600 * tokens.length + pattern.depth ≤ fuel →
    run Rule.pattern fuel pattern tokens ≠ .exhausted

/-- So has going on with a tail. -/
def DecidesGrowth (fuel : Nat) (tail : Pattern Rule) : Prop :=
  ∀ (formed : List Tree) (tokens : List Token), 600 * tokens.length + tail.depth < fuel →
    grow Rule.pattern fuel tail formed tokens ≠ .exhausted

section

variable {fuel : Nat} {first second item tail : Pattern Rule}

theorem decides_token (test : Test) : Decides (fuel + 1) (.token test) := by
  intro tokens _
  cases tokens with
  | nil => simp [run]
  | cons token rest =>
    rw [run]
    split <;> simp

theorem Decides.seq (hfirst : Decides fuel first) (hsecond : Decides fuel second)
    (hshallow : (Pattern.seq first second).shallow = true) : Decides (fuel + 1) (.seq first second) := by
  intro tokens hfuel
  have hbound := Pattern.depth_le_of_shallow hshallow
  simp only [Pattern.shallow, Bool.and_eq_true] at hshallow
  simp only [Pattern.depth, Pattern.depthWith] at hfuel hbound
  rw [run]
  split
  next trees name rest hmatched =>
    -- the second part begins behind a token, unless the first may read nothing
    have hbehind : 600 * rest.length + second.depth ≤ fuel := by
      have hle := length_le_of_run hmatched
      cases hskips : first.skips with
      | true =>
        rw [hskips] at hfuel hbound
        simp only [if_true] at hfuel
        rw [Pattern.depth]
        omega
      | false =>
        have hlt := length_lt_of_run hmatched hskips
        have hle := Pattern.depth_le_of_shallow hshallow.2.2
        omega
    have hmore := hsecond rest hbehind
    split
    · simp
    · exact hmore
  · exact hfirst tokens (by rw [Pattern.depth]; omega)

theorem Decides.alt (hfirst : Decides fuel first) (hsecond : Decides fuel second) :
    Decides (fuel + 1) (.alt first second) := by
  intro tokens hfuel
  simp only [Pattern.depth, Pattern.depthWith] at hfuel
  rw [run]
  split
  · exact hsecond tokens (by rw [Pattern.depth]; omega)
  · exact hfirst tokens (by rw [Pattern.depth]; omega)

theorem Decides.many (hitem : Decides fuel item) (hmany : Decides fuel (.many item))
    (hshallow : (Pattern.many item).shallow = true) : Decides (fuel + 1) (.many item) := by
  intro tokens hfuel
  have hbound := Pattern.depth_le_of_shallow hshallow
  have hverdict := hitem tokens (by
    simp only [Pattern.depth, Pattern.depthWith] at hfuel ⊢
    omega)
  rw [run]
  split
  next trees name rest _ =>
    split
    next hless =>
      have hmore := hmany rest (by omega)
      split
      · simp
      · exact hmore
    · simp
  · simp
  next hexhausted => exact absurd hexhausted hverdict

theorem Decides.peek (hitem : Decides fuel item) : Decides (fuel + 1) (.peek item) := by
  intro tokens hfuel
  simp only [Pattern.depth, Pattern.depthWith] at hfuel
  rw [run]
  split
  · simp
  · exact hitem tokens (by rw [Pattern.depth]; omega)

theorem Decides.absent (hitem : Decides fuel item) : Decides (fuel + 1) (.absent item) := by
  intro tokens hfuel
  simp only [Pattern.depth, Pattern.depthWith] at hfuel
  have hverdict := hitem tokens (by rw [Pattern.depth]; omega)
  rw [run]
  split
  · simp
  · simp
  next hexhausted => exact absurd hexhausted hverdict

theorem Decides.rule {rule : Rule} (hrule : Decides fuel rule.pattern) : Decides (fuel + 1) (.rule rule) := by
  intro tokens hfuel
  rw [run]
  split
  · simp
  · refine hrule tokens ?_
    have hdepth := rule.depth_pattern
    simp only [Pattern.depth, Pattern.depthWith] at hfuel hdepth ⊢
    omega

theorem Decides.extend (hfirst : Decides fuel first) (htail : DecidesGrowth fuel tail) :
    Decides (fuel + 1) (.extend first tail) := by
  intro tokens hfuel
  simp only [Pattern.depth, Pattern.depthWith] at hfuel
  rw [run]
  split
  next hmatched =>
    have hle := length_le_of_run hmatched
    exact htail _ _ (by rw [Pattern.depth]; omega)
  · exact hfirst tokens (by rw [Pattern.depth]; omega)

theorem Decides.only (hitem : Decides fuel item) (kinds : List Node) : Decides (fuel + 1) (.only kinds item) := by
  intro tokens hfuel
  simp only [Pattern.depth, Pattern.depthWith] at hfuel
  rw [run]
  split
  · split <;> simp
  · simp
  · exact hitem tokens (by rw [Pattern.depth]; omega)

theorem Decides.grow (htail : Decides fuel tail) (hgrow : DecidesGrowth fuel tail) :
    DecidesGrowth (fuel + 1) tail := by
  intro formed tokens hfuel
  have hverdict := htail tokens (by omega)
  rw [Grammar.grow]
  split
  · split
    next hless => exact hgrow _ _ (by omega)
    · simp
  · simp
  next hexhausted => exact absurd hexhausted hverdict

end

theorem run_and_grow_ne_exhausted (fuel : Nat) :
    (∀ pattern : Pattern Rule, pattern.shallow = true → Decides fuel pattern) ∧
      ∀ tail : Pattern Rule, tail.shallow = true → DecidesGrowth fuel tail := by
  induction fuel with
  | zero =>
    refine ⟨fun pattern _ tokens hfuel => ?_, fun tail _ formed tokens hfuel => absurd hfuel (by omega)⟩
    have hpos := pattern.depth_pos
    omega
  | succ fuel ih =>
    obtain ⟨hrun, hgrow⟩ := ih
    refine ⟨fun pattern hshallow => ?_, fun tail hshallow => (hrun tail hshallow).grow (hgrow tail hshallow)⟩
    have hparts := hshallow
    cases pattern with
    | empty => exact fun tokens _ => by simp [run]
    | label kind => exact fun tokens _ => by simp [run]
    | token test => exact decides_token test
    | seq first second =>
      simp only [Pattern.shallow, Bool.and_eq_true] at hparts
      exact (hrun first hparts.2.1).seq (hrun second hparts.2.2) hshallow
    | alt first second =>
      simp only [Pattern.shallow, Bool.and_eq_true] at hparts
      exact (hrun first hparts.2.1).alt (hrun second hparts.2.2)
    | many item =>
      simp only [Pattern.shallow, Bool.and_eq_true] at hparts
      exact (hrun item hparts.2).many (hrun (.many item) hshallow) hshallow
    | peek item =>
      simp only [Pattern.shallow, Bool.and_eq_true] at hparts
      exact (hrun item hparts.2).peek
    | absent item =>
      simp only [Pattern.shallow, Bool.and_eq_true] at hparts
      exact (hrun item hparts.2).absent
    | rule rule => exact (hrun rule.pattern rule.shallow_pattern).rule
    | extend base tail =>
      simp only [Pattern.shallow, Bool.and_eq_true] at hparts
      exact (hrun base hparts.2.1).extend (hgrow tail hparts.2.2)
    | only kinds item =>
      simp only [Pattern.shallow, Bool.and_eq_true] at hparts
      exact (hrun item hparts.2).only kinds

set_option maxRecDepth 20000 in
/-- The depth that `parse` allows is enough for every rule. -/
theorem run_ne_exhausted (rule : Rule) (tokens : List Token) :
    run Rule.pattern (depthFor tokens.length) (.rule rule) tokens ≠ .exhausted := by
  refine (run_and_grow_ne_exhausted _).1 _ ?_ _ ?_
  all_goals have hdepth : rule.depth ≤ 600 := by cases rule <;> decide
  · exact Bool.and_eq_true_iff.2 ⟨decide_eq_true hdepth, rfl⟩
  · rw [depthFor, Pattern.depth, Pattern.depthWith]
    omega

end Bundler.Grammar
