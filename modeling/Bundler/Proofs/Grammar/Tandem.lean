import Bundler.Proofs.Grammar.Ending

/-!
# Reading in tandem

`Tandem before pattern after` says that a pattern reads two texts alike that are related by `before`: it is
read in both or in neither, with trees that resemble each other (`Resemble`), and what is left is
related by `after`. What holds of the parts of a pattern holds of the pattern (`Tandem.seq`,
`Tandem.alt`, …), so each use only has to say what its relation does to single tokens.
-/

namespace Bundler.Grammar

open Bundler.Source (Token)

variable {R : Type} {grammar : R → Pattern R} {fuel : Nat} {tokens rest : List Token}
  {trees others more result : List Tree} {name : Option Node} {first second item base tail : Pattern R}

/-! ### Trees that resemble each other -/

/-- The same trees but for their tokens, and for parentheses where a string takes their place. -/
inductive Resemble : List Tree → List Tree → Prop
  | nil : Resemble [] []
  | leaf {token other : Token} {trees others : List Tree} (hkind : other.kind = token.kind)
      (hrest : Resemble trees others) : Resemble (.leaf token :: trees) (.leaf other :: others)
  | node (kind : Node) {children more trees others : List Tree} (hchildren : Resemble children more)
      (hrest : Resemble trees others) :
    Resemble (.node kind children :: trees) (.node kind more :: others)
  | bare {opening closing literal : Token} (value : Tree) {trees others : List Tree}
      (hopening : opening.kind ≠ .string) (hliteral : literal.kind = .string)
      (hrest : Resemble trees others) :
    Resemble (.node .group [.leaf opening, value, .leaf closing] :: trees) (.leaf literal :: others)

theorem Resemble.append (h : Resemble trees others) (hmore : Resemble more result) :
    Resemble (trees ++ more) (others ++ result) := by
  induction h with
  | nil => exact hmore
  | leaf hkind _ ih => exact .leaf hkind ih
  | node kind hchildren _ _ ih => exact .node kind hchildren ih
  | bare value hopening hliteral _ ih => exact .bare value hopening hliteral ih

theorem Resemble.wrap (name : Option Node) (h : Resemble trees others) :
    Resemble (wrap name trees) (wrap name others) := by
  cases name with
  | none => exact h
  | some kind => exact .node kind h .nil

theorem Resemble.leavesOf_eq_nil_iff (h : Resemble trees others) :
    leavesOf trees = [] ↔ leavesOf others = [] := by
  induction h with
  | nil => rfl
  | leaf => simp [leavesOf, Tree.leaves]
  | node _ _ _ ihchildren ih => simp [leavesOf, Tree.leaves, ihchildren, ih]
  | bare => simp [leavesOf, Tree.leaves]

/-- Among the trees that resemble the given ones, the leaves tell which they are. -/
theorem Resemble.unique {left right : List Token} (h : Resemble trees others) (hother : Resemble trees more)
    (hleaves : leavesOf others ++ left = leavesOf more ++ right) : others = more ∧ left = right := by
  induction h generalizing more left right with
  | nil =>
    cases hother
    exact ⟨rfl, hleaves⟩
  | leaf _ _ ih =>
    cases hother with
    | leaf _ hrest =>
    simp only [leavesOf, Tree.leaves, List.cons_append, List.cons.injEq] at hleaves
    obtain ⟨rfl, rfl⟩ := ih hrest hleaves.2
    exact ⟨by rw [hleaves.1], rfl⟩
  | node kind hchildren _ ihchildren ih =>
    cases hother with
    | node _ hchildren' hrest =>
      simp only [leavesOf, Tree.leaves, List.append_assoc] at hleaves
      obtain ⟨rfl, hbehind⟩ := ihchildren hchildren' hleaves
      obtain ⟨rfl, rfl⟩ := ih hrest hbehind
      exact ⟨rfl, rfl⟩
    | bare _ hopening hliteral =>
      cases hchildren with
      | leaf hkind =>
      simp only [leavesOf, Tree.leaves, List.cons_append, List.cons.injEq] at hleaves
      rw [← hkind, hleaves.1] at hopening
      exact absurd hliteral hopening
  | bare _ hopening hliteral _ ih =>
    cases hother with
    | node _ hchildren' =>
      cases hchildren' with
      | leaf hkind =>
      simp only [leavesOf, Tree.leaves, List.cons_append, List.cons.injEq] at hleaves
      rw [← hkind, ← hleaves.1] at hopening
      exact absurd hliteral hopening
    | bare _ _ _ hrest =>
      simp only [leavesOf, Tree.leaves, List.cons_append, List.cons.injEq] at hleaves
      obtain ⟨rfl, rfl⟩ := ih hrest hleaves.2
      exact ⟨by rw [hleaves.1], rfl⟩

/-! ### The relation -/

abbrev Sides := List Token → List Token → Prop

/-- The pattern reads both sides alike. -/
structure Tandem (grammar : R → Pattern R) (fuel : Nat) (before : Sides) (pattern : Pattern R)
    (after : Sides) : Prop where
  matched : ∀ {tokens twins trees name rest}, before tokens twins →
    run grammar fuel pattern tokens = .matched trees name rest →
    ∃ others left, Ends grammar pattern twins (.matched others name left)
      ∧ Resemble trees others ∧ after rest left
  failed : ∀ {tokens twins}, before tokens twins → run grammar fuel pattern tokens = .failed →
    Ends grammar pattern twins .failed

variable {before middle after : Sides}

theorem Tandem.zero (before : Sides) (pattern : Pattern R) (after : Sides) :
    Tandem grammar 0 before pattern after where
  matched _ h := by rw [run] at h; cases h
  failed _ h := by rw [run] at h; cases h

/-- What holds at a depth holds at a smaller one. -/
theorem Tandem.less {pattern : Pattern R} (h : Tandem grammar (fuel + 1) before pattern after) :
    Tandem grammar fuel before pattern after where
  matched hsides hrun := h.matched hsides (run_of_le hrun nofun (Nat.le_succ _))
  failed hsides hrun := h.failed hsides (run_of_le hrun nofun (Nat.le_succ _))

theorem Tandem.imp {pattern : Pattern R} {narrow wide : Sides} (h : Tandem grammar fuel before pattern after)
    (hbefore : ∀ tokens twins, narrow tokens twins → before tokens twins)
    (hafter : ∀ tokens twins, after tokens twins → wide tokens twins) :
    Tandem grammar fuel narrow pattern wide where
  matched hsides hrun := by
    obtain ⟨others, left, hends, hresemble, hleft⟩ := h.matched (hbefore _ _ hsides) hrun
    exact ⟨others, left, hends, hresemble, hafter _ _ hleft⟩
  failed hsides hrun := h.failed (hbefore _ _ hsides) hrun

theorem Tandem.or {pattern : Pattern R} {other : Sides} (h : Tandem grammar fuel before pattern after)
    (hother : Tandem grammar fuel other pattern after) :
    Tandem grammar fuel (fun tokens twins => before tokens twins ∨ other tokens twins) pattern after where
  matched hsides hrun := hsides.elim (h.matched · hrun) (hother.matched · hrun)
  failed hsides hrun := hsides.elim (h.failed · hrun) (hother.failed · hrun)

theorem Tandem.empty : Tandem grammar fuel before .empty before where
  matched hsides h := by
    cases fuel with
    | zero => rw [run] at h; cases h
    | succ fuel =>
      cases h
      exact ⟨_, _, .empty, .nil, hsides⟩
  failed _ h := by cases fuel <;> rw [run] at h <;> cases h

theorem Tandem.label (kind : Node) : Tandem grammar fuel before (.label kind) before where
  matched hsides h := by
    cases fuel with
    | zero => rw [run] at h; cases h
    | succ fuel =>
      cases h
      exact ⟨_, _, .label kind, .nil, hsides⟩
  failed _ h := by cases fuel <;> rw [run] at h <;> cases h

theorem Tandem.token {test : Test}
    (hread : ∀ token rest twins, before (token :: rest) twins → test.holds token = true →
      ∃ twin left, twins = twin :: left ∧ test.holds twin = true ∧ twin.kind = token.kind
        ∧ after rest left)
    (hfail : ∀ tokens twin left, before tokens (twin :: left) → test.holds twin = true →
      ∃ token rest, tokens = token :: rest ∧ test.holds token = true) :
    Tandem grammar fuel before (.token test) after where
  matched hsides h := by
    obtain ⟨token, rfl, htest, rfl, rfl⟩ := exists_of_run_token h
    obtain ⟨twin, left, rfl, htwin, hkind, hleft⟩ := hread _ _ _ hsides htest
    exact ⟨_, left, .token htwin, .leaf hkind .nil, hleft⟩
  failed {tokens twins} hsides h := by
    refine .token_failed fun twin hhead => ?_
    obtain ⟨left, rfl⟩ := List.head?_eq_some_iff.1 hhead
    rw [Bool.eq_false_iff]
    intro htwin
    obtain ⟨token, rest, rfl, htest⟩ := hfail _ _ _ hsides htwin
    cases fuel with
    | zero => rw [run] at h; cases h
    | succ fuel =>
      rw [run, if_pos htest] at h
      cases h

theorem Tandem.seq (hfirst : Tandem grammar fuel before first middle)
    (hsecond : Tandem grammar fuel middle second after) :
    Tandem grammar (fuel + 1) before (.seq first second) after where
  matched hsides h := by
    rw [run] at h
    split at h
    next hrun =>
      obtain ⟨others, left, hends, hresemble, hleft⟩ := hfirst.matched hsides hrun
      split at h
      next hrun' =>
        cases h
        obtain ⟨more, last, hends', hresemble', hlast⟩ := hsecond.matched hleft hrun'
        exact ⟨_, last, hends.seq hends', hresemble.append hresemble', hlast⟩
      next hnot => exact absurd h (hnot _ _ _)
    next hnot => exact absurd h (hnot _ _ _)
  failed hsides h := by
    rw [run] at h
    split at h
    next hrun =>
      obtain ⟨others, left, hends, -, hleft⟩ := hfirst.matched hsides hrun
      split at h
      · cases h
      · exact hends.seq_failed_behind (hsecond.failed hleft h)
    · exact (hfirst.failed hsides h).seq_failed second

theorem Tandem.alt (hfirst : Tandem grammar fuel before first after)
    (hsecond : Tandem grammar fuel before second after) :
    Tandem grammar (fuel + 1) before (.alt first second) after where
  matched hsides h := by
    rw [run] at h
    split at h
    next hrun =>
      obtain ⟨others, left, hends, hresemble, hleft⟩ := hsecond.matched hsides h
      exact ⟨others, left, (hfirst.failed hsides hrun).right hends, hresemble, hleft⟩
    · obtain ⟨others, left, hends, hresemble, hleft⟩ := hfirst.matched hsides h
      exact ⟨others, left, hends.left second, hresemble, hleft⟩
  failed hsides h := by
    rw [run] at h
    split at h
    next hrun => exact (hfirst.failed hsides hrun).right (hsecond.failed hsides h)
    next hnot => exact absurd h hnot

theorem Tandem.peek (hitem : Tandem grammar fuel before item after) :
    Tandem grammar (fuel + 1) before (.peek item) before where
  matched hsides h := by
    rw [run] at h
    split at h
    next hrun =>
      cases h
      obtain ⟨others, left, hends, -⟩ := hitem.matched hsides hrun
      exact ⟨_, _, hends.peek, .nil, hsides⟩
    next hnot => exact absurd h (hnot _ _ _)
  failed hsides h := by
    rw [run] at h
    split at h
    · cases h
    · exact (hitem.failed hsides h).peek_failed

theorem Tandem.absent (hitem : Tandem grammar fuel before item after) :
    Tandem grammar (fuel + 1) before (.absent item) before where
  matched hsides h := by
    rw [run] at h
    split at h
    · cases h
    next hrun =>
      cases h
      exact ⟨_, _, (hitem.failed hsides hrun).absent, .nil, hsides⟩
    · cases h
  failed hsides h := by
    rw [run] at h
    split at h
    next hrun =>
      obtain ⟨others, left, hends, -⟩ := hitem.matched hsides hrun
      exact hends.absent_failed
    · cases h
    · cases h

theorem Tandem.rule {rule : R} (hrule : Tandem grammar fuel before (grammar rule) after) :
    Tandem grammar (fuel + 1) before (.rule rule) after where
  matched hsides h := by
    obtain ⟨trees, name, hrun, rfl, rfl⟩ := exists_of_run_rule h
    obtain ⟨others, left, hends, hresemble, hleft⟩ := hrule.matched hsides hrun
    exact ⟨_, left, hends.rule, hresemble.wrap name, hleft⟩
  failed hsides h := by
    rw [run] at h
    split at h
    · cases h
    · exact (hrule.failed hsides h).rule_failed

/-- A node that is no group has only nodes of its kind for others. -/
theorem Resemble.singleton_iff {kind : Node} (h : Resemble trees others) (hkind : kind ≠ .group) :
    (∃ children, trees = [.node kind children]) ↔ ∃ children, others = [.node kind children] := by
  constructor
  · rintro ⟨children, rfl⟩
    cases h with
    | node _ _ hrest =>
      cases hrest
      exact ⟨_, rfl⟩
    | bare => exact absurd rfl hkind
  · rintro ⟨children, rfl⟩
    cases h with
    | node _ _ hrest =>
      cases hrest
      exact ⟨_, rfl⟩

theorem Tandem.only {kinds : List Node} (hkinds : Node.group ∉ kinds)
    (hitem : Tandem grammar fuel before item after) :
    Tandem grammar (fuel + 1) before (.only kinds item) after where
  matched hsides h := by
    rw [run] at h
    split at h
    next kind children _ _ hrun =>
      split at h
      next hkind =>
        cases h
        obtain ⟨others, left, hends, hresemble, hleft⟩ := hitem.matched hsides hrun
        rw [List.contains_iff_mem] at hkind
        obtain ⟨more, rfl⟩ := (hresemble.singleton_iff (ne_of_mem_of_not_mem hkind hkinds)).1 ⟨_, rfl⟩
        exact ⟨_, left, hends.only hkind, hresemble, hleft⟩
      · cases h
    · cases h
    next hnot => exact absurd h (hnot _ _ _)
  failed {tokens twins} hsides h := by
    have hother : ∀ {trees name rest}, run grammar fuel item tokens = .matched trees name rest →
        (∀ kind ∈ kinds, ∀ children, trees ≠ [.node kind children]) →
        Ends grammar (.only kinds item) twins .failed := by
      intro trees name rest hrun hnone
      obtain ⟨others, left, hends, hresemble, -⟩ := hitem.matched hsides hrun
      refine hends.only_other fun kind hkind children heq => ?_
      obtain ⟨more, hmore⟩ :=
        (hresemble.singleton_iff (ne_of_mem_of_not_mem hkind hkinds)).2 ⟨children, heq⟩
      exact hnone kind hkind more hmore
    rw [run] at h
    split at h
    next kind children _ _ hrun =>
      split at h
      · cases h
      next hkind =>
        refine hother hrun fun other hother children heq => ?_
        cases heq
        exact hkind (List.contains_iff_mem.2 hother)
    next hnot hrun => exact hother hrun fun kind _ children heq => hnot kind children heq
    · exact (hitem.failed hsides h).only_failed

/-! ### Repetitions -/

theorem length_lt_iff {pattern : Pattern R} {twins left : List Token}
    (hrun : run grammar fuel pattern tokens = .matched trees name rest)
    (hends : Ends grammar pattern twins (.matched others name left)) (hresemble : Resemble trees others) :
    rest.length < tokens.length ↔ left.length < twins.length := by
  have hpos : ∀ {taken rest : List Token}, rest.length < (taken ++ rest).length ↔ taken ≠ [] := by
    intro taken rest
    rw [List.length_append, Nat.lt_add_left_iff_pos, List.length_pos_iff]
  rw [← leavesOf_reads (reads_of_run hrun), ← hends.tokens_eq, hpos, hpos, ne_eq, ne_eq,
    hresemble.leavesOf_eq_nil_iff]

theorem Tandem.many (hitem : ∀ less ≤ fuel, Tandem grammar less before item before) :
    Tandem grammar (fuel + 1) before (.many item) before := by
  induction fuel with
  | zero =>
    refine ⟨fun _ h => ?_, fun _ h => ?_⟩ <;> rw [run, run] at h <;> cases h
  | succ fuel ih =>
    have hlast := hitem (fuel + 1) (Nat.le_refl _)
    have hagain := ih fun less hless => hitem less (Nat.le_succ_of_le hless)
    refine ⟨fun hsides h => ?_, fun _ h => absurd h (run_many_ne_failed _ _ _)⟩
    rw [run] at h
    split at h
    next hrun =>
      obtain ⟨others, left, hends, hresemble, hleft⟩ := hlast.matched hsides hrun
      split at h
      next hless =>
        split at h
        next hmany =>
          cases h
          obtain ⟨more, last, hends', hresemble', hlast⟩ := hagain.matched hleft hmany
          exact ⟨_, last, hends.again ((length_lt_iff hrun hends hresemble).1 hless) hends',
            hresemble.append hresemble', hlast⟩
        next hnot => exact absurd h (hnot _ _ _)
      next hless =>
        cases h
        exact ⟨_, _, hends.idle fun hless' => hless ((length_lt_iff hrun hends hresemble).2 hless'),
          .nil, hsides⟩
    next hrun =>
      cases h
      exact ⟨_, _, (hlast.failed hsides hrun).stop, .nil, hsides⟩
    · cases h

theorem exists_grows {formed grown : List Tree} {twins : List Token} {outcome : Outcome}
    (htail : ∀ less ≤ fuel, Tandem grammar less after tail after) (hsides : after tokens twins)
    (hformed : Resemble formed grown) (h : grow grammar (fuel + 1) tail formed tokens = outcome)
    (hverdict : outcome ≠ .exhausted) :
    ∃ trees others rest left, outcome = .matched trees none rest
      ∧ Grows grammar tail grown twins (.matched others none left)
      ∧ Resemble trees others ∧ after rest left := by
  induction fuel generalizing tokens twins formed grown with
  | zero =>
    rw [grow, run] at h
    exact absurd h.symm hverdict
  | succ fuel ih =>
    have hlast := htail (fuel + 1) (Nat.le_refl _)
    rw [grow] at h
    split at h
    next hrun =>
      obtain ⟨others, left, hends, hresemble, hleft⟩ := hlast.matched hsides hrun
      have hprogress := length_lt_iff hrun hends hresemble
      split at h
      next hless =>
        obtain ⟨trees, result, rest, last, rfl, hgrows, hresult, hlast⟩ :=
          ih (fun less hless => htail less (Nat.le_succ_of_le hless)) hleft
            ((hformed.append hresemble).wrap _) h
        exact ⟨trees, result, rest, last, rfl, .again hends (hprogress.1 hless) hgrows, hresult, hlast⟩
      next hless =>
        subst h
        exact ⟨_, _, _, _, rfl, .idle hends fun hless' => hless (hprogress.2 hless'), hformed, hsides⟩
    next hrun =>
      subst h
      exact ⟨_, _, _, _, rfl, .stop (hlast.failed hsides hrun), hformed, hsides⟩
    · exact absurd h.symm hverdict

theorem Tandem.extend (hbase : Tandem grammar fuel before base after)
    (htail : ∀ less ≤ fuel, Tandem grammar less after tail after) :
    Tandem grammar (fuel + 1) before (.extend base tail) after := by
  have hgrow : ∀ {twins trees others name rest left outcome},
      Ends grammar base twins (.matched others name left) → Resemble trees others → after rest left →
      grow grammar fuel tail (wrap name trees) rest = outcome → outcome ≠ .exhausted →
      ∃ trees others rest left, outcome = .matched trees none rest
        ∧ Ends grammar (.extend base tail) twins (.matched others none left)
        ∧ Resemble trees others ∧ after rest left := by
    intro twins trees others name rest left outcome hends hresemble hleft h hverdict
    cases fuel with
    | zero =>
      rw [grow] at h
      exact absurd h.symm hverdict
    | succ fuel =>
      obtain ⟨result, more, last, past, rfl, hgrows, hresult, hpast⟩ :=
        exists_grows (fun less hless => htail less (Nat.le_succ_of_le hless)) hleft
          (hresemble.wrap name) h hverdict
      exact ⟨result, more, last, past, rfl, hends.extend hgrows, hresult, hpast⟩
  refine ⟨fun {tokens twins trees name rest} hsides h => ?_, fun {tokens twins} hsides h => ?_⟩
  · rw [run] at h
    split at h
    next hrun =>
      obtain ⟨others, left, hends, hresemble, hleft⟩ := hbase.matched hsides hrun
      obtain ⟨_, more, _, past, heq, hends', hresult, hpast⟩ :=
        hgrow hends hresemble hleft h (by simp)
      cases heq
      exact ⟨more, past, hends', hresult, hpast⟩
    next hnot => exact absurd h (hnot _ _ _)
  · rw [run] at h
    split at h
    next hrun =>
      obtain ⟨others, left, hends, hresemble, hleft⟩ := hbase.matched hsides hrun
      obtain ⟨_, _, _, _, heq, -⟩ := hgrow hends hresemble hleft h (by simp)
      cases heq
    · exact (hbase.failed hsides h).extend_failed tail

end Bundler.Grammar
