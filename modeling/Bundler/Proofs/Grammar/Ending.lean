import Bundler.Proofs.Grammar.Depth

/-!
# How reading ends

`Ends` says how reading by a pattern ends, whatever the depth. There is one way only (`Ends.unique`), and
for the grammar of modules there is one (`exists_ends`). What a pattern gives follows from what its parts
give: `Ends.seq`, `Ends.left` and the like build it up, and `exists_of_run_seq`, `cases_of_run_alt` and the
like take it apart.
-/

namespace Bundler.Grammar

open Bundler.Source (Token)

variable {R : Type} {grammar : R → Pattern R} {fuel : Nat} {tokens middle rest : List Token}
  {trees more formed : List Tree} {name later : Option Node} {outcome : Outcome}
  {first second item base tail : Pattern R}

/-- Reading by the pattern ends in this way. -/
structure Ends (grammar : R → Pattern R) (pattern : Pattern R) (tokens : List Token)
    (outcome : Outcome) : Prop where
  verdict : outcome ≠ .exhausted
  reached : ∃ fuel, run grammar fuel pattern tokens = outcome

/-- Going on with the tails of an extension ends in this way. -/
structure Grows (grammar : R → Pattern R) (tail : Pattern R) (formed : List Tree) (tokens : List Token)
    (outcome : Outcome) : Prop where
  verdict : outcome ≠ .exhausted
  reached : ∃ fuel, grow grammar fuel tail formed tokens = outcome

theorem ends_of_run {pattern : Pattern R} (h : run grammar fuel pattern tokens = outcome)
    (hverdict : outcome ≠ .exhausted) : Ends grammar pattern tokens outcome :=
  ⟨hverdict, fuel, h⟩

theorem Ends.unique {pattern : Pattern R} {other : Outcome} (h : Ends grammar pattern tokens outcome)
    (hother : Ends grammar pattern tokens other) : outcome = other := by
  obtain ⟨hverdict, fuel, hrun⟩ := h
  obtain ⟨hverdict', fuel', hrun'⟩ := hother
  rw [← run_of_le hrun hverdict (Nat.le_max_left fuel fuel'),
    run_of_le hrun' hverdict' (Nat.le_max_right fuel fuel')]

theorem Ends.exists_fuel {pattern second : Pattern R} {others : List Token} {other : Outcome}
    (h : Ends grammar pattern tokens outcome) (hother : Ends grammar second others other) :
    ∃ fuel, run grammar fuel pattern tokens = outcome ∧ run grammar fuel second others = other := by
  obtain ⟨hverdict, fuel, hrun⟩ := h
  obtain ⟨hverdict', fuel', hrun'⟩ := hother
  exact ⟨max fuel fuel', run_of_le hrun hverdict (Nat.le_max_left _ _),
    run_of_le hrun' hverdict' (Nat.le_max_right _ _)⟩

theorem Ends.reads {pattern : Pattern R} (h : Ends grammar pattern tokens (.matched trees name rest)) :
    Reads grammar pattern tokens trees name rest := by
  obtain ⟨-, fuel, hrun⟩ := h
  exact reads_of_run hrun

theorem Ends.tokens_eq {pattern : Pattern R} (h : Ends grammar pattern tokens (.matched trees name rest)) :
    leavesOf trees ++ rest = tokens :=
  leavesOf_reads h.reads

/-- Every pattern of the grammar comes to an end. -/
theorem exists_ends {pattern : Pattern Rule} (hshallow : pattern.shallow = true) (tokens : List Token) :
    ∃ outcome, Ends Rule.pattern pattern tokens outcome :=
  ⟨_, (run_and_grow_ne_exhausted _).1 pattern hshallow tokens (Nat.le_refl _), _, rfl⟩

/-! ### Building up -/

theorem Ends.empty : Ends grammar .empty tokens (.matched [] none tokens) := ⟨nofun, 1, rfl⟩

theorem Ends.label (kind : Node) : Ends grammar (.label kind) tokens (.matched [] (some kind) tokens) :=
  ⟨nofun, 1, rfl⟩

theorem Ends.token {test : Test} {token : Token} (htest : test.holds token = true) :
    Ends grammar (.token test) (token :: rest) (.matched [.leaf token] none rest) :=
  ⟨nofun, 1, by rw [run, if_pos htest]⟩

theorem Ends.token_failed {test : Test} (htest : ∀ token, tokens.head? = some token → test.holds token = false) :
    Ends grammar (.token test) tokens .failed := by
  refine ⟨nofun, 1, ?_⟩
  cases tokens with
  | nil => rfl
  | cons token rest => rw [run, if_neg (by simp [htest token rfl])]

theorem Ends.seq (hfirst : Ends grammar first tokens (.matched trees name middle))
    (hsecond : Ends grammar second middle (.matched more later rest)) :
    Ends grammar (.seq first second) tokens (.matched (trees ++ more) (later.or name) rest) := by
  obtain ⟨fuel, h, h'⟩ := hfirst.exists_fuel hsecond
  exact ⟨nofun, fuel + 1, by simp only [run, h, h']⟩

theorem Ends.seq_failed (hfirst : Ends grammar first tokens .failed) (second : Pattern R) :
    Ends grammar (.seq first second) tokens .failed := by
  obtain ⟨-, fuel, h⟩ := hfirst
  exact ⟨nofun, fuel + 1, by simp only [run, h]⟩

theorem Ends.seq_failed_behind (hfirst : Ends grammar first tokens (.matched trees name middle))
    (hsecond : Ends grammar second middle .failed) : Ends grammar (.seq first second) tokens .failed := by
  obtain ⟨fuel, h, h'⟩ := hfirst.exists_fuel hsecond
  exact ⟨nofun, fuel + 1, by simp only [run, h, h']⟩

theorem Ends.left (hfirst : Ends grammar first tokens (.matched trees name rest)) (second : Pattern R) :
    Ends grammar (.alt first second) tokens (.matched trees name rest) := by
  obtain ⟨-, fuel, h⟩ := hfirst
  exact ⟨nofun, fuel + 1, by simp only [run, h]⟩

theorem Ends.right (hfirst : Ends grammar first tokens .failed) (hsecond : Ends grammar second tokens outcome) :
    Ends grammar (.alt first second) tokens outcome := by
  obtain ⟨fuel, h, h'⟩ := hfirst.exists_fuel hsecond
  exact ⟨hsecond.verdict, fuel + 1, by simp only [run, h, h']⟩

theorem Ends.stop (hitem : Ends grammar item tokens .failed) :
    Ends grammar (.many item) tokens (.matched [] none tokens) := by
  obtain ⟨-, fuel, h⟩ := hitem
  exact ⟨nofun, fuel + 1, by simp only [run, h]⟩

theorem Ends.idle (hitem : Ends grammar item tokens (.matched trees name rest))
    (hidle : ¬rest.length < tokens.length) : Ends grammar (.many item) tokens (.matched [] none tokens) := by
  obtain ⟨-, fuel, h⟩ := hitem
  exact ⟨nofun, fuel + 1, by simp only [run, h, if_neg hidle]⟩

theorem Ends.again (hitem : Ends grammar item tokens (.matched trees name middle))
    (hless : middle.length < tokens.length)
    (hmany : Ends grammar (.many item) middle (.matched more later rest)) :
    Ends grammar (.many item) tokens (.matched (trees ++ more) (later.or name) rest) := by
  obtain ⟨fuel, h, h'⟩ := hitem.exists_fuel hmany
  exact ⟨nofun, fuel + 1, by simp only [run, h, h', if_pos hless]⟩

theorem Ends.peek (hitem : Ends grammar item tokens (.matched trees name rest)) :
    Ends grammar (.peek item) tokens (.matched [] none tokens) := by
  obtain ⟨-, fuel, h⟩ := hitem
  exact ⟨nofun, fuel + 1, by simp only [run, h]⟩

theorem Ends.peek_failed (hitem : Ends grammar item tokens .failed) :
    Ends grammar (.peek item) tokens .failed := by
  obtain ⟨-, fuel, h⟩ := hitem
  exact ⟨nofun, fuel + 1, by simp only [run, h]⟩

theorem Ends.absent (hitem : Ends grammar item tokens .failed) :
    Ends grammar (.absent item) tokens (.matched [] none tokens) := by
  obtain ⟨-, fuel, h⟩ := hitem
  exact ⟨nofun, fuel + 1, by simp only [run, h]⟩

theorem Ends.absent_failed (hitem : Ends grammar item tokens (.matched trees name rest)) :
    Ends grammar (.absent item) tokens .failed := by
  obtain ⟨-, fuel, h⟩ := hitem
  exact ⟨nofun, fuel + 1, by simp only [run, h]⟩

theorem Ends.rule {rule : R} (hrule : Ends grammar (grammar rule) tokens (.matched trees name rest)) :
    Ends grammar (.rule rule) tokens (.matched (wrap name trees) none rest) := by
  obtain ⟨-, fuel, h⟩ := hrule
  exact ⟨nofun, fuel + 1, by simp only [run, h]⟩

theorem Ends.unnamed {rule : R} (hrule : Ends grammar (grammar rule) tokens (.matched trees none rest)) :
    Ends grammar (.rule rule) tokens (.matched trees none rest) :=
  hrule.rule

/-- Where nothing more of what may follow is there, the first part stands alone. -/
theorem Ends.without (hfirst : Ends grammar first tokens (.matched trees name rest))
    (hitem : Ends grammar item rest .failed) :
    Ends grammar (.seq first (.maybe item)) tokens (.matched trees name rest) := by
  have h := hfirst.seq (hitem.right .empty)
  rwa [List.append_nil, Option.none_or] at h

theorem Ends.rule_failed {rule : R} (hrule : Ends grammar (grammar rule) tokens .failed) :
    Ends grammar (.rule rule) tokens .failed := by
  obtain ⟨-, fuel, h⟩ := hrule
  exact ⟨nofun, fuel + 1, by simp only [run, h]⟩

theorem Ends.extend (hbase : Ends grammar base tokens (.matched trees name middle))
    (htail : Grows grammar tail (wrap name trees) middle outcome) :
    Ends grammar (.extend base tail) tokens outcome := by
  obtain ⟨-, fuel, h⟩ := hbase
  obtain ⟨hverdict, fuel', h'⟩ := htail
  refine ⟨hverdict, max fuel fuel' + 1, ?_⟩
  simp only [run, run_of_le h (by simp) (Nat.le_max_left fuel fuel'),
    grow_of_le h' hverdict (Nat.le_max_right fuel fuel')]

theorem Ends.extend_failed (hbase : Ends grammar base tokens .failed) (tail : Pattern R) :
    Ends grammar (.extend base tail) tokens .failed := by
  obtain ⟨-, fuel, h⟩ := hbase
  exact ⟨nofun, fuel + 1, by simp only [run, h]⟩

theorem Ends.only {kinds : List Node} {kind : Node} {children : List Tree} (hkind : kind ∈ kinds)
    (hitem : Ends grammar item tokens (.matched [.node kind children] name rest)) :
    Ends grammar (.only kinds item) tokens (.matched [.node kind children] name rest) := by
  obtain ⟨-, fuel, h⟩ := hitem
  exact ⟨nofun, fuel + 1, by simp only [run, h, List.contains_iff_mem.2 hkind, if_true]⟩

theorem Ends.only_failed {kinds : List Node} (hitem : Ends grammar item tokens .failed) :
    Ends grammar (.only kinds item) tokens .failed := by
  obtain ⟨-, fuel, h⟩ := hitem
  exact ⟨nofun, fuel + 1, by simp only [run, h]⟩

theorem Ends.only_other {kinds : List Node} (hitem : Ends grammar item tokens (.matched trees name rest))
    (hother : ∀ kind ∈ kinds, ∀ children, trees ≠ [.node kind children]) :
    Ends grammar (.only kinds item) tokens .failed := by
  obtain ⟨-, fuel, h⟩ := hitem
  refine ⟨nofun, fuel + 1, ?_⟩
  rw [run, h]
  split
  next heq =>
    cases heq
    rw [if_neg]
    rw [List.contains_iff_mem]
    exact fun hkind => hother _ hkind _ rfl
  · rfl
  next hnot => exact absurd rfl (hnot _ _ _)

theorem Grows.stop (htail : Ends grammar tail tokens .failed) :
    Grows grammar tail formed tokens (.matched formed none tokens) := by
  obtain ⟨-, fuel, h⟩ := htail
  exact ⟨nofun, fuel + 1, by simp only [grow, h]⟩

theorem Grows.idle (htail : Ends grammar tail tokens (.matched trees name rest))
    (hidle : ¬rest.length < tokens.length) :
    Grows grammar tail formed tokens (.matched formed none tokens) := by
  obtain ⟨-, fuel, h⟩ := htail
  exact ⟨nofun, fuel + 1, by simp only [grow, h, if_neg hidle]⟩

theorem Grows.again (htail : Ends grammar tail tokens (.matched trees name middle))
    (hless : middle.length < tokens.length)
    (hgrows : Grows grammar tail (wrap name (formed ++ trees)) middle outcome) :
    Grows grammar tail formed tokens outcome := by
  obtain ⟨-, fuel, h⟩ := htail
  obtain ⟨hverdict, fuel', h'⟩ := hgrows
  refine ⟨hverdict, max fuel fuel' + 1, ?_⟩
  simp only [grow, run_of_le h (by simp) (Nat.le_max_left fuel fuel'), if_pos hless,
    grow_of_le h' hverdict (Nat.le_max_right fuel fuel')]

/-! ### Taking apart -/

theorem exists_of_run_token {test : Test}
    (h : run grammar fuel (.token test) tokens = .matched trees name rest) :
    ∃ token, tokens = token :: rest ∧ test.holds token = true ∧ trees = [.leaf token] ∧ name = none := by
  cases reads_of_run h with
  | token _ htest => exact ⟨_, rfl, htest, rfl, rfl⟩

theorem run_many_ne_failed (fuel : Nat) (item : Pattern R) (tokens : List Token) :
    run grammar fuel (.many item) tokens ≠ .failed := by
  induction fuel generalizing tokens with
  | zero =>
    rw [run]
    simp
  | succ fuel ih =>
    rw [run]
    split
    next rest _ =>
      split
      · split
        · simp
        · exact ih rest
      · simp
    · simp
    · simp

theorem run_label {kind : Node} (h : run grammar fuel (.label kind) tokens = .matched trees name rest) :
    trees = [] ∧ name = some kind ∧ rest = tokens := by
  cases fuel with
  | zero => cases h
  | succ fuel =>
    cases h
    exact ⟨rfl, rfl, rfl⟩

end Bundler.Grammar
