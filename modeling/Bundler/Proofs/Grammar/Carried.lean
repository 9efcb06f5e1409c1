import Bundler.Proofs.Grammar.Cases

/-!
# Reading that carries over

Reading carries over from the trees of a text to the turned ones, within limits on what comes behind
(`Carries`). What stands in a line carries over where the rest of the line does (`Carries.before_line`); a choice
carries over if the first tokens keep apart what may be chosen (`leads_failed`).
-/

namespace Bundler.Grammar

open Bundler.Source (Token TokenKind)

variable {fuel : Nat} {tokens rest left : List Token} {trees others : List Tree}
  {first second item pattern : Pattern Rule} {name : Option Node}

/-! ### Turned trees of a text -/

/-- Trees of a text, and the turned ones. -/
structure Turned (trees others : List Tree) : Prop where
  turns : Turns trees others
  proper : ∀ token ∈ leavesOf trees, Token.Proper token

namespace Turned

theorem of_append {more : List Tree} (h : Turned (trees ++ more) others) :
    ∃ fore last, others = fore ++ last ∧ Turned trees fore ∧ Turned more last := by
  obtain ⟨fore, last, rfl, hfore, hlast⟩ := h.turns.of_append
  have hproper := h.proper
  rw [leavesOf_append, List.forall_mem_append] at hproper
  exact ⟨fore, last, rfl, ⟨hfore, hproper.1⟩, hlast, hproper.2⟩

theorem of_wrap (h : Turned (wrap name trees) others) (hname : name ≠ some .call) :
    ∃ more, others = wrap name more ∧ Turned trees more := by
  obtain ⟨more, rfl, hmore⟩ := h.turns.of_wrap hname
  exact ⟨more, rfl, hmore, by simpa using h.proper⟩

end Turned

/-- No name that is no keyword meets the test. -/
def Test.unnamed : Test → Bool
  | .text word => keywords.contains word || !Text.isIdentifier word
  | .kind wanted => wanted != .name
  | .identifier => false
  | .realNumber | .imaginaryNumber | .plainFormat | .templateFormat => true

theorem Token.IsName.unnamed {token : Token} {test : Test} (h : Token.IsName token)
    (htest : test.unnamed = true) : test.holds token = false := by
  obtain ⟨hkind, hname, hword⟩ := h
  cases test with
  | text word =>
    rw [Bool.eq_false_iff]
    intro hholds
    rw [Test.holds, Bool.and_eq_true, beq_iff_eq] at hholds
    rw [Test.unnamed, ← hholds.2, hname, Bool.not_true, Bool.or_false, List.contains_iff_mem] at htest
    exact hword htest
  | kind wanted =>
    rw [Test.unnamed, bne_iff_ne] at htest
    simpa [Test.holds, hkind] using htest.symm
  | identifier => cases htest
  | _ => simp [Test.holds, hkind]

/-- The first leaf stays, or a name gives way to a name. -/
theorem Turns.head (h : Turns trees others) (hne : leavesOf trees ≠ []) :
    ∃ token twin, (leavesOf trees).head? = some token ∧ (leavesOf others).head? = some twin
      ∧ (twin = token ∨ Token.IsName token ∧ Token.IsName twin) := by
  induction h with
  | nil => exact absurd rfl hne
  | leaf token => exact ⟨token, token, rfl, rfl, .inl rfl⟩
  | @node kind children more trees others hchildren _ ihchildren ih =>
    simp only [leavesOf, Tree.leaves] at hne ⊢
    by_cases hnil : leavesOf children = []
    · have hnil' := hchildren.resemble.leavesOf_eq_nil_iff.1 hnil
      rw [hnil, List.nil_append] at hne ⊢
      rw [hnil', List.nil_append]
      exact ih hne
    · obtain ⟨token, twin, htoken, htwin, hsame⟩ := ihchildren hnil
      exact ⟨token, twin, by simp [htoken], by simp [htwin], hsame⟩
  | call _ hname htwin => exact ⟨_, _, rfl, rfl, .inr ⟨hname, htwin⟩⟩

/-! ### What carries over -/

/-- Reading by the pattern carries over to turned trees, whatever else comes behind them within these limits. -/
structure Carries (fuel : Nat) (limits : Sides) (pattern : Pattern Rule) : Prop where
  carry : ∀ {trees others name rest left}, Turned trees others →
    run Rule.pattern fuel pattern (leavesOf trees ++ rest) = .matched trees name rest → limits rest left →
    Ends Rule.pattern pattern (leavesOf others ++ left) (.matched others name left)

/-- Where the pattern is read, what begins there and its turned twin are within the limits. -/
structure Leads (fuel : Nat) (limits : Sides) (pattern : Pattern Rule) (inner : Sides) : Prop where
  lead : ∀ {trees others name rest left}, Turned trees others →
    run Rule.pattern fuel pattern (leavesOf trees ++ rest) = .matched trees name rest → limits rest left →
    inner (leavesOf trees ++ rest) (leavesOf others ++ left)

/-- Nothing is asked of what comes behind. -/
abbrev Anything : Sides := fun _ _ => True

variable {limits middle : Sides}

theorem leads_anything : Leads fuel limits pattern Anything := ⟨fun _ _ _ => trivial⟩

theorem Leads.imp {inner wide : Sides} (h : Leads fuel limits pattern inner)
    (himp : ∀ rest left, inner rest left → wide rest left) : Leads fuel limits pattern wide :=
  ⟨fun hturned hrun hlimits => himp _ _ (h.lead hturned hrun hlimits)⟩

/-- What may be missing leads where it leads if it is there, and else where it may be missing. -/
theorem leads_maybe {inner : Sides} (h : Leads fuel limits item inner)
    (hnone : ∀ rest left, limits rest left → inner rest left) : Leads fuel limits (.maybe item) inner := by
  refine ⟨fun hturned hrun hlimits => ?_⟩
  obtain hrun | ⟨-, hrun⟩ := cases_of_run_alt (run_of_le hrun nofun (Nat.le_succ fuel))
  · exact h.lead hturned hrun hlimits
  · cases reads_of_run hrun
    cases hturned.turns
    exact hnone _ _ hlimits

/-- Of what is read again and again the first leads on. -/
theorem leads_many {inner : Sides} (h : Leads fuel Anything item inner)
    (hnone : ∀ rest left, limits rest left → inner rest left) : Leads fuel limits (.many item) inner := by
  refine ⟨fun hturned hrun hlimits => ?_⟩
  obtain ⟨rfl, -⟩ | ⟨fore, _, middle, last, _, hfore, -, hlast, rfl, -⟩ :=
    cases_of_run_many (run_of_le hrun nofun (Nat.le_succ fuel))
  · cases hturned.turns
    exact hnone _ _ hlimits
  obtain rfl := leavesOf_reads (reads_of_run hlast)
  obtain ⟨fore', last', rfl, hturned, -⟩ := hturned.of_append
  simp only [leavesOf_append, List.append_assoc] at hfore ⊢
  exact h.lead hturned hfore trivial

theorem leads_label (kind : Node) : Leads fuel limits (.label kind) limits := by
  refine ⟨fun hturned hrun hlimits => ?_⟩
  obtain ⟨rfl, -⟩ := run_label hrun
  cases hturned.turns
  exact hlimits

namespace Carries

theorem zero (limits : Sides) (pattern : Pattern Rule) : Carries 0 limits pattern where
  carry _ h := by
    rw [run] at h
    cases h

theorem imp (h : Carries fuel limits pattern) (himp : ∀ rest left, middle rest left → limits rest left) :
    Carries fuel middle pattern where
  carry hturned hrun hmiddle := h.carry hturned hrun (himp _ _ hmiddle)

theorem empty : Carries fuel limits .empty where
  carry hturned hrun _ := by
    cases reads_of_run hrun
    cases hturned.turns
    exact .empty

theorem token (test : Test) : Carries fuel limits (.token test) where
  carry hturned hrun _ := by
    obtain ⟨token, -, htest, rfl, rfl⟩ := exists_of_run_token hrun
    obtain rfl := hturned.turns.of_leaf
    exact .token htest

theorem label (kind : Node) : Carries fuel limits (.label kind) where
  carry hturned hrun _ := by
    obtain ⟨rfl, rfl, -⟩ := run_label hrun
    cases hturned.turns
    exact .label kind

/-- What stands in a line carries over within the line. -/
theorem inLine (htame : pattern.tame = true) (hopens : pattern.opens = false) :
    Carries fuel Varies pattern where
  carry hturned hrun hrest := hturned.turns.reads (ends_of_run hrun nofun) htame hopens hrest

theorem seq (hfirst : Carries fuel middle first) (hsecond : Carries fuel limits second)
    (hmiddle : Leads fuel limits second middle) : Carries fuel limits (.seq first second) where
  carry hturned hrun hlimits := by
    obtain ⟨fore, _, middle, last, _, hrun, hrun', rfl, rfl⟩ :=
      exists_of_run_seq (run_of_le hrun nofun (Nat.le_succ fuel))
    obtain rfl := leavesOf_reads (reads_of_run hrun')
    obtain ⟨fore', last', rfl, hfore, hlast⟩ := hturned.of_append
    simp only [leavesOf_append, List.append_assoc] at hrun ⊢
    exact (hfirst.carry hfore hrun (hmiddle.lead hlast hrun' hlimits)).seq (hsecond.carry hlast hrun' hlimits)

theorem alt (hfirst : Carries fuel limits first) (hsecond : Carries fuel limits second)
    (hother : Leads fuel limits second fun _ twins => Ends Rule.pattern first twins .failed) :
    Carries fuel limits (.alt first second) where
  carry hturned hrun hlimits := by
    obtain hrun | ⟨-, hrun⟩ := cases_of_run_alt (run_of_le hrun nofun (Nat.le_succ fuel))
    · exact (hfirst.carry hturned hrun hlimits).left _
    · exact (hother.lead hturned hrun hlimits).right (hsecond.carry hturned hrun hlimits)

theorem maybe (hitem : Carries fuel limits item)
    (hnone : ∀ rest left, limits rest left → Ends Rule.pattern item left .failed) :
    Carries fuel limits (.maybe item) := by
  refine hitem.alt .empty ⟨fun hturned hrun hlimits => ?_⟩
  cases reads_of_run hrun
  cases hturned.turns
  exact hnone _ _ hlimits

theorem many (hitem : Carries fuel middle item) (hskips : item.skips = false)
    (hnone : ∀ rest left, limits rest left → Ends Rule.pattern item left .failed)
    (hmiddle : Leads fuel limits (.many item) middle) : Carries fuel limits (.many item) where
  carry {trees others name rest left} hturned hrun hlimits := by
    induction hlength : (leavesOf trees).length using Nat.strongRecOn generalizing trees others name with
    | ind length ih =>
    obtain ⟨rfl, rfl, -⟩ | ⟨fore, _, middle, last, _, hfore, -, hlast, rfl, rfl⟩ :=
      cases_of_run_many (run_of_le hrun nofun (Nat.le_succ fuel))
    · cases hturned.turns
      exact (hnone _ _ hlimits).stop
    obtain rfl := leavesOf_reads (reads_of_run hlast)
    obtain ⟨fore', last', rfl, hturned, hturned'⟩ := hturned.of_append
    have hne : leavesOf fore ≠ [] := by
      intro hnil
      rw [skips_of_reads (reads_of_run hfore) hnil] at hskips
      cases hskips
    have hne' : leavesOf fore' ≠ [] := fun hnil =>
      hne (hturned.turns.resemble.leavesOf_eq_nil_iff.2 hnil)
    simp only [leavesOf_append, List.append_assoc, List.length_append] at hfore hlength ⊢
    have hagain := ih (leavesOf last).length (by have := List.length_pos_iff.2 hne; omega) hturned' hlast rfl
    refine (hitem.carry hturned hfore (hmiddle.lead hturned' hlast hlimits)).again ?_ hagain
    have := List.length_pos_iff.2 hne'
    simp only [List.length_append]
    omega

/-- Where nothing is asked of what comes behind the first, the second may be anything. -/
theorem followed (hfirst : Carries fuel Anything first) (hsecond : Carries fuel limits second) :
    Carries fuel limits (.seq first second) :=
  hfirst.seq hsecond leads_anything

theorem rule {rule : Rule} (h : Carries fuel limits rule.pattern) :
    Carries (fuel + 1) limits (.rule rule) where
  carry {trees others name rest left} hturned hrun hlimits := by
    obtain rfl : name = none := by
      cases reads_of_run hrun
      rfl
    obtain ⟨children, given, hrun, rfl, -⟩ := exists_of_run_rule hrun
    obtain ⟨more, rfl, hmore⟩ := hturned.of_wrap (ne_call_of_run hrun)
    rw [leavesOf_wrap] at hrun ⊢
    exact (h.carry hmore hrun hlimits).rule

end Carries

/-! ### The first token -/

/-- Where this test is met by a token of a text, the other one is not. -/
def Test.excludes : Test → Test → Bool
  | .text word, .text other => other != word
  | .text word, .identifier => keywords.contains word || !Text.isIdentifier word
  | .text _, .kind wanted => wanted != .name && wanted != .operator
  | .text _, _ => true
  | .kind met, .kind wanted => wanted != met
  | .kind met, .text _ => met != .name && met != .operator
  | .kind met, .identifier => met != .name
  | .kind met, .realNumber => met != .number
  | .kind met, .imaginaryNumber => met != .number
  | .kind met, .plainFormat => met != .formatStart
  | .kind met, .templateFormat => met != .formatStart
  | _, _ => false

theorem Test.holds_of_excludes {token : Token} {test other : Test} (hproper : Token.Proper token)
    (htest : test.holds token = true) (hexcludes : test.excludes other = true) : other.holds token = false := by
  cases test with
  | text word =>
    rw [Test.holds, Bool.and_eq_true, beq_iff_eq] at htest
    obtain ⟨hkind, rfl⟩ := htest
    cases other with
    | text wanted =>
      rw [Test.excludes, bne_iff_ne] at hexcludes
      simp [Test.holds, hexcludes.symm]
    | identifier =>
      rw [Test.excludes, Bool.or_eq_true, Bool.not_eq_true'] at hexcludes
      rw [Test.holds]
      rcases hexcludes with hword | hname
      · simp only [hword, Bool.not_true, Bool.and_false]
      · rw [Bool.and_eq_false_iff, beq_eq_false_iff_ne]
        exact .inl fun hkind => Bool.false_ne_true (hname.symm.trans (hproper hkind))
    | kind wanted =>
      rw [Test.excludes, Bool.and_eq_true, bne_iff_ne, bne_iff_ne] at hexcludes
      rw [Bool.or_eq_true, beq_iff_eq, beq_iff_eq] at hkind
      rw [Test.holds, beq_eq_false_iff_ne]
      rintro rfl
      exact hkind.elim hexcludes.1 hexcludes.2
    | _ =>
      rw [Bool.or_eq_true, beq_iff_eq, beq_iff_eq] at hkind
      rcases hkind with hkind | hkind <;> simp [Test.holds, hkind]
  | kind met =>
    rw [Test.holds, beq_iff_eq] at htest
    subst htest
    cases other <;> simp_all [Test.excludes, Test.holds]
    rintro rfl
    exact absurd rfl hexcludes
  | _ => cases hexcludes

/-- There is a first token, and it meets none of the tests. -/
def Misses (tests : List Test) (tokens : List Token) : Prop :=
  ∃ token, tokens.head? = some token ∧ ∀ test ∈ tests, test.holds token = false

variable {tests : List Test}

theorem Misses.fails (h : Misses tests tokens) (hbegins : pattern.beginsWith tests = true) :
    Ends Rule.pattern pattern tokens .failed := by
  obtain ⟨token, htoken, htests⟩ := h
  exact .fails_at hbegins htests htoken

theorem Misses.turned (h : Misses tests (leavesOf trees ++ rest)) (hturns : Turns trees others)
    (hne : leavesOf trees ≠ []) (hunnamed : tests.all Test.unnamed = true) :
    Misses tests (leavesOf others ++ left) := by
  obtain ⟨token, htoken, htests⟩ := h
  obtain ⟨first, twin, hfirst, htwin, hsame⟩ := hturns.head hne
  obtain rfl : first = token := by
    rw [List.head?_append, hfirst] at htoken
    simpa using htoken
  refine ⟨twin, by rw [List.head?_append, htwin]; rfl, fun test htest => ?_⟩
  rcases hsame with rfl | ⟨-, hname⟩
  · exact htests test htest
  · exact hname.unnamed (List.all_eq_true.1 hunnamed test htest)

/-- The pattern takes a token first that meets none of the tests. -/
def Pattern.avoids (tests : List Test) (pattern : Pattern Rule) : Bool :=
  !pattern.skips && tests.all fun test => pattern.stopsAt test.excludes

theorem leavesOf_ne_nil (h : Reads Rule.pattern pattern tokens trees name rest) (hskips : pattern.skips = false) :
    leavesOf trees ≠ [] := by
  intro hnil
  rw [skips_of_reads h hnil] at hskips
  cases hskips

theorem misses_of_reads (h : Reads Rule.pattern pattern (leavesOf trees ++ rest) trees name rest)
    (hproper : ∀ token ∈ leavesOf trees, Token.Proper token) (havoids : pattern.avoids tests = true) :
    Misses tests (leavesOf trees ++ rest) := by
  rw [Pattern.avoids, Bool.and_eq_true, Bool.not_eq_true', List.all_eq_true] at havoids
  obtain ⟨token, more, htokens⟩ := List.exists_cons_of_ne_nil (leavesOf_ne_nil h havoids.1)
  have hhead : (leavesOf trees ++ rest).head? = some token := by rw [htokens]; rfl
  refine ⟨token, hhead, fun test htest => ?_⟩
  rw [Bool.eq_false_iff]
  intro hholds
  refine not_reads_of_stopsAt (havoids.2 test htest) (fun other hexcludes => ?_) hhead h
  exact Test.holds_of_excludes (hproper token (by simp [htokens])) hholds hexcludes

/-- Where a pattern is read, its turned twin does not begin with these tests. -/
theorem leads_misses (havoids : pattern.avoids tests = true) (hunnamed : tests.all Test.unnamed = true) :
    Leads fuel limits pattern fun _ twins => Misses tests twins := by
  refine ⟨fun hturned hrun _ => ?_⟩
  have hreads := reads_of_run hrun
  have hskips : pattern.skips = false := by
    rw [Pattern.avoids, Bool.and_eq_true, Bool.not_eq_true'] at havoids
    exact havoids.1
  exact (misses_of_reads hreads hturned.proper havoids).turned hturned.turns (leavesOf_ne_nil hreads hskips) hunnamed

theorem leads_failed (tests : List Test) (havoids : pattern.avoids tests = true)
    (hunnamed : tests.all Test.unnamed = true) (hbegins : first.beginsWith tests = true) :
    Leads fuel limits pattern fun _ twins => Ends Rule.pattern first twins .failed :=
  ⟨fun hturned hrun hlimits => ((leads_misses havoids hunnamed).lead hturned hrun hlimits).fails hbegins⟩

/-! ### The end of a line -/

namespace Pattern

/-- Among the tokens that the pattern reads is the end of a line. -/
def endsLine : Pattern Rule → Bool
  | .token test => test == .kind .newline
  | .seq first second => endsLine first || endsLine second
  | .alt first second => endsLine first && endsLine second
  | .rule name => name == .block || name == .simpleStatements
  | _ => false

/-- Among the tokens that the pattern reads is no end of a line. -/
def dry : Pattern Rule → Bool
  | .token test => test != .kind .newline
  | .seq first second | .alt first second | .extend first second => dry first && dry second
  | .many item | .only _ item => dry item
  | .rule name => name.inLine
  | .empty | .label _ | .peek _ | .absent _ => true

end Pattern

theorem Rule.endsLine_pattern (rule : Rule) :
    (Pattern.rule rule).endsLine = true → rule.pattern.endsLine = true := by
  cases rule <;> decide

theorem Rule.dry_pattern (rule : Rule) : rule.inLine = true → rule.pattern.dry = true := by
  cases rule <;> decide

theorem line_of_reads (h : Reads Rule.pattern pattern tokens trees name rest) (hline : pattern.endsLine = true) :
    ∃ token ∈ leavesOf trees, token.kind = .newline := by
  induction h with
  | token _ htest =>
    rw [Pattern.endsLine, beq_iff_eq] at hline
    subst hline
    exact ⟨_, List.mem_singleton_self _, by simpa [Test.holds] using htest⟩
  | seq _ _ ihfirst ihsecond =>
    rw [Pattern.endsLine, Bool.or_eq_true] at hline
    rw [leavesOf_append]
    rcases hline with hline | hline
    · obtain ⟨token, hmem, hkind⟩ := ihfirst hline
      exact ⟨token, List.mem_append_left _ hmem, hkind⟩
    · obtain ⟨token, hmem, hkind⟩ := ihsecond hline
      exact ⟨token, List.mem_append_right _ hmem, hkind⟩
  | left _ _ ih =>
    rw [Pattern.endsLine, Bool.and_eq_true] at hline
    exact ih hline.1
  | right _ _ ih =>
    rw [Pattern.endsLine, Bool.and_eq_true] at hline
    exact ih hline.2
  | @rule rule _ _ _ _ _ ih =>
    rw [leavesOf_wrap]
    exact ih (rule.endsLine_pattern hline)
  | _ => cases hline

theorem dry_of_reads (h : Reads Rule.pattern pattern tokens trees name rest) (hdry : pattern.dry = true) :
    ∀ token ∈ leavesOf trees, token.kind ≠ .newline := by
  induction h with
  | token _ htest =>
    rw [Pattern.dry, bne_iff_ne] at hdry
    intro token hmem hkind
    rw [leavesOf, Tree.leaves, leavesOf, List.append_nil, List.mem_singleton] at hmem
    subst hmem
    have hpasses : Token.Passes token [.kind token.kind] := Token.passes_kind (by simp [hkind])
    have hsame := hpasses _ htest
    rw [hkind, List.mem_singleton] at hsame
    exact hdry hsame
  | seq _ _ ihfirst ihsecond =>
    rw [Pattern.dry, Bool.and_eq_true] at hdry
    rw [leavesOf_append, List.forall_mem_append]
    exact ⟨ihfirst hdry.1, ihsecond hdry.2⟩
  | left _ _ ih =>
    rw [Pattern.dry, Bool.and_eq_true] at hdry
    exact ih hdry.1
  | right _ _ ih =>
    rw [Pattern.dry, Bool.and_eq_true] at hdry
    exact ih hdry.2
  | again _ _ ihitem ihmany =>
    rw [leavesOf_append, List.forall_mem_append]
    exact ⟨ihitem hdry, ihmany hdry⟩
  | @rule rule _ _ _ _ _ ih =>
    rw [leavesOf_wrap]
    exact ih (rule.dry_pattern hdry)
  | base _ _ ih =>
    rw [Pattern.dry, Bool.and_eq_true] at hdry
    rw [leavesOf_wrap]
    exact ih hdry.1
  | tail _ _ ihformed ihtail =>
    have hparts := hdry
    rw [Pattern.dry, Bool.and_eq_true] at hparts
    rw [leavesOf_wrap, leavesOf_append, List.forall_mem_append]
    exact ⟨ihformed hdry, ihtail hparts.2⟩
  | only _ _ ih => exact ih hdry
  | _ => exact List.forall_mem_nil _

theorem leads_varies (hline : pattern.endsLine = true) : Leads fuel limits pattern Varies :=
  ⟨fun hturned hrun _ => hturned.turns.varies_or_line (.inr (line_of_reads (reads_of_run hrun) hline))⟩

/-- What stands in a line carries over in front of the end of the line. -/
theorem Carries.before_line (htame : first.tame = true) (hopens : first.opens = false)
    (hsecond : Carries fuel limits second) (hline : second.endsLine = true) :
    Carries fuel limits (.seq first second) :=
  (Carries.inLine htame hopens).seq hsecond (leads_varies hline)

end Bundler.Grammar
