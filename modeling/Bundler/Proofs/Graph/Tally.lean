import Bundler.Proofs.Graph.Entries

/-!
# The work on each module

Where the surroundings keep a tally of the steps of the work on each module, building begins that work
once: the steps of a module are none before it is visited, and afterwards those of processing it one
time, whatever is built later (`Explores.tallied`). This holds at every moment of the recursion, so also
of what a failure leaves.
-/

namespace Bundler

variable {σ ε τ : Type}

/-- Looking at files takes no step, and processing takes steps of that module alone. If there were none
before, they are steps that lead to what processing gives. -/
structure Surroundings.Tallies (around : Surroundings σ ε) (steps : σ → Identity → List τ)
    (leads : FilePath → Identity → List τ → Except ε (String × List Identity) → Prop) : Prop where
  isFile : ∀ path state, steps ((around.isFile path).start state).2 = steps state
  others : ∀ path identity state other, other ≠ identity →
    steps ((around.process path identity).start state).2 other = steps state other
  process : ∀ path identity state, steps state identity = [] →
    leads path identity (steps ((around.process path identity).start state).2 identity)
      ((around.process path identity).start state).1

/-- A module that is not visited has no steps. The others have the steps of being processed one time,
and those that are recorded were recorded with what the steps lead to. -/
structure Graph.Tallied (graph : Graph) (steps : Identity → List τ)
    (leads : FilePath → Identity → List τ → Except ε (String × List Identity) → Prop) : Prop where
  unvisited : ∀ identity, graph.visit identity = .unvisited → steps identity = []
  visited : ∀ identity, graph.visit identity ≠ .unvisited →
    ∃ path result, leads path identity (steps identity) result
  recorded : ∀ entry ∈ graph.modules,
    leads entry.2.path entry.1 (steps entry.1) (.ok (entry.2.code, entry.2.dependencies))

/-- What is visited stays so, and no step is added to it. -/
def Graph.Untouched (graph later : Graph) (steps steps' : Identity → List τ) : Prop :=
  ∀ identity, graph.visit identity ≠ .unvisited →
    later.visit identity ≠ .unvisited ∧ steps' identity = steps identity

namespace Graph

variable {graph later last : Graph} {steps steps' steps'' : Identity → List τ}
  {leads : FilePath → Identity → List τ → Except ε (String × List Identity) → Prop}
  {identity : Identity}

theorem Untouched.refl (graph : Graph) (steps : Identity → List τ) :
    graph.Untouched graph steps steps :=
  fun _ h => ⟨h, rfl⟩

theorem Untouched.trans (h : graph.Untouched later steps steps')
    (h' : later.Untouched last steps' steps'') : graph.Untouched last steps steps'' := by
  intro identity hvisit
  obtain ⟨hlater, hsteps⟩ := h identity hvisit
  obtain ⟨hlast, hsteps'⟩ := h' identity hlater
  exact ⟨hlast, hsteps'.trans hsteps⟩

theorem Tallied.empty : ({} : Graph).Tallied (fun _ => []) leads where
  unvisited _ _ := rfl
  visited _ h := absurd rfl h
  recorded _ h := by cases h

theorem Tallied.leave (h : graph.Tallied steps leads) : graph.leave.Tallied steps leads :=
  ⟨h.unvisited, h.visited, h.recorded⟩

/-- Entering a module and processing it adds the steps of that module, and of no other. -/
theorem Tallied.enter (h : graph.Tallied steps leads) (hgraph : graph.Consistent)
    (hvisit : graph.visit identity = .unvisited)
    (hothers : ∀ other, other ≠ identity → steps' other = steps other) {path : FilePath}
    {result : Except ε (String × List Identity)} (hleads : leads path identity (steps' identity) result) :
    (graph.enter identity).Tallied steps' leads ∧
      graph.Untouched (graph.enter identity) steps steps' := by
  have hother : ∀ other, graph.visit other ≠ .unvisited → other ≠ identity :=
    fun other hvisited heq => hvisited (heq ▸ hvisit)
  refine ⟨⟨?_, ?_, ?_⟩, ?_⟩
  · intro other hnot
    rw [visit_enter] at hnot
    split at hnot
    · cases hnot
    next hne =>
    rw [hothers other hne]
    exact h.unvisited other hnot
  · intro other hvisited
    by_cases heq : other = identity
    · exact ⟨path, result, heq ▸ hleads⟩
    · rw [visit_enter, if_neg heq] at hvisited
      rw [hothers other heq]
      exact h.visited other hvisited
  · intro entry hentry
    have hdone : graph.visit entry.1 = .done :=
      (hgraph.done_iff entry.1).2 (List.mem_map_of_mem hentry)
    rw [hothers entry.1 (hother entry.1 (by simp [hdone]))]
    exact h.recorded entry hentry
  · intro other hvisited
    have hne := hother other hvisited
    rw [visit_enter, if_neg hne]
    exact ⟨hvisited, hothers other hne⟩

theorem Tallied.record (h : graph.Tallied steps leads) {module : ModuleRecord}
    (hmodules : (graph.record module).modules = graph.modules ++ [(module.identity, module)])
    (hvisit : graph.visit module.identity ≠ .unvisited)
    (hleads : leads module.path module.identity (steps module.identity)
      (.ok (module.code, module.dependencies))) :
    (graph.record module).Tallied steps leads ∧ graph.Untouched (graph.record module) steps steps := by
  have hvisits : ∀ other, (graph.record module).visit other ≠ .unvisited
      ↔ graph.visit other ≠ .unvisited := by
    intro other
    rw [visit_record]
    split
    · next heq => simpa [heq] using hvisit
    · rfl
  refine ⟨⟨?_, fun other hother => h.visited other ((hvisits other).1 hother), ?_⟩,
    fun other hother => ⟨(hvisits other).2 hother, rfl⟩⟩
  · intro other hother
    refine h.unvisited other (not_not.1 fun hvisited => ?_)
    exact (hvisits other).2 hvisited hother
  · intro entry hentry
    rw [hmodules, List.mem_append, List.mem_singleton] at hentry
    rcases hentry with hentry | rfl
    · exact h.recorded entry hentry
    · exact hleads

end Graph

namespace Build

variable {around : Surroundings σ ε} {steps : σ → Identity → List τ}
  {leads : FilePath → Identity → List τ → Except ε (String × List Identity) → Prop}

theorem Explores.tallied (haround : around.Tallies steps leads) (hnames : around.NamesModules)
    {depth : Nat} {paths : List FilePath} {before after : Graph × σ} {result : Except ε Unit}
    (h : Explores around depth paths before result after) (hgraph : before.1.Consistent)
    (hbefore : before.1.Tallied (steps before.2) leads) :
    after.1.Tallied (steps after.2) leads ∧
      before.1.Untouched after.1 (steps before.2) (steps after.2) := by
  have hlook : ∀ {path : FilePath} {state looked : σ} {answer : Except ε Bool},
      (around.isFile path).start state = (answer, looked) → steps looked = steps state := by
    intro path state looked answer hfile
    have hsteps := haround.isFile path state
    rwa [hfile] at hsteps
  have henter : ∀ {path : FilePath} {identity : Identity} {graph : Graph} {state looked processed : σ}
      {answer : Except ε Bool} {outcome : Except ε (String × List Identity)}, graph.Consistent →
      graph.Tallied (steps state) leads → graph.visit identity = .unvisited →
      (around.isFile path).start state = (answer, looked) →
      (around.process path identity).start looked = (outcome, processed) →
      (graph.enter identity).Tallied (steps processed) leads ∧
        graph.Untouched (graph.enter identity) (steps state) (steps processed) ∧
        leads path identity (steps processed identity) outcome := by
    intro path identity graph state looked processed answer outcome hconsistent htallied hvisit hfile
      hprocess
    have hnone : steps looked identity = [] := by
      rw [hlook hfile]
      exact htallied.unvisited identity hvisit
    have hleads := haround.process path identity looked hnone
    have hothers := haround.others path identity looked
    rw [hprocess] at hleads hothers
    rw [hlook hfile] at hothers
    obtain ⟨hentered, huntouched⟩ := htallied.enter hconsistent hvisit hothers hleads
    exact ⟨hentered, huntouched, hleads⟩
  induction h with
  | nothing | tooDeep | outside | cycle => exact ⟨hbefore, .refl _ _⟩
  | known hname hvisit hrest ih => exact ih hgraph hbefore
  | unreadable hname hvisit hfile | missing hname hvisit hfile =>
    rw [hlook hfile]
    exact ⟨hbefore, .refl _ _⟩
  | unprocessed hname hvisit hfile hprocess =>
    obtain ⟨hentered, huntouched, -⟩ := henter hgraph hbefore hvisit hfile hprocess
    exact ⟨hentered.leave, huntouched⟩
  | broken hname hvisit hfile hprocess hinner ih =>
    obtain ⟨hentered, huntouched, -⟩ := henter hgraph hbefore hvisit hfile hprocess
    obtain ⟨hafter, huntouched'⟩ := ih (hgraph.enter hvisit) hentered
    exact ⟨hafter.leave, huntouched.trans huntouched'⟩
  | recorded hname hvisit hfile hprocess hinner hrest ihInner ihRest =>
    rename_i path rest graph state identity looked code dependencies processed inner last result after
    obtain ⟨hentered, huntouched, hleads⟩ := henter hgraph hbefore hvisit hfile hprocess
    obtain ⟨hconsistent, hmodules⟩ := hinner.recordable hnames hname hprocess hgraph hvisit
    obtain ⟨hafter, huntouched'⟩ := ihInner (hgraph.enter hvisit) hentered
    -- the steps of the module are those of processing it, also after the modules it loads
    obtain ⟨hinProgress, hsame⟩ := huntouched' identity (by simp [Graph.visit_enter])
    obtain ⟨hrecord, huntouchedRecord⟩ := hafter.leave.record hmodules hinProgress (hsame ▸ hleads)
    obtain ⟨hlast, huntouchedRest⟩ := ihRest hconsistent hrecord
    exact ⟨hlast, ((huntouched.trans huntouched').trans huntouchedRecord).trans huntouchedRest⟩

/-- A call works on modules that were not visited before, on each one time. -/
theorem tallied_start (haround : around.Tallies steps leads) (hnames : around.NamesModules)
    {graph : Graph} (hgraph : graph.Consistent) (state : σ) (hbefore : graph.Tallied (steps state) leads)
    (depth : Nat) (entry : Option String) (path : FilePath) :
    (Attempt.start (start around depth entry path) (graph, state)).2.1.Tallied
        (steps (Attempt.start (start around depth entry path) (graph, state)).2.2) leads ∧
      graph.Untouched (Attempt.start (start around depth entry path) (graph, state)).2.1 (steps state)
        (steps (Attempt.start (start around depth entry path) (graph, state)).2.2) := by
  cases hname : Identity.ofPath? around.root path with
  | none =>
    rw [start_start_none around graph state hname]
    exact ⟨hbefore, .refl _ _⟩
  | some identity =>
    have hnamed : (named entry identity graph).Tallied (steps state) leads := by
      cases entry <;> exact ⟨hbefore.unvisited, hbefore.visited, hbefore.recorded⟩
    have hvisit : (named entry identity graph).visit = graph.visit := by
      cases entry <;> rfl
    obtain ⟨hafter, huntouched⟩ := (explores_module around depth path
      (named entry identity graph, state)).tallied haround hnames (hgraph.named entry) hnamed
    rw [start_start around graph state hname, Attempt.andThen_pure]
    refine ⟨hafter, fun other hother => huntouched other ?_⟩
    rw [hvisit]
    exact hother

end Build
end Bundler
