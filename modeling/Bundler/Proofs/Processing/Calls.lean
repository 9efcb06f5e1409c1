import Bundler.Proofs.Graph.Entries
import Bundler.Proofs.Processing

/-!
# Calls that build one graph

A graph is built by calls, each of which may fail at any depth, and between which anything may happen
to the world. A call begins and ends with no module in progress on the stack, keeps the registry
consistent and only adds to it (`consistent_start`), so this holds after any calls
(`registry_afterCalls`).
-/

namespace Bundler

variable {σ ε ω : Type}

/-- What a call leaves of a consistent graph, whether it fails or not. -/
theorem Build.consistent_start {around : Surroundings σ ε} (hnames : around.NamesModules)
    {graph : Graph} (hgraph : graph.Consistent) (depth : Nat) (entry : Option String) (path : FilePath)
    (state : σ) :
    (Attempt.start (Build.start around depth entry path) (graph, state)).2.1.Consistent ∧
      graph.modules <+: (Attempt.start (Build.start around depth entry path) (graph, state)).2.1.modules ∧
      (Attempt.start (Build.start around depth entry path) (graph, state)).2.1.stack = graph.stack ∧
      ∀ identity, graph.visit identity = .inProgress →
        (Attempt.start (Build.start around depth entry path) (graph, state)).2.1.visit identity
          = .inProgress := by
  cases hname : Identity.ofPath? around.root path with
  | none =>
    rw [start_start_none around graph state hname]
    exact ⟨hgraph, List.prefix_rfl, rfl, fun _ h => h⟩
  | some identity =>
    have hnamed : (named entry identity graph).modules = graph.modules
        ∧ (named entry identity graph).stack = graph.stack
        ∧ (named entry identity graph).visit = graph.visit := by
      cases entry <;> exact ⟨rfl, rfl, rfl⟩
    obtain ⟨hafter, hgrows, -⟩ := (explores_module around depth path
      (named entry identity graph, state)).consistent hnames (hgraph.named entry)
    have hleft : (Attempt.start (Build.start around depth entry path) (graph, state)).2
        = (Attempt.start (module around depth path) (named entry identity graph, state)).2 := by
      rw [start_start around graph state hname, Attempt.andThen_pure]
    rw [hleft]
    refine ⟨hafter, hnamed.1 ▸ hgrows.modules, hgrows.stack.trans hnamed.2.1, fun other hother => ?_⟩
    exact hgrows.inProgress other (hnamed.2.2 ▸ hother)

theorem Build.done_of_start {around : Surroundings σ ε} {graph : Graph} {depth : Nat}
    {entry : Option String} {path : FilePath} {state : σ} {identity : Identity}
    (hok : (Attempt.start (Build.start around depth entry path) (graph, state)).1 = .ok identity) :
    (Attempt.start (Build.start around depth entry path) (graph, state)).2.1.visit identity = .done := by
  obtain ⟨hname, hexplores⟩ := explores_of_start (Prod.ext hok rfl)
  obtain ⟨other, hother, hdone⟩ := hexplores.done.2 rfl path List.mem_cons_self
  cases hname.symm.trans hother
  exact hdone

/-- A call for a module that is processed and loads nothing succeeds, unless the module is in progress. -/
theorem Build.ok_of_leaf {around : Surroundings σ ε} {graph : Graph} {path : FilePath}
    {identity : Identity} {state looked processed : σ} {code : String}
    (hname : Identity.ofPath? around.root path = some identity)
    (hfile : (around.isFile path).start state = (.ok true, looked))
    (hprocess : (around.process path identity).start looked = (.ok (code, []), processed))
    (hvisit : graph.visit identity ≠ .inProgress) (depth : Nat) (entry : Option String) :
    (Attempt.start (Build.start around (depth + 1) entry path) (graph, state)).1 = .ok identity := by
  have hnamed : (named entry identity graph).visit = graph.visit := by
    cases entry <;> rfl
  rw [← hnamed] at hvisit
  rw [start_start around graph state hname, Attempt.andThen_pure]
  have hexplores := explores_module around (depth + 1) path (named entry identity graph, state)
  generalize Attempt.start (module around (depth + 1) path) (named entry identity graph, state) = answer
    at hexplores ⊢
  obtain ⟨result, after⟩ := answer
  have hnothing : ∀ {depth : Nat} {before after : Graph × σ} {result : Except ε Unit},
      Explores around depth [] before result after → result = .ok () := by
    intro depth before after result h
    cases h
    rfl
  have hok : result = .ok () := by
    cases hexplores with
    | outside hother => cases hname.symm.trans hother
    | known _ _ hrest => exact hnothing hrest
    | cycle hother hprogress =>
      cases hname.symm.trans hother
      exact absurd hprogress hvisit
    | unreadable _ _ hother => cases hfile.symm.trans hother
    | missing _ _ hother => cases hfile.symm.trans hother
    | unprocessed hother _ hlooked hfault =>
      cases hname.symm.trans hother
      cases hfile.symm.trans hlooked
      cases hprocess.symm.trans hfault
    | broken hother _ hlooked hdone hinner =>
      cases hname.symm.trans hother
      cases hfile.symm.trans hlooked
      cases hprocess.symm.trans hdone
      cases hnothing hinner
    | recorded _ _ _ _ _ hrest => exact hnothing hrest
  simp only
  rw [hok]
  rfl

namespace Processing

/-- A call that builds a module: what happens to the world before it, the name under which the module
is an entry, and the file. -/
structure Call (ω : Type) where
  change : World ω → World ω := id
  entry : Option String := none
  path : FilePath

variable (root : FilePath) (naming : Naming) (pipeline : Pipeline ω)

/-- What a call gives, and what it leaves. -/
def Call.start (call : Call ω) (state : Graph × World ω) :
    Except Failure Identity × (Graph × World ω) :=
  Attempt.start (build root naming pipeline call.entry call.path) (state.1, call.change state.2)

/-- What calls leave that begin with an empty graph, whether they fail or not. -/
def afterCalls (world : World ω) (calls : List (Call ω)) : Graph × World ω :=
  calls.foldl (fun state call => (call.start root naming pipeline state).2) ({}, world)

variable {root naming pipeline}

@[simp] theorem afterCalls_nil (world : World ω) :
    afterCalls root naming pipeline world [] = ({}, world) := rfl

theorem afterCalls_append (world : World ω) (calls : List (Call ω)) (call : Call ω) :
    afterCalls root naming pipeline world (calls ++ [call])
      = (call.start root naming pipeline (afterCalls root naming pipeline world calls)).2 := by
  rw [afterCalls, List.foldl_append]
  rfl

theorem Call.consistent_start (call : Call ω) {state : Graph × World ω} (hgraph : state.1.Consistent) :
    (call.start root naming pipeline state).2.1.Consistent ∧
      state.1.modules <+: (call.start root naming pipeline state).2.1.modules ∧
      (call.start root naming pipeline state).2.1.stack = state.1.stack ∧
      ∀ identity, state.1.visit identity = .inProgress →
        (call.start root naming pipeline state).2.1.visit identity = .inProgress := by
  rw [Call.start, start_build]
  exact Build.consistent_start namesModules_surroundings hgraph _ _ _ _

theorem Call.done_of_start (call : Call ω) {state : Graph × World ω} {identity : Identity}
    (hok : (call.start root naming pipeline state).1 = .ok identity) :
    (call.start root naming pipeline state).2.1.visit identity = .done := by
  rw [Call.start, start_build] at hok ⊢
  exact Build.done_of_start hok

theorem consistent_afterCalls (world : World ω) (calls : List (Call ω)) :
    (afterCalls root naming pipeline world calls).1.Consistent ∧
      (afterCalls root naming pipeline world calls).1.stack = [] := by
  induction calls using List.reverseRecOn with
  | nil => exact ⟨.empty, rfl⟩
  | append_singleton calls call ih =>
    obtain ⟨hgraph, -, hstack, -⟩ := call.consistent_start ih.1
    rw [afterCalls_append]
    exact ⟨hgraph, hstack.trans ih.2⟩

/-- After any calls no module is on the stack. The modules done are exactly the modules recorded, each
under its own identity and after all modules it loads. Another call leaves the modules recorded so far
in their places. -/
theorem registry_afterCalls (root : FilePath) (naming : Naming) (pipeline : Pipeline ω)
    (world : World ω) (calls : List (Call ω)) :
    (afterCalls root naming pipeline world calls).1.stack = [] ∧
      (afterCalls root naming pipeline world calls).1.Consistent ∧
      ∀ call : Call ω, (afterCalls root naming pipeline world calls).1.modules
        <+: (afterCalls root naming pipeline world (calls ++ [call])).1.modules := by
  have hafter : (afterCalls root naming pipeline world calls).1.Consistent ∧
      (afterCalls root naming pipeline world calls).1.stack = [] := consistent_afterCalls world calls
  obtain ⟨hgraph, hstack⟩ := hafter
  refine ⟨hstack, hgraph, fun call => ?_⟩
  rw [afterCalls_append]
  exact (call.consistent_start hgraph).2.1

end Processing
end Bundler
