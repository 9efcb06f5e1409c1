import Bundler.Proofs.Graph.Evidence
import Bundler.Proofs.Processing.Faults

/-!
# What the failures of calls show

Whatever calls were made before on the same graph, a cycle that a call ends with is one of modules each of
which loads the next, and a file that it misses is none; if an importer is named, it loads that file after
files that are recorded (`evidence_of_call`).
-/

namespace Bundler.Processing

variable {ω : Type} {root : FilePath} {naming : Naming} {pipeline : Pipeline ω}

theorem injective_graphFailure : Function.Injective graphFailure := by
  intro fault other h
  cases fault <;> cases other <;> simp_all [graphFailure]

theorem apart_surroundings : (surroundings root naming pipeline).Apart where
  injective := injective_graphFailure
  isFile _ world fault h := foreign_of_isFile world h fault rfl
  process path identity world fault h := faultsBy_process path identity world _ h fault rfl

/-- Processing a module inside a call gives the modules that it loads. -/
def Call.Gives (root : FilePath) (naming : Naming) (pipeline : Pipeline ω) (call : Call ω)
    (state : Graph × World ω) (identity : Identity) (dependencies : List Identity) : Prop :=
  Build.Gives (surroundings root naming pipeline) ((call.change state.2).tree.nodes.length + 2)
    call.entry call.path (state.1, call.change state.2) identity dependencies

/-- After any calls, a cycle that a call ends with is a loop of modules, each of which loads the next. A
module that it ends with as missing is no file. No importer is named just when the call is for that module;
an importer loads it, and all modules that it loads before that one are recorded. -/
theorem evidence_of_call (root : FilePath) (naming : Naming) (pipeline : Pipeline ω) (world : World ω)
    (calls : List (Call ω)) (call : Call ω) :
    (∀ cycle, outcomeAfter root naming pipeline world calls call = .error (.bundle (.cycle cycle)) →
      IsLoop (Build.Lists
        (call.Gives root naming pipeline (afterCalls root naming pipeline world calls))) cycle) ∧
    ∀ identity importer,
      outcomeAfter root naming pipeline world calls call
        = .error (.bundle (.unresolved identity importer)) →
      (call.change (afterCalls root naming pipeline world calls).2).tree.isFile (identity.path root)
          = .ok false ∧
        (importer = none ↔ Identity.ofPath? root call.path = some identity) ∧
        ∀ loader, importer = some loader → ∃ earlier later,
          call.Gives root naming pipeline (afterCalls root naming pipeline world calls) loader
            (earlier ++ identity :: later) ∧
          identity ∉ earlier ∧ ∀ dependency ∈ earlier,
            dependency ∈ (afterCalls root naming pipeline world (calls ++ [call])).1.identities := by
  obtain ⟨hgraph, hstack⟩ : (afterCalls root naming pipeline world calls).1.Consistent ∧
      (afterCalls root naming pipeline world calls).1.stack = [] := consistent_afterCalls world calls
  rw [afterCalls_append]
  simp only [outcomeAfter, Call.start, start_build]
  refine ⟨fun cycle h => ?_, fun identity importer h => ?_⟩
  · exact Build.isLoop_of_start apart_surroundings namesModules_surroundings hgraph hstack h
  · obtain ⟨hfile, himporter, hloader⟩ := Build.missing_of_start apart_surroundings
      namesModules_surroundings (fixed_surroundings _) hgraph hstack rfl h
    exact ⟨mapError_eq_ok_iff.1 hfile, himporter, hloader⟩

/-- The modules of the cycle that a call ends with. -/
def cycle? : Except Failure Identity → Option (List Identity)
  | .error (.bundle (.cycle identities)) => some identities
  | _ => none

theorem eq_of_cycle? {result : Except Failure Identity} {identities : List Identity}
    (h : cycle? result = some identities) : result = .error (.bundle (.cycle identities)) := by
  unfold cycle? at h
  split at h
  · cases h
    rfl
  · cases h

theorem isComponent_leaf : isComponent "leaf.py" = true := by decide +kernel

theorem isComponent_odd : isComponent "odd.py" = true := by decide +kernel

theorem isComponent_even : isComponent "even.py" = true := by decide +kernel

/-- A world with a module that loads a missing one after one that is there, and with two modules that load
each other. -/
def tangledWorld : World Unit where
  tree := ⟨.root,
    [([⟨"main.py", isComponent_main⟩], .file "require('./leaf')\nrequire('./gone')\n".toUTF8),
      ([⟨"leaf.py", isComponent_leaf⟩], .file "".toUTF8),
      ([⟨"odd.py", isComponent_odd⟩], .file "require('./even')\n".toUTF8),
      ([⟨"even.py", isComponent_even⟩], .file "require('./leaf')\nrequire('./odd')\n".toUTF8)]⟩
  console := .start []
  registry := {}
  memory := ()

def oddCall : Call Unit where
  path := ⟨.root, [⟨"odd.py", isComponent_odd⟩]⟩

/-- A call misses a file, after one that is recorded; the next call ends with a cycle. -/
theorem evidence_of_call_tangled :
    outcomeAfter ⟨.root, []⟩ {} [] tangledWorld [] gapCall
        = .error (.bundle (.unresolved "./gone.py" (some "./main.py"))) ∧
      tangledWorld.tree.isFile (Identity.path ⟨.root, []⟩ "./gone.py") = .ok false ∧
      (∃ earlier later, gapCall.Gives ⟨.root, []⟩ {} [] (afterCalls ⟨.root, []⟩ {} [] tangledWorld [])
          "./main.py" (earlier ++ "./gone.py" :: later) ∧ "./gone.py" ∉ earlier ∧
        ∀ dependency ∈ earlier,
          dependency ∈ (afterCalls ⟨.root, []⟩ {} [] tangledWorld [gapCall]).1.identities) ∧
      outcomeAfter ⟨.root, []⟩ {} [] tangledWorld [gapCall] oddCall
        = .error (.bundle (.cycle ["./odd.py", "./even.py", "./odd.py"])) ∧
      IsLoop (Build.Lists (oddCall.Gives ⟨.root, []⟩ {} []
        (afterCalls ⟨.root, []⟩ {} [] tangledWorld [gapCall]))) ["./odd.py", "./even.py", "./odd.py"] := by
  have hmissing : outcomeAfter ⟨.root, []⟩ {} [] tangledWorld [] gapCall
      = .error (.bundle (.unresolved "./gone.py" (some "./main.py"))) :=
    eq_of_unresolved? (by decide +kernel)
  have hcycle : outcomeAfter ⟨.root, []⟩ {} [] tangledWorld [gapCall] oddCall
      = .error (.bundle (.cycle ["./odd.py", "./even.py", "./odd.py"])) :=
    eq_of_cycle? (by decide +kernel)
  obtain ⟨hfile, -, hloader⟩ :=
    (evidence_of_call ⟨.root, []⟩ {} [] tangledWorld [] gapCall).2 _ _ hmissing
  have hloop := (evidence_of_call ⟨.root, []⟩ {} [] tangledWorld [gapCall] oddCall).1 _ hcycle
  exact ⟨hmissing, hfile, hloader _ rfl, hcycle, hloop⟩

end Bundler.Processing
