import Bundler.Proofs.Agreement
import Bundler.Proofs.Graph.Requests

/-!
# Building a second time

A call that succeeded succeeds in other surroundings too, with the same graph, if these answer alike for
the files of the modules that the first call recorded (`start_again`): a call asks for no other file. A
module that is done is not looked at again, whatever the surroundings (`start_of_done`).
-/

namespace Bundler

variable {σ ε : Type}

/-- Looking at a good file and processing it gives in the second of two states that agree what it gave in
the first one. -/
structure Surroundings.Repeats (around : Surroundings σ ε) (agree : σ → σ → Prop)
    (good : FilePath → Prop) : Prop where
  isFile : ∀ path state other looked, good path → agree state other →
    (around.isFile path).start state = (.ok true, looked) →
    ∃ looked', (around.isFile path).start other = (.ok true, looked') ∧ agree looked looked'
  process : ∀ path identity, good path → (around.process path identity).Repeats agree

namespace Build

variable {around : Surroundings σ ε} {agree : σ → σ → Prop} {good : FilePath → Prop}
  {depth depth' : Nat} {paths : List FilePath} {path : FilePath} {identity : Identity}
  {graph after : Graph} {state other last : σ} {entry : Option String}

theorem Explores.again (haround : around.Repeats agree good) (hnames : around.NamesModules)
    {before ended : Graph × σ} {result : Except ε Unit}
    (h : Explores around depth paths before result ended) (hok : result = .ok ())
    (hgraph : before.1.Consistent) (hgood : ∀ entry ∈ ended.1.modules, good entry.2.path)
    (hagree : agree before.2 other) (hdepth : depth ≤ depth') :
    ∃ later, Explores around depth' paths (before.1, other) (.ok ()) (ended.1, later) ∧
      agree ended.2 later := by
  induction h generalizing other depth' with
  | nothing => exact ⟨other, .nothing _ _, hagree⟩
  | known hname hvisit _ ih =>
    obtain ⟨depth', rfl⟩ : ∃ less, depth' = less + 1 := ⟨depth' - 1, by omega⟩
    obtain ⟨later, hrest, hlater⟩ := ih hok hgraph hgood hagree hdepth
    exact ⟨later, .known hname hvisit hrest, hlater⟩
  | recorded hname hvisit hfile hprocess hinner hrest ihInner ihRest =>
    rename_i path rest graph state identity looked code dependencies processed inner last result ended
    obtain ⟨depth', rfl⟩ : ∃ less, depth' = less + 1 := ⟨depth' - 1, by omega⟩
    obtain ⟨hconsistent, hmodules⟩ := hinner.recordable hnames hname hprocess hgraph hvisit
    -- everything recorded so far is there in the end
    have hsubset := (hrest.consistent hnames hconsistent).2.1.modules.subset
    rw [hmodules, List.append_subset, List.cons_subset] at hsubset
    have hpath : good path := hgood _ hsubset.2.1
    obtain ⟨looked', hfile', hlooked⟩ := haround.isFile path state other looked hpath hagree hfile
    obtain ⟨processed', hprocess', hprocessed⟩ :=
      haround.process path identity hpath looked looked' _ processed hlooked hprocess
    obtain ⟨last', hinner', hlast⟩ := ihInner rfl (hgraph.enter hvisit)
      (fun entry hentry => hgood entry (hsubset.1 hentry)) hprocessed (Nat.le_of_succ_le_succ hdepth)
    obtain ⟨later, hrest', hlater⟩ := ihRest hok hconsistent hgood hlast hdepth
    exact ⟨later, .recorded hname hvisit hfile' hprocess' hinner' hrest', hlater⟩
  | _ => cases hok

/-- A call that succeeded succeeds again, with the same graph. -/
theorem start_again (haround : around.Repeats agree good) (hnames : around.NamesModules)
    (h : Attempt.start (start around depth entry path) (graph, state) = (.ok identity, (after, last)))
    (hgraph : graph.Consistent) (hgood : ∀ entry ∈ after.modules, good entry.2.path)
    (hagree : agree state other) (hdepth : depth ≤ depth') :
    ∃ later, Attempt.start (start around depth' entry path) (graph, other)
        = (.ok identity, (after, later)) ∧ agree last later := by
  obtain ⟨hname, hexplores⟩ := start_start_eq_ok_iff.1 h
  obtain ⟨later, hlater, hlast⟩ := hexplores.again haround hnames rfl (hgraph.named entry) hgood hagree
    hdepth
  exact ⟨later, start_start_eq_ok_iff.2 ⟨hname, hlater⟩, hlast⟩

theorem grows_of_start (hnames : around.NamesModules)
    (h : Attempt.start (start around depth entry path) (graph, state) = (.ok identity, (after, last)))
    (hgraph : graph.Consistent) :
    Identity.ofPath? around.root path = some identity ∧ after.Consistent ∧
      (named entry identity graph).Grows after ∧ after.visit identity = .done := by
  obtain ⟨hname, hexplores⟩ := explores_of_start h
  obtain ⟨hafter, hgrows, hdone⟩ := hexplores.consistent hnames (hgraph.named entry)
  obtain ⟨built, hbuilt, hvisit⟩ := hdone rfl path List.mem_cons_self
  obtain rfl : identity = built := Option.some.inj (hname.symm.trans hbuilt)
  exact ⟨hname, hafter, hgrows, hvisit⟩

/-- A module that is done is not looked at again, and an entry that is there already is not changed. -/
theorem start_of_done {name : String} (hname : Identity.ofPath? around.root path = some identity)
    (hvisit : graph.visit identity = .done)
    (hentry : Data.fieldOf? name graph.entries = some identity) (state : σ) :
    Attempt.start (start around (depth + 1) (some name) path) (graph, state)
      = (.ok identity, (graph, state)) := by
  have hnamed : named (some name) identity graph = graph := by
    simp only [named, Graph.addEntry, Data.setField_eq_self hentry]
  rw [start_start around graph state hname, hnamed, start_module_done hname hvisit]
  rfl

end Build
end Bundler
