import Bundler.Proofs.Graph.Reachability

/-!
# Entries of a graph

Building an entry of a steady graph adds the entry and every module that it leads to
(`Assembled.entry`), and it succeeds where all of these are sound and lie on no cycle
(`Assembled.succeeds`). `Assembled` is what holds between one entry and the next.

A module is recorded with what processing it gave, and it is an entry or is loaded by a module that was
processed. What holds of every such record therefore holds of the whole registry, whatever the
surroundings do between one module and the next (`Explores.yields`).
-/

namespace Bundler

open Relation

variable {σ ε : Type}

namespace Graph

variable {graph : Graph} {name : String} {identity : Identity}

theorem Consistent.named (hgraph : graph.Consistent) (entry : Option String) :
    (Build.named entry identity graph).Consistent := by
  cases entry with
  | none => exact hgraph
  | some name => exact ⟨hgraph.nodup, hgraph.done_iff, hgraph.identity_eq, hgraph.ordered⟩

end Graph

/-- A graph built from these entries and complete: its registry is consistent and faithful, has all
entries, and nothing is in progress. -/
structure Surroundings.Assembled (around : Surroundings σ ε) (state : σ) (reach : Identity → Prop)
    (entries : List (String × Identity)) (graph : Graph) : Prop where
  consistent : graph.Consistent
  faithful : around.Faithful state reach graph
  clean : graph.Clean
  stack_eq : graph.stack = []
  entries_eq : graph.entries = entries
  recorded : ∀ entry ∈ entries, entry.2 ∈ graph.identities

namespace Surroundings

variable {around : Surroundings σ ε} {state : σ} {reach : Identity → Prop} {depth : Nat}
  {entries : List (String × Identity)} {graph : Graph} {name : String} {path : FilePath}
  {identity : Identity}

theorem Assembled.empty : around.Assembled state reach [] {} where
  consistent := .empty
  faithful := by simp [Faithful]
  clean := by simp [Graph.Clean, Graph.visit, Data.fieldOf?]
  stack_eq := rfl
  entries_eq := rfl
  recorded := by simp

/-- What building an entry leaves when it succeeds. -/
theorem Assembled.entry (hsteady : around.Steady state) (hnames : around.NamesModules)
    (hclosed : ∀ identity other, reach identity → around.Loads state identity other → reach other)
    (h : around.Assembled state reach entries graph) (hnew : name ∉ entries.map (·.1))
    (hname : Identity.ofPath? around.root path = some identity) (hreach : reach identity)
    {found : Identity} {after : Graph × σ}
    (hbuild : Attempt.start (Build.start around depth (some name) path) (graph, state)
      = (.ok found, after)) :
    after.2 = state ∧ around.Assembled state reach (entries ++ [(name, identity)]) after.1 := by
  obtain ⟨hfound, hexplores⟩ := Build.explores_of_start hbuild
  obtain rfl := Option.some.inj (hname.symm.trans hfound)
  have hconsistent : (Build.named (some name) identity graph).Consistent :=
    h.consistent.named (some name)
  have hreached : ∀ other ∈ [path], ∀ identity, Identity.ofPath? around.root other = some identity →
      reach identity := by
    intro other hother identity' hidentity
    rw [List.mem_singleton] at hother
    rw [hother, hname] at hidentity
    exact Option.some.inj hidentity ▸ hreach
  obtain ⟨hafter, hgrows, hdone⟩ := hexplores.consistent hnames hconsistent
  refine ⟨hexplores.unchanged hsteady rfl, hafter, ?_, ?_, ?_, ?_, ?_⟩
  · exact hexplores.faithful hsteady hnames hclosed rfl hconsistent h.faithful hreached
  · exact hexplores.clean hnames rfl hconsistent h.clean
  · rw [hgrows.stack]
    exact h.stack_eq
  · rw [hgrows.entries]
    exact (Data.setField_eq_append (h.entries_eq ▸ hnew)).trans (by rw [h.entries_eq])
  · rw [List.forall_mem_append, List.forall_mem_singleton]
    refine ⟨fun entry hentry => (hgrows.modules.map (·.1)).subset (h.recorded entry hentry), ?_⟩
    obtain ⟨other, hother, hvisit⟩ := hdone rfl path List.mem_cons_self
    obtain rfl := Option.some.inj (hname.symm.trans hother)
    exact (hafter.done_iff identity).1 hvisit

theorem Assembled.succeeds (hsteady : around.Steady state) (hnames : around.NamesModules)
    (hclosed : ∀ identity other, reach identity → around.Loads state identity other → reach other)
    (hsound : ∀ identity, reach identity → around.Sound state identity)
    (hacyclic : ∀ identity, reach identity → ¬ TransGen (around.Loads state) identity identity)
    {bound : Nat} (hbound : ∀ identities : List Identity, identities.Nodup →
      (∀ identity ∈ identities, reach identity) → identities.length ≤ bound)
    (h : around.Assembled state reach entries graph) (hdepth : bound < depth)
    (hname : Identity.ofPath? around.root path = some identity) (hreach : reach identity) :
    (Attempt.start (Build.start around depth (some name) path) (graph, state)).1 = .ok identity := by
  have hexplores := Build.explores_module around depth path (Build.named (some name) identity graph, state)
  have hstack : (Build.named (some name) identity graph).stack = [] := h.stack_eq
  have hdescends : Build.Descends around state reach (Build.named (some name) identity graph) [path] := by
    refine ⟨h.clean, by simp [hstack], by simp [hstack], ?_⟩
    rw [List.forall_mem_singleton]
    exact ⟨identity, hname, hreach, by simp [hstack]⟩
  have hok := hexplores.succeeds hsteady hnames hclosed hsound hacyclic hbound rfl
    (h.consistent.named (some name)) hdescends (by simpa [hstack] using hdepth)
  rw [Build.start_start around graph state hname]
  rcases hmodule : Attempt.start (Build.module around depth path)
    (Build.named (some name) identity graph, state) with ⟨fault | ⟨⟩, last⟩
  · rw [hmodule] at hok
    cases hok
  · rfl

end Surroundings

/-! ### What is recorded -/

/-- Where a state fits and a module is wanted, processing its file gives a record of some kind, and the
modules that it loads are wanted as well. -/
structure Surroundings.Yields (around : Surroundings σ ε) (fits : σ → Prop) (wanted : Identity → Prop)
    (kind : ModuleRecord → Prop) : Prop where
  isFile : ∀ path state, fits state → fits ((around.isFile path).start state).2
  process : ∀ path identity state, fits state → fits ((around.process path identity).start state).2
  kind : ∀ path identity state looked code dependencies processed, fits state →
    Identity.ofPath? around.root path = some identity → wanted identity →
    (around.isFile path).start state = (.ok true, looked) →
    (around.process path identity).start looked = (.ok (code, dependencies), processed) →
    kind ⟨identity, path, code, dependencies⟩ ∧ ∀ dependency ∈ dependencies, wanted dependency

namespace Build

variable {around : Surroundings σ ε} {fits : σ → Prop} {wanted : Identity → Prop}
  {kind : ModuleRecord → Prop}

theorem wanted_dependencies (hnames : around.NamesModules) {path : FilePath} {identity : Identity}
    {looked processed : σ} {code : String} {dependencies : List Identity}
    (hname : Identity.ofPath? around.root path = some identity)
    (hprocess : (around.process path identity).start looked = (.ok (code, dependencies), processed))
    (hwanted : ∀ dependency ∈ dependencies, wanted dependency) :
    ∀ path ∈ dependencies.map (Identity.path around.root), ∀ other,
      Identity.ofPath? around.root path = some other → wanted other := by
  intro path hpath other hother
  obtain ⟨dependency, hdependency, rfl⟩ := List.mem_map.1 hpath
  rw [hnames _ _ _ _ _ _ hname hprocess dependency hdependency] at hother
  obtain rfl := Option.some.inj hother
  exact hwanted dependency hdependency

theorem Explores.yields (haround : around.Yields fits wanted kind) (hnames : around.NamesModules)
    {depth : Nat} {paths : List FilePath} {before after : Graph × σ} {result : Except ε Unit}
    (h : Explores around depth paths before result after)
    (hpaths : ∀ path ∈ paths, ∀ identity, Identity.ofPath? around.root path = some identity →
      wanted identity)
    (hgraph : before.1.Consistent) (hstate : fits before.2)
    (hbefore : ∀ entry ∈ before.1.modules, kind entry.2) :
    fits after.2 ∧ ∀ entry ∈ after.1.modules, kind entry.2 := by
  have hlook : ∀ {path : FilePath} {state looked : σ} {answer : Except ε Bool}, fits state →
      (around.isFile path).start state = (answer, looked) → fits looked := by
    intro path state looked answer hfits hfile
    have hafter := haround.isFile path state hfits
    rwa [hfile] at hafter
  have hprocessed : ∀ {path : FilePath} {identity : Identity} {looked processed : σ}
      {answer : Except ε (String × List Identity)}, fits looked →
      (around.process path identity).start looked = (answer, processed) → fits processed := by
    intro path identity looked processed answer hfits hprocess
    have hafter := haround.process path identity looked hfits
    rwa [hprocess] at hafter
  induction h with
  | nothing | tooDeep | outside | cycle => exact ⟨hstate, hbefore⟩
  | known hname hvisit hrest ih =>
    exact ih (fun path hmem => hpaths path (List.mem_cons_of_mem _ hmem)) hgraph hstate hbefore
  | unreadable hname hvisit hfile | missing hname hvisit hfile => exact ⟨hlook hstate hfile, hbefore⟩
  | unprocessed hname hvisit hfile hprocess =>
    exact ⟨hprocessed (hlook hstate hfile) hprocess, hbefore⟩
  | broken hname hvisit hfile hprocess hinner ih =>
    obtain ⟨-, hwanted⟩ := haround.kind _ _ _ _ _ _ _ hstate hname
      (hpaths _ List.mem_cons_self _ hname) hfile hprocess
    refine ih ?_ (hgraph.enter hvisit) (hprocessed (hlook hstate hfile) hprocess) hbefore
    exact wanted_dependencies hnames hname hprocess hwanted
  | recorded hname hvisit hfile hprocess hinner hrest ihInner ihRest =>
    rename_i path rest graph state identity looked code dependencies processed inner last result after
    obtain ⟨hkind, hwanted⟩ := haround.kind _ _ _ _ _ _ _ hstate hname
      (hpaths _ List.mem_cons_self _ hname) hfile hprocess
    obtain ⟨hlast, hinnerKind⟩ := ihInner (wanted_dependencies hnames hname hprocess hwanted)
      (hgraph.enter hvisit) (hprocessed (hlook hstate hfile) hprocess) hbefore
    obtain ⟨hconsistent, hmodules⟩ := hinner.recordable hnames hname hprocess hgraph hvisit
    refine ihRest (fun path hmem => hpaths path (List.mem_cons_of_mem _ hmem)) hconsistent hlast ?_
    rw [hmodules, List.forall_mem_append, List.forall_mem_singleton]
    exact ⟨hinnerKind, hkind⟩

theorem yields_start (haround : around.Yields fits wanted kind) (hnames : around.NamesModules)
    {path : FilePath}
    (hpath : ∀ identity, Identity.ofPath? around.root path = some identity → wanted identity)
    {graph : Graph} (hgraph : graph.Consistent) (state : σ) (hstate : fits state)
    (hbefore : ∀ entry ∈ graph.modules, kind entry.2) (depth : Nat) (entry : Option String) :
    fits (Attempt.start (start around depth entry path) (graph, state)).2.2 ∧
      ∀ module ∈ (Attempt.start (start around depth entry path) (graph, state)).2.1.modules,
        kind module.2 := by
  cases hname : Identity.ofPath? around.root path with
  | none =>
    rw [start_start_none around graph state hname]
    exact ⟨hstate, hbefore⟩
  | some identity =>
    have hnamed : (named entry identity graph).modules = graph.modules := by
      cases entry <;> rfl
    rw [start_start around graph state hname, Attempt.andThen_pure]
    exact (explores_module around depth path (named entry identity graph, state)).yields haround hnames
      (by simpa using hpath) (hgraph.named entry) hstate (hnamed ▸ hbefore)

end Build
end Bundler
