import Bundler.Proofs.Graph.Registry
import Mathlib.Logic.Relation

/-!
# What exploring a steady graph finds

Where looking at files and processing modules changes nothing, each module has one outcome, and the
modules it loads are its successors in a graph. Exploring that graph records outcomes as they are, and
nothing but what can be reached (`Explores.faithful`). It succeeds where every module that can be reached
is sound and lies on no cycle (`Explores.succeeds`), and no module of a consistent registry lies on one
(`not_transGen_loads`).
-/

namespace Bundler

open Relation

variable {σ ε : Type}

namespace Surroundings

/-- Looking at files and processing modules changes nothing. -/
structure Steady (around : Surroundings σ ε) (state : σ) : Prop where
  isFile : ∀ path, ((around.isFile path).start state).2 = state
  process : ∀ path identity, ((around.process path identity).start state).2 = state

variable (around : Surroundings σ ε) (state : σ)

/-- What processing a module alone gives. -/
def outcome (identity : Identity) : Except ε (String × List Identity) :=
  ((around.process (identity.path around.root) identity).start state).1

def Loads (identity other : Identity) : Prop :=
  ∃ code dependencies, around.outcome state identity = .ok (code, dependencies) ∧ other ∈ dependencies

/-- A module is a file that can be processed. -/
structure Sound (identity : Identity) : Prop where
  isFile : ((around.isFile (identity.path around.root)).start state).1 = .ok true
  outcome : ∃ code dependencies, around.outcome state identity = .ok (code, dependencies)

/-- Every module recorded is one of those meant to be reached, and its record says where it is and what
processing it alone gives. -/
def Faithful (reach : Identity → Prop) (graph : Graph) : Prop :=
  ∀ entry ∈ graph.modules, reach entry.1 ∧ entry.2.path = entry.1.path around.root ∧
    ((around.isFile (entry.1.path around.root)).start state).1 = .ok true ∧
    around.outcome state entry.1 = .ok (entry.2.code, entry.2.dependencies)

end Surroundings

namespace Build

variable {around : Surroundings σ ε} {state : σ} {depth : Nat} {paths : List FilePath}
  {before after : Graph × σ} {result : Except ε Unit}

theorem outcome_of_process (hsteady : around.Steady state) {path : FilePath} {identity : Identity}
    {answer : Except ε (String × List Identity)} {processed : σ}
    (hname : Identity.ofPath? around.root path = some identity)
    (hprocess : (around.process path identity).start state = (answer, processed)) :
    processed = state ∧ around.outcome state identity = answer := by
  refine ⟨?_, ?_⟩
  · rw [← hsteady.process path identity, hprocess]
  · rw [Surroundings.outcome, Identity.path_of_ofPath? hname, hprocess]

theorem isFile_of_start (hsteady : around.Steady state) {path : FilePath} {answer : Except ε Bool}
    {looked : σ} (hfile : (around.isFile path).start state = (answer, looked)) :
    looked = state ∧ ((around.isFile path).start state).1 = answer := by
  refine ⟨?_, ?_⟩
  · rw [← hsteady.isFile path, hfile]
  · rw [hfile]

theorem Explores.unchanged (hsteady : around.Steady state)
    (h : Explores around depth paths before result after) (hstate : before.2 = state) :
    after.2 = state := by
  induction h with
  | nothing depth start => exact hstate
  | tooDeep path rest start => exact hstate
  | outside hname => exact hstate
  | known hname hvisit hrest ih => exact ih hstate
  | cycle hname hvisit => exact hstate
  | unreadable hname hvisit hfile =>
    subst hstate
    exact (isFile_of_start hsteady hfile).1
  | missing hname hvisit hfile =>
    subst hstate
    exact (isFile_of_start hsteady hfile).1
  | unprocessed hname hvisit hfile hprocess =>
    subst hstate
    obtain ⟨rfl, -⟩ := isFile_of_start hsteady hfile
    exact (outcome_of_process hsteady hname hprocess).1
  | broken hname hvisit hfile hprocess hinner ih =>
    subst hstate
    obtain ⟨rfl, -⟩ := isFile_of_start hsteady hfile
    obtain ⟨rfl, -⟩ := outcome_of_process hsteady hname hprocess
    exact ih rfl
  | recorded hname hvisit hfile hprocess hinner hrest ihInner ihRest =>
    subst hstate
    obtain ⟨rfl, -⟩ := isFile_of_start hsteady hfile
    obtain ⟨rfl, -⟩ := outcome_of_process hsteady hname hprocess
    exact ihRest (ihInner rfl)

theorem reach_dependencies (hnames : around.NamesModules) {reach : Identity → Prop}
    (hclosed : ∀ identity other, reach identity → around.Loads state identity other → reach other)
    {path : FilePath} {identity : Identity} {looked processed : σ} {code : String}
    {dependencies : List Identity} (hname : Identity.ofPath? around.root path = some identity)
    (hprocess : (around.process path identity).start looked = (.ok (code, dependencies), processed))
    (houtcome : around.outcome state identity = .ok (code, dependencies)) (hreach : reach identity) :
    ∀ path ∈ dependencies.map (Identity.path around.root), ∃ other,
      Identity.ofPath? around.root path = some other ∧ reach other ∧
        around.Loads state identity other := by
  intro path hpath
  obtain ⟨dependency, hdependency, rfl⟩ := List.mem_map.1 hpath
  have hloads : around.Loads state identity dependency := ⟨code, dependencies, houtcome, hdependency⟩
  exact ⟨dependency, hnames _ _ _ _ _ _ hname hprocess dependency hdependency,
    hclosed identity dependency hreach hloads, hloads⟩

/-- Exploring a steady graph records outcomes as they are, and only those of modules that can be
reached from the modules asked for. -/
theorem Explores.faithful (hsteady : around.Steady state) (hnames : around.NamesModules)
    {reach : Identity → Prop}
    (hclosed : ∀ identity other, reach identity → around.Loads state identity other → reach other)
    (h : Explores around depth paths before result after) (hstate : before.2 = state)
    (hbefore : before.1.Consistent) (hfaithful : around.Faithful state reach before.1)
    (hpaths : ∀ path ∈ paths, ∀ identity, Identity.ofPath? around.root path = some identity →
      reach identity) :
    around.Faithful state reach after.1 := by
  induction h with
  | nothing depth start => exact hfaithful
  | tooDeep path rest start => exact hfaithful
  | outside hname => exact hfaithful
  | known hname hvisit hrest ih =>
    exact ih hstate hbefore hfaithful fun path hpath => hpaths path (List.mem_cons_of_mem _ hpath)
  | cycle hname hvisit => exact hfaithful
  | unreadable hname hvisit hfile => exact hfaithful
  | missing hname hvisit hfile => exact hfaithful
  | unprocessed hname hvisit hfile hprocess => exact hfaithful
  | broken hname hvisit hfile hprocess hinner ih =>
    subst hstate
    obtain ⟨rfl, -⟩ := isFile_of_start hsteady hfile
    obtain ⟨rfl, houtcome⟩ := outcome_of_process hsteady hname hprocess
    have hreach := hpaths _ List.mem_cons_self _ hname
    refine ih rfl (hbefore.enter hvisit) hfaithful fun path hpath other hother => ?_
    obtain ⟨dependency, hdependency, hreached, -⟩ :=
      reach_dependencies hnames hclosed hname hprocess houtcome hreach path hpath
    exact Option.some.inj (hother.symm.trans hdependency) ▸ hreached
  | recorded hname hvisit hfile hprocess hinner hrest ihInner ihRest =>
    rename_i path rest graph start identity looked code dependencies processed inner last result after
    subst hstate
    obtain ⟨rfl, hisFile⟩ := isFile_of_start hsteady hfile
    obtain ⟨rfl, houtcome⟩ := outcome_of_process hsteady hname hprocess
    have hreach := hpaths _ List.mem_cons_self _ hname
    have hinnerFaithful : around.Faithful processed reach inner := by
      refine ihInner rfl (hbefore.enter hvisit) hfaithful fun path hpath other hother => ?_
      obtain ⟨dependency, hdependency, hreached, -⟩ :=
        reach_dependencies hnames hclosed hname hprocess houtcome hreach path hpath
      exact Option.some.inj (hother.symm.trans hdependency) ▸ hreached
    obtain ⟨hrecord, hmodules⟩ := hinner.recordable hnames hname hprocess hbefore hvisit
    have hlast := hinner.unchanged hsteady rfl
    refine ihRest hlast hrecord ?_
      fun path hpath => hpaths path (List.mem_cons_of_mem _ hpath)
    intro entry hentry
    rw [hmodules, List.mem_append, List.mem_singleton] at hentry
    rcases hentry with hentry | rfl
    · exact hinnerFaithful entry hentry
    · rw [Identity.path_of_ofPath? hname]
      exact ⟨hreach, rfl, hisFile, houtcome⟩

/-! ### Success -/

/-- The modules in progress are those on the stack. They are different from one another, are meant to
be reached, and each of them leads to every module asked for. -/
structure Descends (around : Surroundings σ ε) (state : σ) (reach : Identity → Prop) (graph : Graph)
    (paths : List FilePath) : Prop where
  clean : graph.Clean
  nodup : graph.stack.Nodup
  reached : ∀ identity ∈ graph.stack, reach identity
  leads : ∀ path ∈ paths, ∃ identity, Identity.ofPath? around.root path = some identity ∧
    reach identity ∧ ∀ outer ∈ graph.stack, TransGen (around.Loads state) outer identity

section Success

variable {reach : Identity → Prop} {path : FilePath} {others : List FilePath} {graph inner : Graph}
  {identity : Identity} {code : String} {dependencies : List Identity}

theorem Descends.rest (h : Descends around state reach graph (path :: others)) :
    Descends around state reach graph others :=
  ⟨h.clean, h.nodup, h.reached, fun path hpath => h.leads path (List.mem_cons_of_mem _ hpath)⟩

theorem Descends.first (h : Descends around state reach graph (path :: others))
    (hname : Identity.ofPath? around.root path = some identity) :
    reach identity ∧ ∀ outer ∈ graph.stack, TransGen (around.Loads state) outer identity := by
  obtain ⟨other, hother, hreach, hleads⟩ := h.leads path List.mem_cons_self
  obtain rfl := Option.some.inj (hname.symm.trans hother)
  exact ⟨hreach, hleads⟩

/-- A module that lies on no cycle is not in progress when it is asked for. -/
theorem Descends.notMem_stack
    (hacyclic : ∀ identity, reach identity → ¬ TransGen (around.Loads state) identity identity)
    (h : Descends around state reach graph (path :: others))
    (hname : Identity.ofPath? around.root path = some identity) : identity ∉ graph.stack := by
  obtain ⟨hreach, hleads⟩ := h.first hname
  exact fun hmem => hacyclic identity hreach (hleads identity hmem)

theorem Descends.enter (h : Descends around state reach graph (path :: others))
    (hname : Identity.ofPath? around.root path = some identity) (hnot : identity ∉ graph.stack)
    (hdependencies : ∀ path ∈ dependencies.map (Identity.path around.root), ∃ other,
      Identity.ofPath? around.root path = some other ∧ reach other ∧
        around.Loads state identity other) :
    Descends around state reach (graph.enter identity)
      (dependencies.map (Identity.path around.root)) where
  clean := h.clean.enter
  nodup := List.nodup_cons.2 ⟨hnot, h.nodup⟩
  reached := List.forall_mem_cons.2 ⟨(h.first hname).1, h.reached⟩
  leads path hpath := by
    obtain ⟨other, hother, hreach, hloads⟩ := hdependencies path hpath
    refine ⟨other, hother, hreach, List.forall_mem_cons.2 ⟨.single hloads, ?_⟩⟩
    exact fun outer houter => ((h.first hname).2 outer houter).tail hloads

theorem Descends.record (h : Descends around state reach graph (path :: others))
    (hgrows : (graph.enter identity).Grows inner) (hclean : inner.Clean) :
    Descends around state reach (inner.leave.record ⟨identity, path, code, dependencies⟩) others := by
  have hstack : (inner.leave.record ⟨identity, path, code, dependencies⟩).stack = graph.stack :=
    (Graph.Grows.of_enter hgrows).stack
  exact ⟨hgrows.clean_record hclean, hstack ▸ h.nodup, hstack ▸ h.reached, hstack ▸ h.rest.leads⟩

end Success

/-- Exploring succeeds where every module that can be reached is sound and lies on no cycle. The depth
has to suffice for a stack of different modules. -/
theorem Explores.succeeds (hsteady : around.Steady state) (hnames : around.NamesModules)
    {reach : Identity → Prop}
    (hclosed : ∀ identity other, reach identity → around.Loads state identity other → reach other)
    (hsound : ∀ identity, reach identity → around.Sound state identity)
    (hacyclic : ∀ identity, reach identity → ¬ TransGen (around.Loads state) identity identity)
    {bound : Nat} (hbound : ∀ identities : List Identity, identities.Nodup →
      (∀ identity ∈ identities, reach identity) → identities.length ≤ bound)
    (h : Explores around depth paths before result after) (hstate : before.2 = state)
    (hbefore : before.1.Consistent) (hdescends : Descends around state reach before.1 paths)
    (hdepth : bound < depth + before.1.stack.length) : result = .ok () := by
  induction h with
  | nothing depth start => rfl
  | tooDeep path rest start =>
    have := hbound _ hdescends.nodup hdescends.reached
    omega
  | outside hname =>
    obtain ⟨identity, hidentity, -⟩ := hdescends.leads _ List.mem_cons_self
    rw [hname] at hidentity
    cases hidentity
  | known hname hvisit hrest ih => exact ih hstate hbefore hdescends.rest hdepth
  | cycle hname hvisit =>
    exact absurd (hdescends.clean _ hvisit) (hdescends.notMem_stack hacyclic hname)
  | unreadable hname hvisit hfile =>
    subst hstate
    have hsound := (hsound _ (hdescends.first hname).1).isFile
    rw [Identity.path_of_ofPath? hname, hfile] at hsound
    cases hsound
  | missing hname hvisit hfile =>
    subst hstate
    have hsound := (hsound _ (hdescends.first hname).1).isFile
    rw [Identity.path_of_ofPath? hname, hfile] at hsound
    cases hsound
  | unprocessed hname hvisit hfile hprocess =>
    subst hstate
    obtain ⟨rfl, -⟩ := isFile_of_start hsteady hfile
    obtain ⟨code, dependencies, hsound⟩ := (hsound _ (hdescends.first hname).1).outcome
    rw [(outcome_of_process hsteady hname hprocess).2] at hsound
    cases hsound
  | broken hname hvisit hfile hprocess hinner ih =>
    subst hstate
    obtain ⟨rfl, -⟩ := isFile_of_start hsteady hfile
    obtain ⟨rfl, houtcome⟩ := outcome_of_process hsteady hname hprocess
    have hdependencies := reach_dependencies hnames hclosed hname hprocess houtcome
      (hdescends.first hname).1
    have hinner := ih rfl (hbefore.enter hvisit)
      (hdescends.enter hname (hdescends.notMem_stack hacyclic hname) hdependencies)
      (by simp only [Graph.stack_enter, List.length_cons] at hdepth ⊢; omega)
    cases hinner
  | recorded hname hvisit hfile hprocess hinner hrest ihInner ihRest =>
    subst hstate
    obtain ⟨rfl, -⟩ := isFile_of_start hsteady hfile
    obtain ⟨rfl, houtcome⟩ := outcome_of_process hsteady hname hprocess
    have hdependencies := reach_dependencies hnames hclosed hname hprocess houtcome
      (hdescends.first hname).1
    obtain ⟨-, hgrows, -⟩ := hinner.consistent hnames (hbefore.enter hvisit)
    have hclean := hinner.clean hnames rfl (hbefore.enter hvisit) hdescends.clean.enter
    have hlast := hinner.unchanged hsteady rfl
    refine ihRest hlast
      (hinner.recordable hnames hname hprocess hbefore hvisit).1 (hdescends.record hgrows hclean) ?_
    rw [Graph.stack_record, (Graph.Grows.of_enter hgrows).stack]
    exact hdepth

end Build

/-! ### Order -/

section Order

variable {around : Surroundings σ ε} {state : σ} {reach : Identity → Prop} {graph : Graph}
  {identity other : Identity}

theorem loads_before (hgraph : graph.Consistent) (hfaithful : around.Faithful state reach graph)
    {before after : List (Identity × ModuleRecord)} {entry : Identity × ModuleRecord}
    (hsplit : graph.modules = before ++ entry :: after) (hloads : around.Loads state entry.1 other) :
    other ∈ before.map (·.1) := by
  obtain ⟨-, -, -, hrecord⟩ := hfaithful entry (by simp [hsplit])
  obtain ⟨code, dependencies, houtcome, hmem⟩ := hloads
  rw [hrecord] at houtcome
  cases houtcome
  exact hgraph.ordered before entry after hsplit other hmem

theorem transGen_before (hgraph : graph.Consistent) (hfaithful : around.Faithful state reach graph)
    (hleads : TransGen (around.Loads state) identity other)
    {before after : List (Identity × ModuleRecord)} {entry : Identity × ModuleRecord}
    (hsplit : graph.modules = before ++ entry :: after) (hentry : entry.1 = identity) :
    other ∈ before.map (·.1) := by
  subst hentry
  induction hleads with
  | single hloads => exact loads_before hgraph hfaithful hsplit hloads
  | tail _ hloads ih =>
    -- what is led to through a module before this one stands before that module
    obtain ⟨middle, hmiddle, rfl⟩ := List.mem_map.1 ih
    obtain ⟨first, second, rfl⟩ := List.append_of_mem hmiddle
    rw [List.append_assoc, List.cons_append] at hsplit
    have hbefore := loads_before hgraph hfaithful hsplit hloads
    rw [List.map_append]
    exact List.mem_append_left _ hbefore

/-- No module recorded in a consistent registry lies on a cycle. -/
theorem not_transGen_loads (hgraph : graph.Consistent) (hfaithful : around.Faithful state reach graph)
    (hmem : identity ∈ graph.identities) : ¬ TransGen (around.Loads state) identity identity := by
  intro hcycle
  obtain ⟨entry, hentry, rfl⟩ := List.mem_map.1 hmem
  obtain ⟨before, after, hsplit⟩ := List.append_of_mem hentry
  have hbefore := transGen_before hgraph hfaithful hcycle hsplit rfl
  have hnodup := hgraph.nodup
  rw [Graph.identities, hsplit, List.map_append, List.map_cons] at hnodup
  exact (List.nodup_append.1 hnodup).2.2 _ hbefore _ List.mem_cons_self rfl

/-- A consistent registry has every module that its modules lead to. -/
theorem mem_identities_of_leads (hgraph : graph.Consistent)
    (hfaithful : around.Faithful state reach graph) (hmem : identity ∈ graph.identities)
    (hleads : ReflTransGen (around.Loads state) identity other) : other ∈ graph.identities := by
  induction hleads with
  | refl => exact hmem
  | tail _ hloads ih =>
    obtain ⟨entry, hentry, rfl⟩ := List.mem_map.1 ih
    obtain ⟨before, after, hsplit⟩ := List.append_of_mem hentry
    have hbefore := loads_before hgraph hfaithful hsplit hloads
    rw [Graph.identities, hsplit, List.map_append]
    exact List.mem_append_left _ hbefore

end Order
end Bundler
