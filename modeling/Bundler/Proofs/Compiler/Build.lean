import Bundler.Proofs.Compiler.Modules

/-!
# When a compiler builds its graph, and which graph it builds

Where transforms are functions and no debug message is rendered, building succeeds exactly when every
entry lies below the root and every module that can be reached from an entry is a file that can be
processed and lies on no cycle (`build_succeeds_iff`). The registry then holds exactly these modules,
each as processing it alone gives it and after the modules it loads.
-/

namespace Bundler

open Relation

variable {π κ ω : Type}

namespace Job

variable {compiler : Compiler π κ ω} {world : World ω}

/-- A path below the root and the module that it means, under one name. -/
def Means (compiler : Compiler π κ ω) (path : String × FilePath) (entry : String × Identity) : Prop :=
  path.1 = entry.1 ∧ Identity.ofPath? compiler.root path.2 = some entry.2

theorem start_buildEntry (name : String) (path : FilePath) :
    (buildEntry name path).start (compiler, world)
      = ((Attempt.start (Processing.build compiler.root compiler.naming compiler.pipeline (some name)
            path) (compiler.graph, world)).1,
        ({ compiler with graph := (Attempt.start (Processing.build compiler.root compiler.naming
            compiler.pipeline (some name) path) (compiler.graph, world)).2.1 },
          (Attempt.start (Processing.build compiler.root compiler.naming compiler.pipeline (some name)
            path) (compiler.graph, world)).2.2)) := by
  rw [buildEntry, Attempt.start_bind, Job.compiler, Attempt.start_look, Attempt.andThen_ok, onGraph,
    Attempt.start_within]

theorem start_compile_entry (name : String) (path : FilePath) (rest : List (String × FilePath))
    (state : Compiler π κ ω × World ω) :
    (compile ((name, path) :: rest)).start state
      = Attempt.andThen (fun _ => compile rest)
          (((buildEntry name path).start state).1.map fun _ => (), ((buildEntry name path).start state).2) := by
  rw [compile, Attempt.start_forM_cons, Attempt.start_discard]
  rfl

theorem start_compile_cons {name : String} {path : FilePath} {rest : List (String × FilePath)}
    {graph after : Graph} {last : World ω} {answer : Except Failure Identity}
    (hbuild : Attempt.start (Build.start compiler.surroundings (world.tree.nodes.length + 2)
      (some name) path) (graph, world) = (answer, (after, last))) :
    (compile ((name, path) :: rest)).start ({ compiler with graph }, world)
      = Attempt.andThen (fun _ => compile rest)
          (answer.map fun _ => (), ({ compiler with graph := after }, last)) := by
  have hentry : (buildEntry name path).start ({ compiler with graph }, world)
      = (answer, ({ compiler with graph := after }, last)) := by
    rw [Compiler.surroundings] at hbuild
    rw [start_buildEntry, Processing.start_build]
    simp only [hbuild]
  rw [start_compile_entry, hentry]

theorem assembled_of_compile (hpure : compiler.pipeline.Pure)
    (hquiet : Level.debug.number < world.console.threshold) {paths : List (String × FilePath)}
    {entries : List (String × Identity)} {graph : Graph}
    (hgraph : compiler.surroundings.Assembled world (compiler.Reachable world) entries graph)
    (hnodup : (entries.map (·.1) ++ paths.map (·.1)).Nodup)
    (hreach : ∀ path ∈ paths, ∀ identity, Identity.ofPath? compiler.root path.2 = some identity →
      compiler.Reachable world identity)
    (hok : ((compile paths).start ({ compiler with graph }, world)).1 = .ok ()) :
    ∃ more after, List.Forall₂ (Means compiler) paths more ∧
      (compile paths).start ({ compiler with graph }, world)
        = (.ok (), ({ compiler with graph := after }, world)) ∧
      compiler.surroundings.Assembled world (compiler.Reachable world) (entries ++ more) after := by
  induction paths generalizing entries graph with
  | nil => exact ⟨[], graph, .nil, rfl, by simpa using hgraph⟩
  | cons path rest ih =>
    obtain ⟨name, path⟩ := path
    rcases hbuild : Attempt.start (Build.start compiler.surroundings (world.tree.nodes.length + 2)
      (some name) path) (graph, world) with ⟨fault | found, after, last⟩
    · rw [start_compile_cons hbuild] at hok
      cases hok
    rw [start_compile_cons hbuild] at hok ⊢
    cases hname : Identity.ofPath? compiler.root path with
    | none =>
      rw [Build.start_start_none compiler.surroundings graph world hname] at hbuild
      cases hbuild
    | some identity =>
      rw [List.map_cons, List.append_cons] at hnodup
      have hnew : name ∉ entries.map (·.1) := fun hmem =>
        (List.nodup_append.1 (List.nodup_append.1 hnodup).1).2.2 _ hmem _ List.mem_cons_self rfl
      have hreached := hreach (name, path) List.mem_cons_self identity hname
      obtain ⟨rfl, hafter⟩ := hgraph.entry (Processing.steady_surroundings hpure hquiet)
        Processing.namesModules_surroundings (Compiler.reachable_closed hpure hquiet) hnew hname hreached
        hbuild
      obtain ⟨more, final, hmore, hrest, hfinal⟩ := ih hafter (by simpa using hnodup)
        (fun path hpath => hreach path (List.mem_cons_of_mem _ hpath)) hok
      refine ⟨(name, identity) :: more, final, .cons ⟨rfl, hname⟩ hmore, hrest, ?_⟩
      rwa [List.append_cons]

/-- Compiling succeeds where every module that can be reached can be built. -/
theorem compile_succeeds (hpure : compiler.pipeline.Pure)
    (hquiet : Level.debug.number < world.console.threshold) (hbuildable : compiler.Buildable world)
    {paths : List (String × FilePath)} {entries : List (String × Identity)} {graph : Graph}
    (hgraph : compiler.surroundings.Assembled world (compiler.Reachable world) entries graph)
    (hnodup : (entries.map (·.1) ++ paths.map (·.1)).Nodup)
    (hreach : ∀ path ∈ paths, ∃ identity, Identity.ofPath? compiler.root path.2 = some identity ∧
      compiler.Reachable world identity) :
    ((compile paths).start ({ compiler with graph }, world)).1 = .ok () := by
  induction paths generalizing entries graph with
  | nil => rfl
  | cons path rest ih =>
    obtain ⟨name, path⟩ := path
    obtain ⟨identity, hname, hreached⟩ := hreach (name, path) List.mem_cons_self
    have hsteady : compiler.surroundings.Steady world := Processing.steady_surroundings hpure hquiet
    have hclosed := Compiler.reachable_closed hpure hquiet
    have hanswer : (Attempt.start (Build.start compiler.surroundings (world.tree.nodes.length + 2)
        (some name) path) (graph, world)).1 = .ok identity :=
      hgraph.succeeds hsteady Processing.namesModules_surroundings hclosed
        (hbuildable.sound hpure hquiet) (hbuildable.acyclic_surroundings hpure hquiet)
        hbuildable.length_le (Nat.lt_add_of_pos_right Nat.two_pos) hname hreached
    rcases hbuild : Attempt.start (Build.start compiler.surroundings (world.tree.nodes.length + 2)
      (some name) path) (graph, world) with ⟨answer, after, last⟩
    rw [hbuild] at hanswer
    obtain rfl : answer = .ok identity := hanswer
    rw [List.map_cons, List.append_cons] at hnodup
    have hnew : name ∉ entries.map (·.1) := fun hmem =>
      (List.nodup_append.1 (List.nodup_append.1 hnodup).1).2.2 _ hmem _ List.mem_cons_self rfl
    obtain ⟨rfl, hafter⟩ := hgraph.entry hsteady Processing.namesModules_surroundings hclosed hnew hname
      hreached hbuild
    rw [start_compile_cons hbuild]
    exact ih hafter (by simpa using hnodup)
      fun path hpath => hreach path (List.mem_cons_of_mem _ hpath)

theorem start_build_ok {paths : List (String × FilePath)} (h : compiler.entryPaths = .ok paths) :
    build.start (compiler, world) = (compile paths).start (compiler, world) := by
  rw [build, Attempt.start_bind, resolveEntries, Attempt.start_bind, Job.compiler, Attempt.start_look,
    Attempt.andThen_ok, Attempt.start_ofExcept, h, Attempt.andThen_ok]

theorem start_build_error {fault : Failure} (h : compiler.entryPaths = .error fault) :
    build.start (compiler, world) = (.error fault, (compiler, world)) := by
  rw [build, Attempt.start_bind, resolveEntries, Attempt.start_bind, Job.compiler, Attempt.start_look,
    Attempt.andThen_ok, Attempt.start_ofExcept, h, Attempt.andThen_error]

end Job

namespace Compiler

variable {compiler : Compiler π κ ω} {world : World ω} {entries : List (String × Identity)}
  {graph : Graph}

theorem declared_of_means {paths : List (String × FilePath)} (hpaths : compiler.entryPaths = .ok paths)
    (hentries : List.Forall₂ (Job.Means compiler) paths entries) :
    List.Forall₂ (fun declared entry =>
      declared.1 = entry.1 ∧ compiler.entryIdentity? declared.2 = some entry.2)
      compiler.config.entries entries := by
  have hresolved := entryPaths_eq_ok_iff.1 hpaths
  clear hpaths
  generalize compiler.config.entries = declared at hresolved ⊢
  induction hresolved generalizing entries with
  | nil =>
    cases hentries
    exact .nil
  | cons hfirst _ ih =>
    obtain _ | ⟨hmeans, hrest⟩ := hentries
    refine .cons ⟨hfirst.1.trans hmeans.1, ?_⟩ (ih hrest)
    rw [entryIdentity?_eq hfirst.2, hmeans.2]

theorem mem_identities_iff (hpure : compiler.pipeline.Pure)
    (hquiet : Level.debug.number < world.console.threshold)
    (hgraph : compiler.surroundings.Assembled world (compiler.Reachable world) entries graph)
    (hentries : List.Forall₂ (fun declared entry =>
      declared.1 = entry.1 ∧ compiler.entryIdentity? declared.2 = some entry.2)
      compiler.config.entries entries) (identity : Identity) :
    identity ∈ graph.identities ↔ compiler.Reachable world identity := by
  constructor
  · intro hmem
    obtain ⟨entry, hentry, rfl⟩ := List.mem_map.1 hmem
    exact (hgraph.faithful entry hentry).1
  · rintro ⟨declared, hdeclared, start, hstart, hleads⟩
    obtain ⟨entry, hentry, -, hmeans⟩ := exists_of_forall₂ hentries.flip hdeclared
    obtain rfl := Option.some.inj (hstart.symm.trans hmeans)
    refine mem_identities_of_leads hgraph.consistent hgraph.faithful (hgraph.recorded entry hentry) ?_
    rwa [loads_surroundings hpure hquiet]

theorem complete_of_assembled (hpure : compiler.pipeline.Pure)
    (hquiet : Level.debug.number < world.console.threshold)
    (hgraph : compiler.surroundings.Assembled world (compiler.Reachable world) entries graph)
    (hentries : List.Forall₂ (fun declared entry =>
      declared.1 = entry.1 ∧ compiler.entryIdentity? declared.2 = some entry.2)
      compiler.config.entries entries) : compiler.Complete world graph where
  nodup := hgraph.consistent.nodup
  mem_iff := mem_identities_iff hpure hquiet hgraph hentries
  record entry hentry := by
    obtain ⟨-, hpath, -, houtcome⟩ := hgraph.faithful entry hentry
    rw [surroundings, Processing.outcome_surroundings hpure hquiet] at houtcome
    exact ⟨hgraph.consistent.identity_eq entry hentry, hpath, houtcome⟩
  entries := by
    rw [hgraph.entries_eq]
    exact hentries
  ordered := hgraph.consistent.ordered

theorem buildable_of_assembled (hpure : compiler.pipeline.Pure)
    (hquiet : Level.debug.number < world.console.threshold)
    (hgraph : compiler.surroundings.Assembled world (compiler.Reachable world) entries graph)
    (hentries : List.Forall₂ (fun declared entry =>
      declared.1 = entry.1 ∧ compiler.entryIdentity? declared.2 = some entry.2)
      compiler.config.entries entries) : compiler.Buildable world := by
  have hmem := mem_identities_iff hpure hquiet hgraph hentries
  refine ⟨fun declared hdeclared => ?_, fun identity hreach => ?_, fun identity hreach => ?_,
    fun identity hreach => ?_⟩
  · obtain ⟨entry, -, -, hmeans⟩ := exists_of_forall₂ hentries.flip hdeclared
    rw [hmeans]
    rfl
  · obtain ⟨entry, hentry, rfl⟩ := List.mem_map.1 ((hmem identity).2 hreach)
    exact Processing.isFile_surroundings.1 (hgraph.faithful entry hentry).2.2.1
  · obtain ⟨entry, hentry, rfl⟩ := List.mem_map.1 ((hmem identity).2 hreach)
    obtain ⟨-, -, -, houtcome⟩ := hgraph.faithful entry hentry
    rw [surroundings, Processing.outcome_surroundings hpure hquiet] at houtcome
    exact ⟨_, _, houtcome⟩
  · rw [← loads_surroundings hpure hquiet]
    exact not_transGen_loads hgraph.consistent hgraph.faithful ((hmem identity).2 hreach)

/-- A fresh compiler with functions as transforms, on a console that renders no debug message, builds
its graph exactly when the graph can be built. It changes nothing else, and the graph is complete. -/
theorem build_succeeds_iff (hfresh : compiler.graph = {}) (hpure : compiler.pipeline.Pure)
    (hquiet : Level.info.number ≤ world.console.threshold)
    (hnames : (compiler.config.entries.map (·.1)).Nodup) :
    ((Job.build.start (compiler, world)).1 = .ok () ↔ compiler.Buildable world) ∧
      ((Job.build.start (compiler, world)).1 = .ok () → ∃ graph,
        Job.build.start (compiler, world) = (.ok (), ({ compiler with graph }, world)) ∧
          compiler.Complete world graph) := by
  have hbelow : Level.debug.number < world.console.threshold :=
    lt_of_lt_of_le (by decide) hquiet
  have hempty : compiler.surroundings.Assembled world (compiler.Reachable world) [] {} := .empty
  have hcompiler : { compiler with graph := {} } = compiler := by rw [← hfresh]
  have hsound : (Job.build.start (compiler, world)).1 = .ok () → compiler.Buildable world ∧
      ∃ graph, Job.build.start (compiler, world) = (.ok (), ({ compiler with graph }, world)) ∧
        compiler.Complete world graph := by
    intro hok
    cases hpaths : compiler.entryPaths with
    | error fault =>
      rw [Job.start_build_error hpaths] at hok
      cases hok
    | ok paths =>
      rw [Job.start_build_ok hpaths, ← hcompiler] at hok
      obtain ⟨entries, graph, hentries, hstart, hgraph⟩ := Job.assembled_of_compile hpure hbelow hempty
        (by simpa [names_of_entryPaths hpaths] using hnames)
        (fun path hpath identity => reachable_of_entryPaths hpaths hpath) hok
      have hdeclared := declared_of_means hpaths hentries
      refine ⟨buildable_of_assembled hpure hbelow hgraph hdeclared, graph, ?_,
        complete_of_assembled hpure hbelow hgraph hdeclared⟩
      rw [Job.start_build_ok hpaths, ← hcompiler]
      exact hstart
  refine ⟨⟨fun hok => (hsound hok).1, fun hbuildable => ?_⟩, fun hok => (hsound hok).2⟩
  obtain ⟨paths, hpaths⟩ := hbuildable.exists_entryPaths
  rw [Job.start_build_ok hpaths, ← hcompiler]
  refine Job.compile_succeeds hpure hbelow hbuildable hempty
    (by simpa [names_of_entryPaths hpaths] using hnames) fun path hpath => ?_
  obtain ⟨declared, hdeclared, -, hresolve⟩ := exists_of_forall₂ (entryPaths_eq_ok_iff.1 hpaths) hpath
  obtain ⟨identity, hidentity⟩ := Option.isSome_iff_exists.1 (hbuildable.entries declared hdeclared)
  rw [entryIdentity?_eq hresolve] at hidentity
  exact ⟨identity, hidentity, reachable_of_entryPaths hpaths hpath hidentity⟩

/-- A world whose root directory has a module that loads another one. -/
def pairWorld : World Unit where
  tree := ⟨.root, [([⟨"main.py", by decide +kernel⟩], .file "require('./lib')\n".toUTF8),
    ([⟨"lib.py", by decide +kernel⟩], .file "x = 1\n".toUTF8)]⟩
  console := .start []
  registry := {}
  memory := ()

def pairCompiler : Compiler Unit Unit Unit where
  config := { entries := [("main", .ofString "main.py")], root := .root }
  root := .root
  naming := {}
  pipeline := []
  outputFile := .ofString "dist/bundle.py"

theorem buildable_pair : pairCompiler.Buildable pairWorld := by
  have hpure : pairCompiler.pipeline.Pure := by simp [Pipeline.Pure, pairCompiler]
  have hquiet : Level.info.number ≤ pairWorld.console.threshold := by decide +kernel
  have hnames : (pairCompiler.config.entries.map (·.1)).Nodup := by simp [pairCompiler]
  have hok : (Job.build.start (pairCompiler, pairWorld)).1.toBool = true := by decide +kernel
  refine (build_succeeds_iff rfl hpure hquiet hnames).1.1 ?_
  cases hanswer : (Job.build.start (pairCompiler, pairWorld)).1 with
  | ok => rfl
  | error fault =>
    rw [hanswer] at hok
    cases hok

end Compiler
end Bundler
