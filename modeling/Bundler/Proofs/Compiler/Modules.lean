import Bundler.Compiler.Run
import Bundler.Proofs.Graph.Entries
import Bundler.Proofs.Processing

/-!
# The modules of a compiler

One module loads another when processing its file alone says so. `Buildable` is what has to hold of the
modules that can be reached from the entries for a graph to be built, and `Complete` is what holds of
the graph. Both are said of the files and the configuration, without a graph being built.
-/

namespace Bundler

open Relation

variable {π κ ω : Type}

namespace Compiler

variable (compiler : Compiler π κ ω) (world : World ω)

/-- The module that the path of an entry means, if it lies below the root. -/
def entryIdentity? (path : FilePath) : Option Identity :=
  match compiler.root.resolve? path with
  | .ok resolved => Identity.ofPath? compiler.root resolved
  | .error _ => none

/-- The code of a module and the modules it loads, when its file alone is processed. -/
def processed (identity : Identity) : Except Failure (String × List Identity) :=
  Processing.alone compiler.root compiler.naming compiler.pipeline world identity

def Loads (identity other : Identity) : Prop :=
  ∃ code dependencies, compiler.processed world identity = .ok (code, dependencies) ∧
    other ∈ dependencies

/-- A module is an entry or is loaded by one, directly or through others. -/
def Reachable (identity : Identity) : Prop :=
  ∃ entry ∈ compiler.config.entries, ∃ start, compiler.entryIdentity? entry.2 = some start ∧
    ReflTransGen (compiler.Loads world) start identity

/-- Every entry lies below the root. Every module that can be reached is a file that can be processed,
and lies on no cycle. -/
structure Buildable : Prop where
  entries : ∀ entry ∈ compiler.config.entries, (compiler.entryIdentity? entry.2).isSome
  isFile : ∀ identity, compiler.Reachable world identity →
    world.tree.isFile (identity.path compiler.root) = .ok true
  processed : ∀ identity, compiler.Reachable world identity →
    ∃ code dependencies, compiler.processed world identity = .ok (code, dependencies)
  acyclic : ∀ identity, compiler.Reachable world identity →
    ¬ TransGen (compiler.Loads world) identity identity

/-- A graph with the modules that can be reached, each as processing it alone gives it and after the
modules it loads, and with the entries as they were declared. -/
structure Complete (graph : Graph) : Prop where
  nodup : graph.identities.Nodup
  mem_iff : ∀ identity, identity ∈ graph.identities ↔ compiler.Reachable world identity
  record : ∀ entry ∈ graph.modules, entry.2.identity = entry.1 ∧
    entry.2.path = entry.1.path compiler.root ∧
    compiler.processed world entry.1 = .ok (entry.2.code, entry.2.dependencies)
  entries : List.Forall₂
    (fun declared entry => declared.1 = entry.1 ∧ compiler.entryIdentity? declared.2 = some entry.2)
    compiler.config.entries graph.entries
  ordered : ∀ before entry after, graph.modules = before ++ entry :: after →
    ∀ dependency ∈ entry.2.dependencies, dependency ∈ before.map (·.1)

/-- What the graph of a compiler is built from. -/
def surroundings : Surroundings (World ω) Failure :=
  Processing.surroundings compiler.root compiler.naming compiler.pipeline

variable {compiler world}

theorem reachable_of_loads {identity other : Identity} (h : compiler.Reachable world identity)
    (hloads : compiler.Loads world identity other) : compiler.Reachable world other := by
  obtain ⟨entry, hentry, start, hstart, hleads⟩ := h
  exact ⟨entry, hentry, start, hstart, hleads.tail hloads⟩

theorem entryIdentity?_eq {path resolved : FilePath} (h : compiler.root.resolve? path = .ok resolved) :
    compiler.entryIdentity? path = Identity.ofPath? compiler.root resolved := by
  rw [entryIdentity?, h]

theorem entryPaths_eq_ok_iff {paths : List (String × FilePath)} :
    compiler.entryPaths = .ok paths
      ↔ List.Forall₂ (fun declared path => declared.1 = path.1 ∧
          compiler.root.resolve? declared.2 = .ok path.2) compiler.config.entries paths := by
  rw [entryPaths, mapM_eq_ok_iff]
  refine iff_of_eq (congrArg (List.Forall₂ · _ _) (funext₂ fun declared path => propext ?_))
  cases hresolve : compiler.root.resolve? declared.2 with
  | error fault => simp [hresolve, bind, Except.bind, Except.mapError]
  | ok resolved =>
    simp only [hresolve, bind, Except.bind, Except.mapError, pure, Except.pure, Except.ok.injEq]
    exact Prod.ext_iff

theorem names_of_entryPaths {paths : List (String × FilePath)} (h : compiler.entryPaths = .ok paths) :
    paths.map (·.1) = compiler.config.entries.map (·.1) := by
  have hpaths := entryPaths_eq_ok_iff.1 h
  have hnames : List.Forall₂ (· = ·) (compiler.config.entries.map (·.1)) (paths.map (·.1)) := by
    rw [List.forall₂_map_left_iff, List.forall₂_map_right_iff]
    exact hpaths.imp fun _ _ h => h.1
  exact (List.forall₂_eq_eq_eq ▸ hnames : _ = _).symm

theorem reachable_of_entryPaths {paths : List (String × FilePath)} (h : compiler.entryPaths = .ok paths)
    {path : String × FilePath} (hpath : path ∈ paths) {identity : Identity}
    (hname : Identity.ofPath? compiler.root path.2 = some identity) :
    compiler.Reachable world identity := by
  obtain ⟨declared, hdeclared, -, hresolve⟩ := exists_of_forall₂ (entryPaths_eq_ok_iff.1 h) hpath
  exact ⟨declared, hdeclared, identity, (entryIdentity?_eq hresolve).trans hname, .refl⟩

theorem Buildable.exists_entryPaths (h : compiler.Buildable world) :
    ∃ paths, compiler.entryPaths = .ok paths := by
  have hresolve : ∀ declared ∈ compiler.config.entries, ∃ path : String × FilePath,
      declared.1 = path.1 ∧ compiler.root.resolve? declared.2 = .ok path.2 := by
    intro declared hdeclared
    have hsome := h.entries declared hdeclared
    cases hpath : compiler.root.resolve? declared.2 with
    | error fault => simp [entryIdentity?, hpath] at hsome
    | ok resolved => exact ⟨(declared.1, resolved), rfl, rfl⟩
  choose! resolved hresolved using hresolve
  refine ⟨compiler.config.entries.map resolved, entryPaths_eq_ok_iff.2 ?_⟩
  rw [List.forall₂_map_right_iff, List.forall₂_same]
  exact hresolved

/-! ### Where modules lie -/

/-- A file that a resolved path names lies below the root without a step upwards, where it lies below
it. -/
theorem exists_parts_of_resolve? {root path resolved : FilePath} {identity : Identity}
    (hresolve : root.resolve? path = .ok resolved)
    (hname : Identity.ofPath? root resolved = some identity) :
    ∃ parts, identity = .ofParts parts ∧ Component.parent ∉ parts := by
  obtain ⟨parts, hresolved, hparts⟩ := Identity.ofPath?_eq_some_iff.1 hname
  refine ⟨parts, hparts, fun hmem => ?_⟩
  obtain ⟨-, hresolve⟩ := FilePath.resolve?_eq_ok_iff.1 hresolve
  have hsettled := FilePath.parent_notMem_settle (root.join path).parts
  rw [hresolved, FilePath.resolve, FilePath.mk.injEq] at hresolve
  exact hsettled (hresolve.2 ▸ List.mem_append_right _ hmem)

/-- Every module that can be reached lies below the root, without a step upwards. -/
theorem exists_parts_of_reachable {identity : Identity} (h : compiler.Reachable world identity) :
    ∃ parts, identity = .ofParts parts ∧ Component.parent ∉ parts := by
  obtain ⟨entry, hentry, start, hstart, hleads⟩ := h
  induction hleads with
  | refl =>
    rw [entryIdentity?] at hstart
    split at hstart
    · next resolved hresolve => exact exists_parts_of_resolve? hresolve hstart
    · cases hstart
  | tail _ hloads ih =>
    obtain ⟨parts, rfl, -⟩ := ih
    obtain ⟨code, dependencies, halone, hmem⟩ := hloads
    obtain ⟨text, htext⟩ := Processing.exists_text_of_alone halone
    exact Load.exists_parts_of_retargetText htext _ hmem

/-- Different modules that can be reached are no more than the nodes of the tree. -/
theorem Buildable.length_le (h : compiler.Buildable world) (identities : List Identity)
    (hnodup : identities.Nodup)
    (hreachable : ∀ identity ∈ identities, compiler.Reachable world identity) :
    identities.length ≤ world.tree.nodes.length :=
  FileTree.length_le_of_isFile_path hnodup
    (fun identity hmem => exists_parts_of_reachable (hreachable identity hmem))
    fun identity hmem => h.isFile identity (hreachable identity hmem)

/-! ### Graphs that are built and graphs that can be built -/

theorem loads_surroundings (hpure : compiler.pipeline.Pure)
    (hquiet : Level.debug.number < world.console.threshold) :
    compiler.surroundings.Loads world = compiler.Loads world := by
  funext identity other
  rw [Surroundings.Loads, surroundings, Processing.outcome_surroundings hpure hquiet]
  rfl

theorem reachable_closed (hpure : compiler.pipeline.Pure)
    (hquiet : Level.debug.number < world.console.threshold) (identity other : Identity)
    (h : compiler.Reachable world identity) (hloads : compiler.surroundings.Loads world identity other) :
    compiler.Reachable world other :=
  reachable_of_loads h (loads_surroundings hpure hquiet ▸ hloads)

theorem Buildable.sound (hpure : compiler.pipeline.Pure)
    (hquiet : Level.debug.number < world.console.threshold) (h : compiler.Buildable world)
    (identity : Identity) (hreachable : compiler.Reachable world identity) :
    compiler.surroundings.Sound world identity where
  isFile := Processing.isFile_surroundings.2 (h.isFile identity hreachable)
  outcome := by
    rw [surroundings, Processing.outcome_surroundings hpure hquiet]
    exact h.processed identity hreachable

theorem Buildable.acyclic_surroundings (hpure : compiler.pipeline.Pure)
    (hquiet : Level.debug.number < world.console.threshold) (h : compiler.Buildable world)
    (identity : Identity) (hreachable : compiler.Reachable world identity) :
    ¬ TransGen (compiler.surroundings.Loads world) identity identity := by
  rw [loads_surroundings hpure hquiet]
  exact h.acyclic identity hreachable

end Compiler

end Bundler
