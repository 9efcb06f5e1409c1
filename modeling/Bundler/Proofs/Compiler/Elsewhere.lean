import Bundler.Proofs.Artifact.Recovery
import Bundler.Proofs.Compiler.Again
import Bundler.Proofs.Processing.Elsewhere

/-!
# Projects in two places

Two directories with the same files are the roots of two compilers that are the same otherwise. Building
then gives one graph, but for the paths of its records, and one text of the bundle, or it fails in the
same way: nothing of the place where the project lies enters the graph or the bundle (`build_elsewhere`).
-/

namespace Bundler

variable {π κ ω : Type}

def Compiler.moved (root place outputFile : FilePath) (compiler : Compiler π κ ω) : Compiler π κ ω :=
  { compiler with config := { compiler.config with root := place }, root, outputFile }

namespace Job

variable {host : Host π κ ω} {root root' : FilePath}

/-- Two compilers that were made for projects in two places and are the same otherwise, in worlds that
are the same but for the lines on the console. Nothing was built yet. -/
structure Apart (root root' : FilePath) (state other : Compiler π κ ω × World ω) : Prop where
  root : state.1.root = root
  moved : ∃ place outputFile, other.1 = state.1.moved root' place outputFile
  graph : state.1.graph = {}
  world : state.2.Tells other.2

theorem apart_change {f : Compiler π κ ω → Compiler π κ ω} (hroot : ∀ compiler, (f compiler).root = compiler.root)
    (hgraph : ∀ compiler, (f compiler).graph = compiler.graph)
    (hmoved : ∀ compiler root place outputFile,
      f (compiler.moved root place outputFile) = (f compiler).moved root place outputFile) :
    (change f : Job π κ ω Unit).Respects (Apart root root') := by
  rintro ⟨compiler, world⟩ ⟨_, world'⟩ ⟨hroots, ⟨place, outputFile, rfl⟩, hempty, hworld⟩
  exact ⟨rfl, (hroot compiler).trans hroots, ⟨place, outputFile, hmoved compiler root' place outputFile⟩,
    (hgraph compiler).trans hempty, hworld⟩

/-- Installing a plugin makes no difference between the two, if this is so for the plugins of the host. -/
theorem apart_install (hhost : ∀ plugin, (host.install plugin).Respects (Apart root root'))
    (setting : Setting (Plugin π) ω) : (install host setting).Respects (Apart root root') := by
  refine (Attempt.respects_ofExcept _).bind fun plugin => ?_
  cases plugin with
  | stats =>
    refine Attempt.Respects.bind ?_ fun _ => apart_change (fun _ => rfl) (fun _ => rfl) fun _ _ _ _ => rfl
    intro state other h
    obtain ⟨place, outputFile, hother⟩ := h.moved
    have htap : ∀ duty : Phase × Duty, (tap duty.1 Stats.label (.stats state.1.plugins.length duty.2) :
        Job π κ ω Unit).Respects (Apart root root') :=
      fun _ => apart_change (fun _ => rfl) (fun _ => rfl) fun _ _ _ _ => rfl
    have htaps := Attempt.respects_of_echoes <|
      Attempt.echoes_forM (fun duty => (htap duty).echoes) Stats.duties
    have hplugins : other.1.plugins = state.1.plugins := by rw [hother]; rfl
    rw [installStats, Attempt.start_bind, compiler, Attempt.start_look, Attempt.andThen_ok,
      Attempt.start_bind, Attempt.start_look, Attempt.andThen_ok, hplugins]
    exact htaps state other h
  | foreign plugin =>
    exact (hhost plugin).bind fun _ => apart_change (fun _ => rfl) (fun _ => rfl) fun _ _ _ _ => rfl

end Job

namespace Compiler

variable {host : Host π κ ω} {config : Config (Plugin π) ω} {place : FilePath} {world made made' : World ω}
  {compiler compiler' : Compiler π κ ω}

/-- Configurations that differ in the root alone make compilers that differ in the place of the project
alone. -/
theorem apart_of_ofConfig
    (hhost : ∀ plugin root root', (host.install plugin).Respects (Job.Apart root root'))
    (hmade : (ofConfig host config).start world = (.ok compiler, made))
    (hmade' : (ofConfig host { config with root := place }).start world = (.ok compiler', made')) :
    Job.Apart (world.tree.current.resolve config.root) (world.tree.current.resolve place)
      (compiler, made) (compiler', made') := by
  obtain ⟨prepared, ready, hprepare, hinstall⟩ := start_ofConfig_iff.1 hmade
  obtain ⟨prepared', ready', hprepare', hinstall'⟩ := start_ofConfig_iff.1 hmade'
  have hprepared : Job.Apart (world.tree.current.resolve config.root) (world.tree.current.resolve place)
      (prepared, ready) (prepared', ready') := by
    obtain ⟨root, pipeline, registry, hroot, hrules, rfl, rfl⟩ := start_prepare_iff.1 hprepare
    obtain ⟨root', pipeline', registry', hroot', hrules', rfl, rfl⟩ := start_prepare_iff.1 hprepare'
    obtain ⟨-, rfl⟩ := FilePath.resolve?_eq_ok_iff.1 hroot
    obtain ⟨-, rfl⟩ := FilePath.resolve?_eq_ok_iff.1 hroot'
    cases hrules.symm.trans hrules'
    exact ⟨rfl, ⟨place, _, rfl⟩, rfl, Std.Refl.refl _⟩
  have hplugins : (config.plugins.forM (Job.install host)).Respects
      (Job.Apart (world.tree.current.resolve config.root) (world.tree.current.resolve place)) :=
    Attempt.respects_of_echoes <|
      Attempt.echoes_forM (fun setting => (Job.apart_install (hhost · _ _) setting).echoes) _
  obtain ⟨-, happart⟩ := hplugins _ _ hprepared
  rwa [hinstall, hinstall'] at happart

/-! ### Entries -/

/-- The modules that the entries mean, where their paths never lead above the root. -/
def innerEntries (compiler : Compiler π κ ω) : List (String × Identity) :=
  compiler.config.entries.map fun entry => (entry.1, .ofParts (FilePath.settle entry.2.parts))

def pathsBelow (root : FilePath) (entries : List (String × Identity)) : List (String × FilePath) :=
  entries.map fun entry => (entry.1, entry.2.path root)

theorem below_innerEntries (compiler : Compiler π κ ω) :
    ∀ entry ∈ compiler.innerEntries, Processing.Below entry.2 := by
  intro entry hentry
  obtain ⟨declared, -, rfl⟩ := List.mem_map.1 hentry
  exact ⟨_, rfl, FilePath.parent_notMem_settle _⟩

theorem entryPaths_of_null (h : ∃ entry ∈ compiler.config.entries, entry.2.hasNull = true) :
    compiler.entryPaths = .error (.path .null) := by
  obtain ⟨entry, hentry, hnull⟩ := h
  refine (mapM_eq_error_iff ?_).2 ⟨rfl, entry, hentry, ?_⟩
  · intro declared failure hfailure
    cases hdeclared : declared.2.hasNull with
    | true => simpa [FilePath.resolve?, hdeclared, bind, Except.bind, Except.mapError, eq_comm] using hfailure
    | false => simp [FilePath.resolve?, hdeclared, bind, Except.bind, Except.mapError, pure, Except.pure] at hfailure
  · simp [FilePath.resolve?, hnull, bind, Except.bind, Except.mapError]

theorem entryPaths_of_isInner (hanchor : compiler.root.anchor = .root)
    (hdown : Component.parent ∉ compiler.root.parts)
    (hentries : ∀ entry ∈ compiler.config.entries, entry.2.isInner = true)
    (hnull : ∀ entry ∈ compiler.config.entries, entry.2.hasNull = false) :
    compiler.entryPaths = .ok (pathsBelow compiler.root compiler.innerEntries) := by
  rw [entryPaths_eq_ok_iff, pathsBelow, innerEntries, List.map_map, List.forall₂_map_right_iff,
    List.forall₂_same]
  refine fun entry hentry => ⟨rfl, FilePath.resolve?_eq_ok_iff.2 ⟨hnull entry hentry, ?_⟩⟩
  rw [FilePath.resolve_of_isInner hdown (hentries entry hentry), Function.comp_apply,
    Identity.path_ofParts, hanchor]

end Compiler

namespace Artifact

/-- What is rendered does not depend on the lines on the console. -/
theorem respects_render (artifact : Artifact) (pipeline : Pipeline ω) (press : Press) :
    (artifact.render pipeline press).Respects (World.Agrees (· = ·)) :=
  Attempt.respects_of_echoes <| (pipeline.echoes_load pipeline.respects_eq.echoes _).bind
    fun _ => (Attempt.respects_ofExcept _).echoes

end Artifact

/-! ### Building -/

namespace Job

variable {compiler compiler' : Compiler π κ ω} {world world' : World ω}
  {wanted : Identity → Prop} {alike : Failure → Failure → Prop} {spoilt : Failure → Prop}

/-- A build ends as another one, with the same graph below its own root and no change to the world, or
it is spoilt. -/
inductive Mirrored (compiler compiler' : Compiler π κ ω) (world world' : World ω)
    (alike : Failure → Failure → Prop) (spoilt : Failure → Prop) :
    Except Failure Unit × Compiler π κ ω × World ω → Except Failure Unit × Compiler π κ ω × World ω → Prop
  | spoilt {ended failure scene'} (h : spoilt failure) :
      Mirrored compiler compiler' world world' alike spoilt ended (.error failure, scene')
  | same {result result' graph} (h : SameUpTo alike result result') :
      Mirrored compiler compiler' world world' alike spoilt (result, ({ compiler with graph }, world))
        (result', ({ compiler' with graph := graph.rebased compiler'.root }, world'))

theorem compile_elsewhere
    (hmirrors : compiler.surroundings.Mirrors compiler'.surroundings world world' wanted alike spoilt)
    (htrees : world'.tree = world.tree) {entries : List (String × Identity)}
    (hwanted : ∀ entry ∈ entries, wanted entry.2) {graph : Graph} {result : Except Failure Unit}
    {last : Compiler π κ ω × World ω}
    (h : (compile (Compiler.pathsBelow compiler.root entries)).start ({ compiler with graph }, world)
      = (result, last)) (hresult : ∀ failure, result = .error failure → ¬ spoilt failure) :
    Mirrored compiler compiler' world world' alike spoilt (result, last)
      ((compile (Compiler.pathsBelow compiler'.root entries)).start
        ({ compiler' with graph := graph.rebased compiler'.root }, world')) := by
  induction entries generalizing graph with
  | nil =>
    cases h
    exact .same (.ok ())
  | cons entry rest ih =>
    rw [List.forall_mem_cons] at hwanted
    rcases hbuild : Attempt.start (Build.start compiler.surroundings (world.tree.nodes.length + 2)
      (some entry.1) (entry.2.path compiler.root)) (graph, world) with ⟨answer, after, left⟩
    rcases hbuild' : Attempt.start (Build.start compiler'.surroundings (world'.tree.nodes.length + 2)
      (some entry.1) (entry.2.path compiler'.root)) (graph.rebased compiler'.root, world')
      with ⟨answer', after', left'⟩
    rw [Compiler.pathsBelow, List.map_cons, start_compile_cons hbuild] at h
    rw [Compiler.pathsBelow, List.map_cons, start_compile_cons hbuild']
    have hanswer : ∀ failure, answer = .error failure → ¬ spoilt failure := by
      rintro failure rfl
      cases h
      exact hresult failure rfl
    have hmirrored := Build.start_elsewhere hmirrors hwanted.1 hbuild hanswer
    rw [htrees] at hbuild'
    change Build.Mirrored compiler'.root world world' alike spoilt (answer, after, left)
      (Attempt.start (Build.start compiler'.surroundings (world.tree.nodes.length + 2)
        (some entry.1) (entry.2.path compiler'.root)) (graph.rebased compiler'.root, world')) at hmirrored
    rw [hbuild'] at hmirrored
    cases hmirrored with
    | spoilt hspoilt => exact .spoilt hspoilt
    | same hsame =>
      cases hsame with
      | error halike =>
        cases h
        exact .same (.error halike)
      | ok identity => exact ih hwanted.2 h

end Job

namespace Compiler

variable {host : Host π κ ω} {config : Config (Plugin π) ω} {place : FilePath} {world made made' : World ω}
  {compiler compiler' : Compiler π κ ω}

theorem render_moved (press : Press) (compiler : Compiler π κ ω) (root place outputFile : FilePath)
    (graph : Graph) {world world' : World ω} (hworlds : world.Tells world') :
    ((Job.render press).start ({ compiler with graph }, world)).1
      = ((Job.render press).start
          ({ compiler.moved root place outputFile with graph := graph.rebased root }, world')).1 := by
  have hartifact : ({ compiler.moved root place outputFile with graph := graph.rebased root } :
      Compiler π κ ω).artifact = ({ compiler with graph } : Compiler π κ ω).artifact := by
    rw [artifact, artifact, Graph.codes_rebased, Graph.entries_rebased]
    rfl
  have hrender : ∀ (compiler : Compiler π κ ω) (world : World ω),
      ((Job.render press).start (compiler, world)).1
        = ((compiler.artifact.render compiler.pipeline press).start world).1 := fun _ _ => rfl
  rw [hrender, hrender, hartifact]
  exact (Artifact.respects_render _ _ _ world world' hworlds.agrees).1

theorem build_moved {compiler : Compiler π κ ω} {root : FilePath} {world : World ω}
    (hempty : compiler.graph = {}) (hroots : world.tree.Alike compiler.root root)
    (hentries : ∀ entry ∈ compiler.config.entries, entry.2.isInner = true)
    (hpure : compiler.pipeline.Pure) (hquiet : Level.debug.number < world.console.threshold)
    (hverdicts : compiler.pipeline.SameVerdicts world.tree compiler.root root)
    (hshort : ∀ failure, (Job.build.start (compiler, world)).1 = .error failure → ¬ failure.Overlong)
    (place outputFile : FilePath) (output : List ShownLine) :
    Job.Mirrored compiler (compiler.moved root place outputFile) world (world.showing output)
      (Failure.Alike compiler.root root) Failure.Overlong (Job.build.start (compiler, world))
      (Job.build.start (compiler.moved root place outputFile, world.showing output)) := by
  let other := compiler.moved root place outputFile
  -- both begin with no module, wherever modules lie
  have hcompiler : { compiler with graph := {} } = compiler := by rw [← hempty]
  have hother : { other with graph := ({} : Graph).rebased root } = other :=
    congrArg (moved root place outputFile) hcompiler
  have hmirrors : compiler.surroundings.Mirrors other.surroundings world (world.showing output)
      Processing.Below (Failure.Alike compiler.root root) Failure.Overlong :=
    Processing.mirrors_surroundings hpure hquiet hquiet rfl hroots hverdicts
  by_cases hnull : ∃ entry ∈ compiler.config.entries, entry.2.hasNull = true
  · have hnone : Job.Mirrored compiler other world (world.showing output)
        (Failure.Alike compiler.root root) Failure.Overlong
        (.error (.path .null), ({ compiler with graph := {} }, world))
        (.error (.path .null), ({ other with graph := ({} : Graph).rebased root }, world.showing output)) :=
      .same (.error (Failure.Alike.same _))
    have hpaths' : other.entryPaths = .error (.path .null) := entryPaths_of_null hnull
    rw [Job.start_build_error (entryPaths_of_null hnull), Job.start_build_error hpaths']
    rwa [hcompiler, hother] at hnone
  · have hvalid : ∀ entry ∈ compiler.config.entries, entry.2.hasNull = false := by simpa using hnull
    have hpaths := entryPaths_of_isInner hroots.anchor hroots.down hentries hvalid
    have hpaths' : other.entryPaths = .ok (pathsBelow root compiler.innerEntries) :=
      entryPaths_of_isInner hroots.anchor' hroots.down' hentries hvalid
    rw [Job.start_build_ok hpaths] at hshort ⊢
    rw [Job.start_build_ok hpaths']
    have hcompile : Job.Mirrored compiler other world (world.showing output)
        (Failure.Alike compiler.root root) Failure.Overlong
        ((Job.compile (pathsBelow compiler.root compiler.innerEntries)).start
          ({ compiler with graph := {} }, world))
        ((Job.compile (pathsBelow root compiler.innerEntries)).start
          ({ other with graph := ({} : Graph).rebased root }, world.showing output)) :=
      Job.compile_elsewhere hmirrors rfl compiler.below_innerEntries rfl (by rwa [hcompiler])
    rwa [hcompiler, hother] at hcompile

/-- Nothing of the place of a project enters its graph or its bundle. Of two configurations that differ in
the root alone, with the same files below both roots, entries that never lead above them and rules that do
not tell these files apart, either both are built, with one graph but for the paths of its records and one
text of the bundle, or both fail, with failures that differ in the path of one module's file at most. -/
theorem build_elsewhere
    (hhost : ∀ plugin root root', (host.install plugin).Respects (Job.Apart root root'))
    (hmade : (ofConfig host config).start world = (.ok compiler, made))
    (hmade' : (ofConfig host { config with root := place }).start world = (.ok compiler', made'))
    (hentries : ∀ entry ∈ compiler.config.entries, entry.2.isInner = true)
    (hpure : compiler.pipeline.Pure) (hquiet : Level.info.number ≤ made.console.threshold)
    (htree : made.tree.WellFormed)
    (hsame : ∀ steps, made.tree.node? (compiler.root.parts ++ steps)
      = made.tree.node? (compiler'.root.parts ++ steps))
    (hverdicts : compiler.pipeline.SameVerdicts made.tree compiler.root compiler'.root)
    (hshort : ∀ failure, (Job.build.start (compiler, made)).1 = .error failure → ¬ failure.Overlong)
    (hshort' : ∀ failure, (Job.build.start (compiler', made')).1 = .error failure → ¬ failure.Overlong) :
    (∃ graph, Job.build.start (compiler, made) = (.ok (), ({ compiler with graph }, made)) ∧
        Job.build.start (compiler', made')
          = (.ok (), ({ compiler' with graph := graph.rebased compiler'.root }, made')) ∧
        ((Job.render host.press).start ({ compiler with graph }, made)).1
          = ((Job.render host.press).start
              ({ compiler' with graph := graph.rebased compiler'.root }, made')).1) ∨
      ∃ failure failure', (Job.build.start (compiler, made)).1 = .error failure ∧
        (Job.build.start (compiler', made')).1 = .error failure' ∧
        failure.Alike compiler.root compiler'.root failure' := by
  obtain ⟨hroot, ⟨place', outputFile, rfl⟩, hempty, output, rfl⟩ := apart_of_ofConfig hhost hmade hmade'
  have hroots : made.tree.Alike compiler.root (world.tree.current.resolve place) := by
    have hresolved : compiler.root = world.tree.current.resolve config.root := hroot
    rw [hresolved] at hsame ⊢
    exact ⟨htree, rfl, rfl, FilePath.parent_notMem_settle _, FilePath.parent_notMem_settle _, hsame⟩
  have hmirrored := build_moved hempty hroots hentries hpure (lt_of_lt_of_le (by decide) hquiet)
    hverdicts hshort place' outputFile output
  rcases hbuild : Job.build.start (compiler, made) with ⟨result, last⟩
  rcases hbuild' : Job.build.start (compiler.moved (world.tree.current.resolve place) place' outputFile,
    made.showing output) with ⟨result', last'⟩
  rw [hbuild, hbuild'] at hmirrored
  cases hmirrored with
  | spoilt hspoilt => exact absurd hspoilt (hshort' _ (congrArg Prod.fst hbuild'))
  | same hsame =>
    cases hsame with
    | ok => exact .inl ⟨_, rfl, rfl, render_moved _ _ _ _ _ _ ⟨output, rfl⟩⟩
    | error halike => exact .inr ⟨_, _, rfl, rfl, halike⟩

/-- A directory with the pair of modules in it. -/
def pairIn (directory : Component) : List (Place × FileNode) :=
  (([], .directory) :: pairWorld.tree.nodes).map fun entry => (directory :: entry.1, entry.2)

def first : Component := ⟨"one", by decide +kernel⟩

def second : Component := ⟨"two", by decide +kernel⟩

def twinWorld : World Unit where
  tree := ⟨.root, pairIn first ++ pairIn second⟩
  console := .start []
  registry := {}
  memory := ()

def twinConfig (root : Component) : Config (Plugin Unit) Unit where
  entries := [("main", .ofString "lib/.././main.py")]
  root := ⟨.root, [root]⟩

/-- The compiler for that configuration. -/
def twinCompiler (root : Component) : Compiler Unit Unit Unit where
  config := twinConfig root
  root := ⟨.root, [root]⟩
  naming := {}
  pipeline := []
  outputFile := (twinConfig root).outputFile

theorem node?_twinWorld (steps : List Component) :
    twinWorld.tree.node? (first :: steps) = twinWorld.tree.node? (second :: steps) := by
  have hnone (nodes : List (Place × FileNode)) : nodes.find? (fun _ => false) = none :=
    List.find?_eq_none.2 (by simp)
  simp only [FileTree.node?, twinWorld, first, second, pairIn,
    List.find?_append, List.find?_map, Function.comp_def, List.cons.injEq, Component.mk.injEq]
  simp [hnone, Function.comp_def]

/-- The pair is built in both directories, with one graph and one bundle. -/
theorem build_elsewhere_twins :
    ∃ graph, Job.build.start (twinCompiler first, twinWorld)
        = (.ok (), ({ twinCompiler first with graph }, twinWorld)) ∧
      Job.build.start (twinCompiler second, twinWorld) = (.ok (),
        ({ twinCompiler second with graph := graph.rebased (twinCompiler second).root }, twinWorld)) ∧
      (Job.render.start ({ twinCompiler first with graph }, twinWorld)).1
        = (Job.render.start
            ({ twinCompiler second with graph := graph.rebased (twinCompiler second).root }, twinWorld)).1 := by
  have hmade : (ofConfig Job.idleHost (twinConfig first)).start twinWorld
      = (.ok (twinCompiler first), twinWorld) :=
    (start_ofConfig_bare_iff rfl).2 ⟨(twinConfig first).root, [], {}, rfl, rfl, rfl, rfl⟩
  have hmade' : (ofConfig Job.idleHost { twinConfig first with root := ⟨.root, [second]⟩ }).start twinWorld
      = (.ok (twinCompiler second), twinWorld) :=
    (start_ofConfig_bare_iff rfl).2 ⟨(twinConfig second).root, [], {}, rfl, rfl, rfl, rfl⟩
  have hok : (Job.build.start (twinCompiler first, twinWorld)).1.toBool = true := by decide +kernel
  have hok' : (Job.build.start (twinCompiler second, twinWorld)).1.toBool = true := by decide +kernel
  have hbuilt := build_elsewhere (fun _ _ _ => Attempt.respects_pure ()) hmade hmade' (by decide +kernel)
    (by simp [Pipeline.Pure, twinCompiler]) (by decide +kernel) ⟨by decide +kernel, by decide +kernel⟩
    node?_twinWorld (by simp [Pipeline.SameVerdicts, twinCompiler])
    (fun failure hfailure => by simp [hfailure, Except.toBool] at hok)
    (fun failure hfailure => by simp [hfailure, Except.toBool] at hok')
  rcases hbuilt with hbuilt | ⟨failure, -, hfailure, -⟩
  · exact hbuilt
  · simp [hfailure, Except.toBool] at hok

end Compiler
end Bundler
