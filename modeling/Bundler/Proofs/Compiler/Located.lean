import Bundler.Proofs.Compiler.Callbacks
import Bundler.Proofs.Compiler.Frame
import Bundler.Proofs.Graph.Entries
import Bundler.Proofs.Processing.History

/-!
# Modules and files

In the graph that a compiler builds, modules and files determine each other: the path of a record is the
path that its identity names below the root, and no two identities lead to one file
(`located_of_build`). An identity has no empty step and no step that stays or leads upwards, but for one
case: a root that is a file itself is the module `./.` (`build_fileRoot`).
-/

namespace Bundler

variable {π κ ω : Type}

/-! ### Identities -/

/-- The identity is `./` and a path without empty steps and steps that stay or lead upwards. -/
def Identity.Normal (identity : Identity) : Prop :=
  ∃ names : List String, names ≠ [] ∧
    (∀ name ∈ names, name ≠ "" ∧ name ≠ "." ∧ name ≠ ".." ∧ '/' ∉ name.toList) ∧
    identity = "./" ++ Text.joinWith "/" names

theorem Identity.normal_ofParts {parts : List Component} (hne : parts ≠ [])
    (hdown : Component.parent ∉ parts) : (Identity.ofParts parts).Normal := by
  refine ⟨parts.map (·.text), by simpa using hne, ?_, ?_⟩
  · intro name hname
    obtain ⟨part, hpart, rfl⟩ := List.mem_map.1 hname
    have hcomponent := part.isComponent
    simp only [isComponent, Bool.and_eq_true, bne_iff_ne, ne_eq] at hcomponent
    refine ⟨hcomponent.1.1, hcomponent.1.2, fun hparent => hdown ?_, part.slash_notMem⟩
    obtain rfl : part = Component.parent := by
      cases part
      simpa [Component.parent] using hparent
    exact hpart
  · obtain ⟨first, rest, rfl⟩ := List.exists_cons_of_ne_nil hne
    rw [Identity.ofParts, FilePath.toString]
    rfl

theorem Identity.not_normal_stay : ¬ Identity.Normal "./." := by
  rintro ⟨names, hne, hnames, hidentity⟩
  have hglue : ['.'] = Text.glue '/' (names.map String.toList) := by
    have htext := congrArg String.toList hidentity
    rw [String.toList_append, Text.toList_joinWith] at htext
    have hcut : ['.', '/'] ++ ['.'] = ['.', '/'] ++ Text.glue '/' (names.map String.toList) := htext
    exact List.append_cancel_left hcut
  have hpieces : Text.pieces '/' (Text.glue '/' (names.map String.toList)) = names.map String.toList :=
    Text.pieces_glue (by simpa using hne) (by simpa using fun name hname => (hnames name hname).2.2.2)
  rw [← hglue] at hpieces
  obtain ⟨name, hname⟩ := List.exists_mem_of_ne_nil names hne
  have hdot : name.toList ∈ Text.pieces '/' ['.'] := hpieces ▸ List.mem_map_of_mem hname
  have hone : Text.pieces '/' ['.'] = [['.']] := by decide +kernel
  rw [hone, List.mem_singleton] at hdot
  exact (hnames name hname).2.1 (String.ext hdot)

/-! ### Graphs of files -/

/-- The modules of a graph are files below the root, each under the one identity that is the path from
the root to it. -/
structure Graph.Located (graph : Graph) (tree : FileTree) (root : FilePath) : Prop where
  nodup : graph.identities.Nodup
  path_eq : ∀ entry ∈ graph.modules, entry.2.path = entry.1.path root
  isFile : ∀ entry ∈ graph.modules, ∃ place content,
    tree.locate entry.2.path = .ok (.taken place (.file content))
  normal : ∀ entry ∈ graph.modules, entry.1.Normal ∨ entry.1 = "./." ∧ entry.2.path = root
  injective : ∀ left ∈ graph.modules, ∀ right ∈ graph.modules, ∀ place node node',
    tree.locate left.2.path = .ok (.taken place node) →
    tree.locate right.2.path = .ok (.taken place node') → left.1 = right.1

/-- The record is that of a file below the root, reached without a step upwards. -/
def FileBelow (tree : FileTree) (root : FilePath) (record : ModuleRecord) : Prop :=
  ∃ parts, record.identity = .ofParts parts ∧ Component.parent ∉ parts ∧
    record.path = ⟨root.anchor, root.parts ++ parts⟩ ∧ tree.isFile record.path = .ok true

theorem Graph.Consistent.located {graph : Graph} {tree : FileTree} {root : FilePath}
    (hgraph : graph.Consistent) (hanchor : root.anchor = .root) (hroot : Component.parent ∉ root.parts)
    (hbelow : ∀ entry ∈ graph.modules, FileBelow tree root entry.2) : graph.Located tree root := by
  have hparts : ∀ entry ∈ graph.modules, ∃ parts, entry.1 = .ofParts parts ∧
      Component.parent ∉ parts ∧ entry.2.path = ⟨root.anchor, root.parts ++ parts⟩ := by
    intro entry hentry
    obtain ⟨parts, hidentity, hdown, hpath, -⟩ := hbelow entry hentry
    exact ⟨parts, (hgraph.identity_eq entry hentry).symm.trans hidentity, hdown, hpath⟩
  refine ⟨hgraph.nodup, ?_, ?_, ?_, ?_⟩
  · intro entry hentry
    obtain ⟨parts, hidentity, -, hpath⟩ := hparts entry hentry
    rw [hidentity, hpath, Identity.path_ofParts]
  · intro entry hentry
    obtain ⟨parts, -, -, -, hfile⟩ := hbelow entry hentry
    exact FileTree.exists_locate_of_isFile hfile
  · intro entry hentry
    obtain ⟨parts, hidentity, hdown, hpath⟩ := hparts entry hentry
    by_cases hne : parts = []
    · subst hne
      rw [hidentity, hpath, List.append_nil]
      exact .inr ⟨rfl, rfl⟩
    · rw [hidentity]
      exact .inl (Identity.normal_ofParts hne hdown)
  · intro left hleft right hright place node node' hlocate hlocate'
    obtain ⟨parts, hidentity, hdown, hpath⟩ := hparts left hleft
    obtain ⟨parts', hidentity', hdown', hpath'⟩ := hparts right hright
    rw [hpath, hanchor] at hlocate
    rw [hpath', hanchor] at hlocate'
    have hplace := FileTree.eq_of_locate (by simp [hroot, hdown]) hlocate
    have hplace' := FileTree.eq_of_locate (by simp [hroot, hdown']) hlocate'
    rw [hidentity, hidentity', List.append_cancel_left (hplace.symm.trans hplace')]

/-! ### Building -/

namespace Processing

/-- The files stay the same, and files below the root load files below the root. -/
theorem yields_surroundings (tree : FileTree) (root : FilePath) (naming : Naming)
    (pipeline : Pipeline ω) :
    (surroundings root naming pipeline).Yields (fun world => world.tree = tree) Below
      (FileBelow tree root) where
  isFile path world htree := ((sameFiles_surroundings root naming pipeline).isFile path world).trans htree
  process path identity world htree :=
    ((sameFiles_surroundings root naming pipeline).process path identity world).trans htree
  kind path identity world looked code dependencies processed htree hname hwanted hfile hprocess := by
    obtain ⟨parts, rfl, hdown⟩ := hwanted
    have hpath : path = ⟨root.anchor, root.parts ++ parts⟩ :=
      (Identity.path_of_ofPath? hname).symm.trans (Identity.path_ofParts root parts)
    refine ⟨⟨parts, rfl, hdown, hpath, ?_⟩, ?_⟩
    · rw [← htree]
      exact isFile_surroundings.1 (congrArg Prod.fst hfile)
    · obtain ⟨text, htext⟩ := exists_text_of_process hprocess
      exact Load.exists_parts_of_retargetText htext

end Processing

namespace Job

def SameGraph (state later : Compiler π κ ω × World ω) : Prop :=
  later.1.root = state.1.root ∧ later.1.graph = state.1.graph

instance : Std.Refl (SameGraph (π := π) (κ := κ) (ω := ω)) := ⟨fun _ => ⟨rfl, rfl⟩⟩

instance : IsTrans (Compiler π κ ω × World ω) SameGraph :=
  ⟨fun _ _ _ h h' => ⟨h'.1.trans h.1, h'.2.trans h.2⟩⟩

/-- A compiler in the middle of building: its modules are files below the root. -/
structure Locates (tree : FileTree) (root : FilePath) (state : Compiler π κ ω × World ω) : Prop where
  root_eq : state.1.root = root
  tree_eq : state.2.tree = tree
  consistent : state.1.graph.Consistent
  below : ∀ entry ∈ state.1.graph.modules, FileBelow tree root entry.2

variable {tree : FileTree} {root : FilePath}

theorem locates_buildEntry {state : Compiler π κ ω × World ω} (h : Locates tree root state)
    (name : String) {path : FilePath}
    (hpath : ∀ identity, Identity.ofPath? root path = some identity → Processing.Below identity) :
    Locates tree root ((buildEntry name path).start state).2 := by
  obtain ⟨compiler, world⟩ := state
  obtain ⟨rfl, rfl, hgraph, hbelow⟩ := h
  obtain ⟨htree, hmodules⟩ := Build.yields_start
    (Processing.yields_surroundings world.tree compiler.root compiler.naming compiler.pipeline)
    Processing.namesModules_surroundings hpath hgraph world rfl hbelow (world.tree.nodes.length + 2)
    (some name)
  have hconsistent : (Attempt.start (Build.start (Processing.surroundings compiler.root compiler.naming
      compiler.pipeline) (world.tree.nodes.length + 2) (some name) path)
      (compiler.graph, world)).2.1.Consistent :=
    (Build.consistent_start Processing.namesModules_surroundings hgraph _ _ _ _).1
  rw [start_buildEntry, Processing.start_build]
  exact ⟨rfl, htree, hconsistent, hmodules⟩

theorem locates_compile {entries : List (String × FilePath)}
    (hentries : ∀ entry ∈ entries, ∀ identity, Identity.ofPath? root entry.2 = some identity →
      Processing.Below identity) {state : Compiler π κ ω × World ω} (h : Locates tree root state) :
    Locates tree root ((compile entries).start state).2 := by
  induction entries generalizing state with
  | nil => exact h
  | cons entry rest ih =>
    rw [List.forall_mem_cons] at hentries
    have hfirst := locates_buildEntry h entry.1 hentries.1
    rw [start_compile_entry]
    rcases hentry : (buildEntry entry.1 entry.2).start state with ⟨fault | identity, later⟩
    · rw [hentry] at hfirst
      exact hfirst
    · rw [hentry] at hfirst
      exact ih hentries.2 hfirst

theorem sameGraph_install {host : Host π κ ω} (hhost : ∀ plugin, (host.install plugin).Keeps SameGraph)
    (setting : Setting (Plugin π) ω) : (install host setting).Keeps SameGraph := by
  have hchange : ∀ f : Compiler π κ ω → Compiler π κ ω, (∀ compiler, (f compiler).root = compiler.root) →
      (∀ compiler, (f compiler).graph = compiler.graph) → (change f : Job π κ ω Unit).Keeps SameGraph :=
    fun f hroot hgraph state => ⟨hroot state.1, hgraph state.1⟩
  refine (Attempt.keeps_ofExcept _).bind fun plugin => ?_
  cases plugin with
  | stats =>
    refine Attempt.Keeps.bind ?_ fun _ => hchange _ (fun _ => rfl) fun _ => rfl
    refine (Attempt.keeps_look _).bind fun compiler => ?_
    exact Attempt.keeps_forM fun duty _ => hchange _ (fun _ => rfl) fun _ => rfl
  | foreign plugin => exact (hhost plugin).bind fun _ => hchange _ (fun _ => rfl) fun _ => rfl

theorem start_startWith_iff {α : Type} {job : Job π κ ω α} {compiler after : Compiler π κ ω}
    {world last : World ω} {value : α} :
    (startWith compiler job).start world = (.ok (value, after), last)
      ↔ job.start (compiler, world) = (.ok value, (after, last)) := by
  simp only [Attempt.start, startWith]
  rcases job (compiler, world) with ⟨failure | found, later⟩
  · simp
  · simp [Prod.ext_iff, and_assoc]

end Job

namespace Compiler

theorem start_prepare_iff {library : Library (Plugin π) ω} {config : Config (Plugin π) ω}
    {world ready : World ω} {prepared : Compiler π κ ω} :
    (prepare library config).start world = (.ok prepared, ready)
      ↔ ∃ root pipeline registry, world.tree.current.resolve? config.root = .ok root ∧
        (Pipeline.ofRules library config.rules).start world.registry = (.ok pipeline, registry) ∧
        prepared = { config, root, naming := config.naming, pipeline, outputFile := config.outputFile } ∧
        ready = { world with registry } := by
  simp only [prepare, Attempt.start_bind_eq_ok_iff, Attempt.start_pure, Prod.mk.injEq, Except.ok.injEq]
  constructor
  · rintro ⟨root, looked, hroot, pipeline, resolved, hpipeline, rfl, rfl⟩
    have hresolve : (world.tree.current.resolve? config.root).mapError Failure.path = .ok root :=
      congrArg Prod.fst hroot
    obtain rfl : world = looked := congrArg Prod.snd hroot
    have hrules : ((Pipeline.ofRules library config.rules).start world.registry).1 = .ok pipeline :=
      congrArg Prod.fst hpipeline
    obtain rfl := congrArg Prod.snd hpipeline
    exact ⟨root, pipeline, _, mapError_eq_ok_iff.1 hresolve, Prod.ext hrules rfl, rfl, rfl⟩
  · rintro ⟨root, pipeline, registry, hroot, hpipeline, rfl, rfl⟩
    refine ⟨root, world, Prod.ext (mapError_eq_ok_iff.2 hroot) rfl, pipeline, { world with registry }, ?_,
      rfl, rfl⟩
    rw [World.withRegistry, Attempt.start_within, hpipeline]

theorem start_ofConfig_iff {host : Host π κ ω} {config : Config (Plugin π) ω} {world made : World ω}
    {compiler : Compiler π κ ω} :
    (ofConfig host config).start world = (.ok compiler, made)
      ↔ ∃ prepared ready, (prepare host.library config).start world = (.ok prepared, ready) ∧
        (config.plugins.forM (Job.install host)).start (prepared, ready) = (.ok (), (compiler, made)) := by
  simp only [ofConfig, Attempt.start_bind_eq_ok_iff, Attempt.start_pure, Prod.mk.injEq, Except.ok.injEq]
  constructor
  · rintro ⟨prepared, ready, hprepare, ⟨⟨⟩, installed⟩, after, hinstall, rfl, rfl⟩
    exact ⟨prepared, ready, hprepare, Job.start_startWith_iff.1 hinstall⟩
  · rintro ⟨prepared, ready, hprepare, hinstall⟩
    exact ⟨prepared, ready, hprepare, ((), compiler), made, Job.start_startWith_iff.2 hinstall, rfl, rfl⟩

theorem fresh_of_ofConfig {host : Host π κ ω}
    (hhost : ∀ plugin, (host.install plugin).Keeps Job.SameGraph) {config : Config (Plugin π) ω}
    {world made : World ω} {compiler : Compiler π κ ω}
    (h : (ofConfig host config).start world = (.ok compiler, made)) :
    compiler.root = world.tree.current.resolve config.root ∧ compiler.graph = {} := by
  obtain ⟨prepared, ready, hprepare, hinstall⟩ := start_ofConfig_iff.1 h
  obtain ⟨root, pipeline, registry, hroot, -, rfl, rfl⟩ := start_prepare_iff.1 hprepare
  have hplugins : (config.plugins.forM (Job.install host)).Keeps Job.SameGraph :=
    Attempt.keeps_forM fun setting _ => Job.sameGraph_install hhost setting
  obtain ⟨hsame, hgraph⟩ := hplugins.of_start hinstall
  exact ⟨hsame.trans (FilePath.resolve?_eq_ok_iff.1 hroot).2, hgraph⟩

/-- Whatever the spelling of the root, the entries and the load targets: the modules that a compiler
builds are files below its root, each under the one identity that is the path from the root to it. -/
theorem located_of_build {host : Host π κ ω}
    (hhost : ∀ plugin, (host.install plugin).Keeps Job.SameGraph) {config : Config (Plugin π) ω}
    {world made : World ω} {compiler : Compiler π κ ω}
    (hmade : (ofConfig host config).start world = (.ok compiler, made)) :
    (Job.build.start (compiler, made)).2.1.graph.Located (Job.build.start (compiler, made)).2.2.tree
      (world.tree.current.resolve config.root) := by
  obtain ⟨hroot, hgraph⟩ := fresh_of_ofConfig hhost hmade
  have hfresh : Job.Locates made.tree compiler.root (compiler, made) := by
    refine ⟨rfl, rfl, ?_, ?_⟩
    · rw [hgraph]
      exact .empty
    · simp [hgraph]
  have hbuilt : Job.Locates made.tree compiler.root (Job.build.start (compiler, made)).2 := by
    cases hpaths : compiler.entryPaths with
    | error fault =>
      rw [Job.start_build_error hpaths]
      exact hfresh
    | ok paths =>
      rw [Job.start_build_ok hpaths]
      refine Job.locates_compile (fun path hpath identity hname => ?_) hfresh
      obtain ⟨declared, -, -, hresolve⟩ := exists_of_forall₂ (entryPaths_eq_ok_iff.1 hpaths) hpath
      exact exists_parts_of_resolve? hresolve hname
  have hresolved : compiler.root.anchor = .root ∧ Component.parent ∉ compiler.root.parts := by
    rw [hroot]
    exact ⟨FilePath.resolve_anchor _ _, FilePath.parent_notMem_settle _⟩
  rw [hbuilt.tree_eq, ← hroot]
  exact hbuilt.consistent.located hresolved.1 hresolved.2 hbuilt.below

def placeOf (path : String) : Place := (FilePath.ofString path).parts

/-- A world with a project in a directory, and three modules that load one another by detours. -/
def detourWorld : World Unit where
  tree := ⟨.ofString "/proj", [(placeOf "proj", .directory), (placeOf "proj/app", .directory),
    (placeOf "proj/app/lib", .directory),
    (placeOf "proj/app/main.py", .file "require('./lib/../lib//util')\n".toUTF8),
    (placeOf "proj/app/lib/util.py", .file "require('.././lib/base.py')\nrequire('base')\n".toUTF8),
    (placeOf "proj/app/lib/base.py", .file "x = 1\n".toUTF8)]⟩
  console := .start []
  registry := {}
  memory := ()

/-- A configuration that names the root and one file in several ways. -/
def detourConfig : Config (Plugin Unit) Unit where
  entries := [("main", .ofString "lib/.././main.py"), ("again", .ofString "//proj//app/main.py")]
  root := .ofString "../proj/./app/"

theorem located_of_build_detour :
    ∃ compiler made, (ofConfig Job.idleHost detourConfig).start detourWorld = (.ok compiler, made) ∧
      (Job.build.start (compiler, made)).2.1.graph.identities
        = ["./lib/base.py", "./lib/util.py", "./main.py"] ∧
      (Job.build.start (compiler, made)).2.1.graph.Located
        (Job.build.start (compiler, made)).2.2.tree (.ofString "/proj/app") := by
  have hbuilt : (match (ofConfig Job.idleHost detourConfig).start detourWorld with
      | (.ok compiler, made) => (Job.build.start (compiler, made)).2.1.graph.identities
      | (.error _, _) => []) = ["./lib/base.py", "./lib/util.py", "./main.py"] := by decide +kernel
  have hroot : detourWorld.tree.current.resolve detourConfig.root = .ofString "/proj/app" := by
    decide +kernel
  have hhost : ∀ plugin, (Job.idleHost.install plugin).Keeps Job.SameGraph :=
    fun _ => Attempt.keeps_pure ()
  rcases hmade : (ofConfig Job.idleHost detourConfig).start detourWorld with ⟨fault | compiler, made⟩
  · simp [hmade] at hbuilt
  · rw [hmade] at hbuilt
    exact ⟨compiler, made, rfl, hbuilt, hroot ▸ located_of_build hhost hmade⟩

def fileRootWorld : World Unit where
  tree := ⟨.ofString "/proj", [(placeOf "proj", .directory),
    (placeOf "proj/main.py", .file "x = 1\n".toUTF8)]⟩
  console := .start []
  registry := {}
  memory := ()

/-- A configuration whose root is that module, which is also the entry. -/
def fileRootConfig : Config (Plugin Unit) Unit where
  entries := [("main", .ofString ".")]
  root := .ofString "/proj/main.py"

/-- A root that is a file is a module whose identity is a step that stays. -/
theorem build_fileRoot :
    ∃ compiler made, (ofConfig Job.idleHost fileRootConfig).start fileRootWorld = (.ok compiler, made) ∧
      (Job.build.start (compiler, made)).1 = .ok () ∧
      ∃ identity ∈ (Job.build.start (compiler, made)).2.1.graph.identities, ¬ identity.Normal := by
  have hbuilt : (match (ofConfig Job.idleHost fileRootConfig).start fileRootWorld with
      | (.ok compiler, made) => ((Job.build.start (compiler, made)).1.toBool,
          (Job.build.start (compiler, made)).2.1.graph.identities)
      | (.error _, _) => (false, [])) = (true, ["./."]) := by decide +kernel
  rcases hmade : (ofConfig Job.idleHost fileRootConfig).start fileRootWorld with ⟨fault | compiler, made⟩
  · simp [hmade] at hbuilt
  · simp only [hmade, Prod.mk.injEq] at hbuilt
    obtain ⟨hok, hidentities⟩ := hbuilt
    refine ⟨compiler, made, rfl, ?_, "./.", by simp [hidentities], Identity.not_normal_stay⟩
    cases hanswer : (Job.build.start (compiler, made)).1 with
    | ok => rfl
    | error fault =>
      rw [hanswer] at hok
      cases hok

end Compiler
end Bundler
