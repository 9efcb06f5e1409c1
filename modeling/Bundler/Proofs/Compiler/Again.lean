import Bundler.Proofs.Compiler.Idle
import Bundler.Proofs.Compiler.Located
import Bundler.Proofs.Files.Again
import Bundler.Proofs.Processing.Again
import Bundler.Proofs.Processing.Steps
import Bundler.Proofs.Transform.Registration

/-!
# Running a second time

Resolving the references of rules does nothing to a registry but bring in the transforms at hand. Once
they are in, the same rules give the same pipeline and nothing changes any more (`again_of_ofRules`).

A bundle is made from the template and the files of its modules alone. Where transforms are functions and
the bundle takes the place of none of these files, a second run finds everything as the first one did: a
new compiler makes the same bundle, the same compiler makes it without looking at a module again, and
neither changes a file (`run_again`).
-/

namespace Bundler

variable {π κ ω : Type}

/-! ### Resolving references again -/

section Resolve

variable {α β : Type}

namespace Registry

/-- The attempt does nothing to a registry but bring in the transforms at hand, and it gives the same where
they are in already. -/
def Settles (attempt : Attempt (Registry ω) Failure α) : Prop :=
  ∀ registry value after, attempt.start registry = (.ok value, after) →
    (after = registry ∨ after = registry.load) ∧
      attempt.start registry.load = (.ok value, registry.load)

theorem settles_pure (value : α) : Settles (pure value : Attempt (Registry ω) Failure α) := by
  intro registry result after h
  cases h
  exact ⟨.inl rfl, rfl⟩

theorem Settles.bind {attempt : Attempt (Registry ω) Failure α} (hattempt : Settles attempt)
    {next : α → Attempt (Registry ω) Failure β} (hnext : ∀ value, Settles (next value)) :
    Settles (attempt >>= next) := by
  intro registry result after h
  obtain ⟨value, between, hfirst, hrest⟩ := Attempt.start_bind_eq_ok_iff.1 h
  obtain ⟨hbetween, hloaded⟩ := hattempt registry value between hfirst
  obtain ⟨hafter, hagain⟩ := hnext value between result after hrest
  have hload : between.load = registry.load := by
    rcases hbetween with rfl | rfl
    · rfl
    · exact load_load
  rw [hload] at hafter hagain
  refine ⟨?_, Attempt.start_bind_eq_ok_iff.2 ⟨value, registry.load, hloaded, hagain⟩⟩
  rcases hafter with rfl | rfl
  · exact hbetween
  · exact .inr rfl

theorem settles_mapM {f : α → Attempt (Registry ω) Failure β} (hf : ∀ value, Settles (f value))
    (values : List α) : Settles (values.mapM f) := by
  induction values with
  | nil => exact settles_pure []
  | cons value rest ih =>
    rw [List.mapM_cons]
    exact (hf value).bind fun _ => ih.bind fun _ => settles_pure _

theorem settles_resolve (library : Library π ω) (reference : TransformRef ω) :
    Settles (resolve library reference) := by
  cases reference with
  | direct transform => exact settles_pure transform
  | named reference =>
    intro registry transform after h
    simp only [resolve, Attempt.start, find?, load_load] at h ⊢
    cases hfound : Data.fieldOf? reference registry.load.names with
    | some found =>
      rw [hfound] at h
      cases h
      exact ⟨.inr rfl, rfl⟩
    | none =>
      rw [hfound] at h
      obtain ⟨himported, rfl⟩ := Prod.mk.inj h
      exact ⟨.inr rfl, by simp only [himported]⟩

end Registry

/-- The pipeline of rules is the same the second time, and the registry stays as the first time left it. -/
theorem Pipeline.again_of_ofRules {library : Library π ω} {rules : List (Rule (TransformRef ω))}
    {pipeline : Pipeline ω} {registry after : Registry ω}
    (h : (ofRules library rules).start registry = (.ok pipeline, after)) :
    (ofRules library rules).start after = (.ok pipeline, after) := by
  have hrule : ∀ rule, Registry.Settles (resolveRule library rule) := fun rule =>
    (Registry.settles_mapM (Registry.settles_resolve library) rule.use).bind
      fun _ => Registry.settles_pure _
  have hsettles : Registry.Settles (ofRules library rules) := Registry.settles_mapM hrule rules
  obtain ⟨rfl | rfl, hagain⟩ := hsettles registry pipeline after h
  · exact h
  · exact hagain

end Resolve

/-! ### Making a compiler again -/

namespace Compiler

variable {host : Host π κ ω} {config : Config (Plugin π) ω} {world made : World ω}
  {compiler : Compiler π κ ω}

/-- What a compiler without plugins is made from. -/
theorem start_ofConfig_bare_iff (hplugins : config.plugins = []) :
    (ofConfig host config).start world = (.ok compiler, made)
      ↔ ∃ root pipeline registry, world.tree.current.resolve? config.root = .ok root ∧
        (Pipeline.ofRules host.library config.rules).start world.registry = (.ok pipeline, registry) ∧
        compiler = { config, root, naming := config.naming, pipeline, outputFile := config.outputFile } ∧
        made = { world with registry } := by
  rw [← start_prepare_iff, start_ofConfig_iff, hplugins]
  constructor
  · rintro ⟨prepared, ready, hprepare, ⟨⟩⟩
    exact hprepare
  · intro hprepare
    exact ⟨compiler, made, hprepare, rfl⟩

theorem addAsset_addAsset (compiler : Compiler π κ ω) (text : String) :
    (compiler.addAsset text).addAsset text = compiler.addAsset text := by
  simp [addAsset, List.filter_append, List.filter_filter]

end Compiler

/-! ### Writing again -/

namespace Artifact

variable {world written other : World ω} {path : FilePath} {text : String} {press : Press}

/-- What was written is written again without a change. -/
theorem start_writeTo_again (h : (writeTo path text press).start world = (.ok (), written))
    (hother : other.tree = written.tree) : (writeTo path text press).start other = (.ok (), other) := by
  obtain ⟨made, bytes, tree, hmade, hencode, hwrite, rfl⟩ := start_writeTo_eq_ok_iff.1 h
  obtain ⟨hagain, hwriteAgain, -⟩ := FileTree.again_of_write hmade hwrite
  obtain rfl : other.tree = tree := hother
  exact start_writeTo_eq_ok_iff.2 ⟨other.tree, bytes, other.tree, hagain, hencode, hwriteAgain, rfl⟩

theorem length_of_writeTo (h : (writeTo path text press).start world = (.ok (), written)) :
    world.tree.nodes.length ≤ written.tree.nodes.length := by
  obtain ⟨made, bytes, tree, hmade, -, hwrite, rfl⟩ := start_writeTo_eq_ok_iff.1 h
  exact (FileTree.again_of_write hmade hwrite).2.2

theorem eq_of_writeTo (h : (writeTo path text press).start world = (.ok (), written)) :
    written = { world with tree := written.tree } := by
  obtain ⟨made, bytes, tree, -, -, -, rfl⟩ := start_writeTo_eq_ok_iff.1 h
  rfl

theorem repeats_render {artifact : Artifact} {pipeline : Pipeline ω} {tree tree' : FileTree}
    (hpure : pipeline.Pure)
    (htemplate : ∀ bytes, tree.read artifact.template = .ok bytes →
      tree'.read artifact.template = .ok bytes) :
    (artifact.render pipeline press).Repeats (World.Beside tree tree') :=
  (Pipeline.repeats_load hpure htemplate).bind fun _ => (Attempt.respects_ofExcept _).repeats

theorem tells_render {artifact : Artifact} {pipeline : Pipeline ω} (hpure : pipeline.Pure) :
    (artifact.render pipeline press).Keeps World.Tells :=
  (Pipeline.tells_load hpure _).bind fun _ => Attempt.keeps_ofExcept _

end Artifact

/-! ### Building again -/

namespace Job

variable {compiler ended : Compiler π κ ω} {world other last : World ω} {result : BundleResult}
  {press : Press}

section Compile

variable {name : String} {path : FilePath} {paths : List (String × FilePath)} {graph after : Graph}

theorem start_compile_cons_iff :
    (compile ((name, path) :: paths)).start ({ compiler with graph }, world)
        = (.ok (), ({ compiler with graph := after }, last))
      ↔ ∃ identity between ready,
        Attempt.start (Build.start compiler.surroundings (world.tree.nodes.length + 2) (some name) path)
          (graph, world) = (.ok identity, (between, ready)) ∧
        (compile paths).start ({ compiler with graph := between }, ready)
          = (.ok (), ({ compiler with graph := after }, last)) := by
  rcases hbuild : Attempt.start (Build.start compiler.surroundings (world.tree.nodes.length + 2)
    (some name) path) (graph, world) with ⟨fault | identity, between, ready⟩
  · simp [start_compile_cons hbuild, Except.map]
  · simp [start_compile_cons hbuild, Except.map]

/-- Building entries tells of it and does nothing else to the world, and all modules that were there stay
in their places. -/
theorem grows_of_compile (hpure : compiler.pipeline.Pure)
    (h : (compile paths).start ({ compiler with graph }, world)
      = (.ok (), ({ compiler with graph := after }, last))) (hgraph : graph.Consistent) :
    world.Tells last ∧ after.Consistent ∧ graph.modules <+: after.modules := by
  induction paths generalizing graph world with
  | nil =>
    cases h
    exact ⟨Std.Refl.refl _, hgraph, List.prefix_rfl⟩
  | cons entry rest ih =>
    obtain ⟨name, path⟩ := entry
    obtain ⟨identity, between, ready, hbuild, hrest⟩ := start_compile_cons_iff.1 h
    have haround : compiler.surroundings.Keeps World.Tells := Processing.tells_surroundings hpure
    have htells := Build.keeps_start haround (world.tree.nodes.length + 2) (some name) path (graph, world)
    rw [hbuild] at htells
    obtain ⟨-, hconsistent, hgrows, -⟩ :=
      Build.grows_of_start Processing.namesModules_surroundings hbuild hgraph
    obtain ⟨hlast, hafter, hmodules⟩ := ih hrest hconsistent
    exact ⟨Trans.trans htells hlast, hafter, hgrows.modules.trans hmodules⟩

/-- Entries that were built are built again, in another world with the same files of modules. -/
theorem again_of_compile (hpure : compiler.pipeline.Pure) {tree tree' : FileTree}
    {good : FilePath → Prop}
    (hfiles : ∀ path, good path → ∀ bytes, tree.read path = .ok bytes → tree'.read path = .ok bytes)
    (hnodes : tree.nodes.length ≤ tree'.nodes.length)
    (h : (compile paths).start ({ compiler with graph }, world)
      = (.ok (), ({ compiler with graph := after }, last))) (hgraph : graph.Consistent)
    (hgood : ∀ entry ∈ after.modules, good entry.2.path) (hworlds : world.Beside tree tree' other) :
    ∃ later, (compile paths).start ({ compiler with graph }, other)
        = (.ok (), ({ compiler with graph := after }, later)) ∧ last.Beside tree tree' later := by
  induction paths generalizing graph world other with
  | nil =>
    cases h
    exact ⟨other, rfl, hworlds⟩
  | cons entry rest ih =>
    obtain ⟨name, path⟩ := entry
    obtain ⟨identity, between, ready, hbuild, hrest⟩ := start_compile_cons_iff.1 h
    have hnames : compiler.surroundings.NamesModules := Processing.namesModules_surroundings
    obtain ⟨-, hconsistent, -, -⟩ := Build.grows_of_start hnames hbuild hgraph
    obtain ⟨-, -, hmodules⟩ := grows_of_compile hpure hrest hconsistent
    have hdepth : world.tree.nodes.length + 2 ≤ other.tree.nodes.length + 2 := by
      rw [hworlds.tree, hworlds.tree']
      omega
    obtain ⟨ready', hbuild', hready⟩ := Build.start_again
      (Processing.repeats_surroundings hpure hfiles) hnames hbuild hgraph
      (fun entry hentry => hgood entry (hmodules.subset hentry)) hworlds hdepth
    obtain ⟨later, hlater, hlast⟩ := ih hrest hconsistent hready
    exact ⟨later, start_compile_cons_iff.2 ⟨identity, between, ready', hbuild', hlater⟩, hlast⟩

/-- The module of an entry is done, and the entry is in the graph. -/
def Settled (root : FilePath) (graph : Graph) (entry : String × FilePath) : Prop :=
  ∃ identity, Identity.ofPath? root entry.2 = some identity ∧ graph.visit identity = .done ∧
    Data.fieldOf? entry.1 graph.entries = some identity

/-- Building entries settles them, leaves modules done and changes no other entry. -/
theorem settled_of_compile
    (h : (compile paths).start ({ compiler with graph }, world)
      = (.ok (), ({ compiler with graph := after }, last))) (hgraph : graph.Consistent)
    (hnodup : (paths.map (·.1)).Nodup) :
    (∀ entry ∈ paths, Settled compiler.root after entry) ∧
      (∀ identity, graph.visit identity = .done → after.visit identity = .done) ∧
      ∀ name ∉ paths.map (·.1), Data.fieldOf? name after.entries = Data.fieldOf? name graph.entries := by
  induction paths generalizing graph world with
  | nil =>
    cases h
    exact ⟨by simp, fun _ h => h, fun _ _ => rfl⟩
  | cons entry rest ih =>
    obtain ⟨name, path⟩ := entry
    obtain ⟨identity, between, ready, hbuild, hrest⟩ := start_compile_cons_iff.1 h
    obtain ⟨hname, hconsistent, hgrows, hvisit⟩ :=
      Build.grows_of_start Processing.namesModules_surroundings hbuild hgraph
    rw [List.map_cons, List.nodup_cons] at hnodup
    obtain ⟨hsettled, hdone, hentries⟩ := ih hrest hconsistent hnodup.2
    have hnamed : between.entries = Data.setField name identity graph.entries := hgrows.entries
    refine ⟨List.forall_mem_cons.2 ⟨⟨identity, hname, hdone _ hvisit, ?_⟩, hsettled⟩, fun other hother => ?_,
      fun other hother => ?_⟩
    · rw [hentries name hnodup.1, hnamed, Data.fieldOf?_setField, if_pos rfl]
    · exact hdone other (hgrows.done (hgraph.named (some name)) hconsistent hother)
    · rw [List.map_cons, List.mem_cons, not_or] at hother
      rw [hentries other hother.2, hnamed, Data.fieldOf?_setField, if_neg hother.1]

theorem start_compile_settled (h : ∀ entry ∈ paths, Settled compiler.root compiler.graph entry)
    (world : World ω) : (compile paths).start (compiler, world) = (.ok (), (compiler, world)) := by
  induction paths with
  | nil => rfl
  | cons entry rest ih =>
    rw [List.forall_mem_cons] at h
    obtain ⟨name, path⟩ := entry
    obtain ⟨⟨identity, hname, hvisit, hentry⟩, hrest⟩ := h
    exact start_compile_cons_iff.2 ⟨identity, compiler.graph, world,
      Build.start_of_done hname hvisit hentry world, ih hrest⟩

end Compile

/-! ### Running again -/

theorem Stages.leaves (h : Stages press compiler world result ended last) (hpure : compiler.pipeline.Pure)
    (hgraph : compiler.graph.Consistent) : ∃ text bytes output,
      ended.asset? result.outputFile = some text ∧ press.encode text = .ok bytes ∧
      FileTree.Written result.outputFile bytes world.tree last.tree ∧
      world.tree.nodes.length ≤ last.tree.nodes.length ∧
      last = { world.showing output with tree := last.tree } := by
  cases h with
  | @intro paths graph built told text rendered written _ hpaths hcompile hbuilt hrender hwrite
      hwritten =>
    have hcompiled : (compile paths).start ({ compiler with graph := compiler.graph }, world)
        = (.ok (), ({ compiler with graph }, built)) := hcompile
    obtain ⟨htells, -, -⟩ := grows_of_compile hpure hcompiled hgraph
    have htold := (World.tells_log _ _).of_start hbuilt
    have hrendered := (Artifact.tells_render hpure).of_start hrender
    obtain ⟨bytes, hencode, hfiles⟩ := start_writeTo_ok hwrite
    have hnodes := Artifact.length_of_writeTo hwrite
    obtain ⟨output, rfl⟩ : world.Tells rendered := Trans.trans (Trans.trans htells htold) hrendered
    obtain ⟨output', rfl⟩ := (World.tells_log _ _).of_start hwritten
    refine ⟨text, bytes, output', Compiler.asset?_addAsset _ text, hencode, hfiles, hnodes, ?_⟩
    rw [Artifact.eq_of_writeTo hwrite]
    rfl

/-- The way of a run from its graph on, once more in a world with the files that it left. -/
theorem finish_again {artifact : Artifact} {pipeline : Pipeline ω} {path : FilePath} {text : String}
    {notice notice' : String} {tree : FileTree} {built told rendered written fresh : World ω}
    (hpure : pipeline.Pure) (hbuilt : (World.log .info notice).start built = (.ok (), told))
    (hrender : (artifact.render pipeline press).start told = (.ok text, rendered))
    (hwrite : (Artifact.writeTo path text press).start rendered = (.ok (), written))
    (hwritten : (World.log .success notice').start written = (.ok (), last))
    (htemplate : ∀ bytes, tree.read artifact.template = .ok bytes →
      last.tree.read artifact.template = .ok bytes)
    (hworlds : built.Beside tree last.tree fresh) :
    ∃ told' rendered' later, (World.log .info notice).start fresh = (.ok (), told') ∧
      (artifact.render pipeline press).start told' = (.ok text, rendered') ∧
      (Artifact.writeTo path text press).start rendered' = (.ok (), rendered') ∧
      (World.log .success notice').start rendered' = (.ok (), later) ∧ later.tree = last.tree := by
  have hlast : last.tree = written.tree := (World.sameFiles_log _ _).of_start hwritten
  obtain ⟨told', htold', htold⟩ :=
    (World.respects_log_beside _ _).repeats built fresh () told hworlds hbuilt
  obtain ⟨rendered', hrender', hrendered⟩ :=
    Artifact.repeats_render hpure htemplate told told' text rendered htold hrender
  have hwrite' : (Artifact.writeTo path text press).start rendered' = (.ok (), rendered') :=
    Artifact.start_writeTo_again hwrite (hrendered.tree'.trans hlast)
  have hsame : written.Beside last.tree last.tree rendered' := by
    rw [Artifact.eq_of_writeTo hwrite]
    exact ⟨hlast.symm, hrendered.tree', hrendered.threshold, hrendered.handlers, hrendered.words⟩
  obtain ⟨later, hlater, hend⟩ :=
    (World.respects_log_beside _ _).repeats written rendered' () last hsame hwritten
  exact ⟨told', rendered', later, htold', hrender', hwrite', hlater, hend.tree'⟩

/-- The bundle takes the place of no module and not of the template. -/
structure Clear (ended : Compiler π κ ω) (tree : FileTree) : Prop where
  modules : ∀ entry ∈ ended.graph.modules, ¬ tree.SameFile entry.2.path ended.outputFile
  template : ¬ tree.SameFile templatePath ended.outputFile

theorem Stages.again (h : Stages press compiler world result ended last) (hpure : compiler.pipeline.Pure)
    (hgraph : compiler.graph.Consistent) (hclear : Clear ended last.tree) {fresh : World ω}
    (hworlds : world.Beside world.tree last.tree fresh) :
    ∃ later, Stages press compiler fresh result ended later ∧ later.tree = last.tree := by
  obtain ⟨_, _, _, -, -, hfiles, hnodes, -⟩ := h.leaves hpure hgraph
  have hread : ∀ path, ¬ last.tree.SameFile path result.outputFile → ∀ bytes,
      world.tree.read path = .ok bytes → last.tree.read path = .ok bytes :=
    fun path hpath bytes => hfiles.read_eq hpath
  cases h with
  | @intro paths graph built told text rendered _ _ hpaths hcompile hbuilt hrender hwrite hwritten =>
    have hcompiled : (compile paths).start ({ compiler with graph := compiler.graph }, world)
        = (.ok (), ({ compiler with graph }, built)) := hcompile
    obtain ⟨built', hcompile', hbuilt'⟩ :=
      again_of_compile hpure hread hnodes hcompiled hgraph hclear.modules hworlds
    obtain ⟨told', rendered', later, htold, hrendered, hwritten', hlater, htree⟩ :=
      finish_again hpure hbuilt hrender hwrite hwritten (hread _ hclear.template) hbuilt'
    exact ⟨later, .intro hpaths hcompile' htold hrendered hwritten' hlater, htree⟩

/-- A run that finds all its entries built. -/
theorem stages_of_built {found : Compiler π κ ω} {paths : List (String × FilePath)} {text : String}
    {told rendered written : World ω} (hpaths : found.entryPaths = .ok paths)
    (hcompile : (compile paths).start (found, world) = (.ok (), (found, world)))
    (hbuilt : (World.log .info (builtNotice found.graph.modules.length paths.length)).start world
      = (.ok (), told))
    (hrender : (found.artifact.render found.pipeline press).start told = (.ok text, rendered))
    (hwrite : (Artifact.writeTo found.outputFile text press).start rendered = (.ok (), written))
    (hwritten : (World.log .success (writtenNotice found.outputFile)).start written = (.ok (), last)) :
    Stages press found world (found.addAsset text).result (found.addAsset text) last :=
  .intro hpaths hcompile hbuilt hrender hwrite hwritten

theorem Stages.again_of_ended (h : Stages press compiler world result ended last)
    (hpure : compiler.pipeline.Pure) (hgraph : compiler.graph.Consistent)
    (hnames : (compiler.config.entries.map (·.1)).Nodup) (hclear : Clear ended last.tree)
    {fresh : World ω} (hworlds : world.Beside world.tree last.tree fresh) :
    ∃ later, Stages press ended fresh result ended later ∧ later.tree = last.tree := by
  obtain ⟨_, _, _, -, -, hfiles, -, -⟩ := h.leaves hpure hgraph
  cases h with
  | @intro paths graph built told text rendered _ _ hpaths hcompile hbuilt hrender hwrite hwritten =>
    have hcompiled : (compile paths).start ({ compiler with graph := compiler.graph }, world)
        = (.ok (), ({ compiler with graph }, built)) := hcompile
    obtain ⟨htells, -, -⟩ := grows_of_compile hpure hcompiled hgraph
    obtain ⟨hsettled, -, -⟩ := settled_of_compile hcompiled hgraph
      (by rwa [Compiler.names_of_entryPaths hpaths])
    have hbeside : built.Beside world.tree last.tree fresh := by
      obtain ⟨output, rfl⟩ := htells
      exact ⟨rfl, hworlds.tree', hworlds.threshold, hworlds.handlers, hworlds.words⟩
    obtain ⟨told', rendered', later, htold, hrendered, hwritten', hlater, htree⟩ :=
      finish_again hpure hbuilt hrender hwrite hwritten
        (fun bytes hread => hfiles.read_eq hclear.template hread) hbeside
    let found : Compiler π κ ω := ({ compiler with graph } : Compiler π κ ω).addAsset text
    have hpaths' : found.entryPaths = .ok paths := (entryPaths_eq rfl rfl).trans hpaths
    have hsettled' : ∀ entry ∈ paths, Settled found.root found.graph entry := hsettled
    have hagain := stages_of_built hpaths' (start_compile_settled hsettled' fresh) htold hrendered
      hwritten' hlater
    rw [Compiler.addAsset_addAsset] at hagain
    exact ⟨later, hagain, htree⟩

theorem Stages.exists_paths (h : Stages press compiler world result ended last) :
    ended.hooks = compiler.hooks ∧ ∃ paths, ended.entryPaths = .ok paths := by
  cases h with
  | intro hpaths => exact ⟨rfl, _, (entryPaths_eq rfl rfl).trans hpaths⟩

theorem Stages.settled (h : Stages press compiler world result ended last)
    (hgraph : compiler.graph.Consistent) (hnames : (compiler.config.entries.map (·.1)).Nodup)
    {paths : List (String × FilePath)} (hpaths : ended.entryPaths = .ok paths) :
    ∀ entry ∈ paths, Settled ended.root ended.graph entry := by
  cases h with
  | @intro declared graph built told text rendered written _ hdeclared hcompile =>
    have hcompiled : (compile declared).start ({ compiler with graph := compiler.graph }, world)
        = (.ok (), ({ compiler with graph }, built)) := hcompile
    obtain rfl : declared = paths := Except.ok.inj (hdeclared.symm.trans hpaths)
    exact (settled_of_compile hcompiled hgraph (by rwa [Compiler.names_of_entryPaths hdeclared])).1

end Job

/-- A world with the files that a run left. Its console takes the messages that were taken before the
run, and its registry is the one from before the run or the one that the run left. -/
structure World.Revisits (world last fresh : World ω) : Prop where
  tree : fresh.tree = last.tree
  threshold : fresh.console.threshold = world.console.threshold
  handlers : fresh.console.handlers = world.console.handlers
  words : fresh.console.words = world.console.words
  registry : fresh.registry = world.registry ∨ fresh.registry = last.registry

namespace Compiler

variable {host : Host π κ ω} {config : Config (Plugin π) ω} {world made last : World ω}
  {compiler ended : Compiler π κ ω} {result : BundleResult}

/-- A run can be repeated: the bundle is in its file, and neither a new compiler nor the one that ran
makes anything else of the files that the run left. -/
structure Repeatable (host : Host π κ ω) (config : Config (Plugin π) ω) (world last : World ω)
    (compiler ended : Compiler π κ ω) (result : BundleResult) : Prop where
  /-- The bundle is in its file. -/
  written : ∃ text bytes, ended.asset? result.outputFile = some text ∧
    host.press.encode text = .ok bytes ∧ last.tree.read result.outputFile = .ok bytes
  /-- A new compiler makes the same of the files, and they stay as they are. -/
  fresh : ∀ fresh, world.Revisits last fresh → ∃ ready later,
    (ofConfig host config).start fresh = (.ok compiler, ready) ∧
    (Job.run host).start (compiler, ready) = (.ok result, (ended, later)) ∧ later.tree = last.tree
  /-- So does the compiler that ran. -/
  same : ∀ fresh, world.Revisits last fresh → ∃ later,
    (Job.run host).start (ended, fresh) = (.ok result, (ended, later)) ∧ later.tree = last.tree
  /-- It builds its graph anew without looking at files, whatever they are. -/
  built : ∀ elsewhere : World ω, Job.build.start (ended, elsewhere) = (.ok (), (ended, elsewhere))
  /-- No entry takes a step of the work on modules. -/
  unread : ∀ paths, ended.entryPaths = .ok paths → ∀ entry ∈ paths, ∀ steps (elsewhere : World ω),
    ∃ identity,
      Processing.Call.watch ended.root ended.naming ended.pipeline
          { entry := some entry.1, path := entry.2 } (ended.graph, steps, elsewhere)
        = (.ok identity, (ended.graph, steps, elsewhere))

/-- A run of a compiler without plugins, whose transforms are functions and whose bundle takes the place
of no module and not of the template, can be repeated. -/
theorem run_again (hplugins : config.plugins = []) (hnames : (config.entries.map (·.1)).Nodup)
    (hmade : (ofConfig host config).start world = (.ok compiler, made)) (hpure : compiler.pipeline.Pure)
    (hrun : (Job.run host).start (compiler, made) = (.ok result, (ended, last)))
    (hclear : Job.Clear ended last.tree) :
    Repeatable host config world last compiler ended result := by
  obtain ⟨root, pipeline, registry, hroot, hrules, rfl, rfl⟩ := (start_ofConfig_bare_iff hplugins).1 hmade
  have hstages := (Job.start_run_iff host rfl).1 hrun
  obtain ⟨text, bytes, output, hasset, hencode, hfiles, -, hlast⟩ := hstages.leaves hpure .empty
  have hregistry : last.registry = registry := by rw [hlast]; rfl
  obtain ⟨hhooks, paths, hpaths⟩ := hstages.exists_paths
  have hbeside : ∀ fresh, world.Revisits last fresh → ∀ registry',
      World.Beside world.tree last.tree { world with registry } { fresh with registry := registry' } :=
    fun fresh h registry' => ⟨rfl, h.tree, h.threshold.symm, h.handlers.symm, h.words.symm⟩
  refine ⟨⟨text, bytes, hasset, hencode, hfiles.read⟩, fun fresh h => ?_, fun fresh h => ?_, fun elsewhere => ?_,
    fun paths' hpaths' entry hentry steps elsewhere => ?_⟩
  · have hresolve : fresh.tree.current.resolve? config.root = .ok root := by
      rw [h.tree, hfiles.current]
      exact hroot
    have hagain : (Pipeline.ofRules host.library config.rules).start fresh.registry
        = (.ok pipeline, registry) := by
      rcases h.registry with hsame | hsame
      · rw [hsame, hrules]
      · rw [hsame, hregistry, Pipeline.again_of_ofRules hrules]
    obtain ⟨later, hlater, htree⟩ := hstages.again hpure .empty hclear (hbeside fresh h registry)
    exact ⟨_, later, (start_ofConfig_bare_iff hplugins).2 ⟨root, pipeline, registry, hresolve, hagain, rfl, rfl⟩,
      (Job.start_run_iff host rfl).2 hlater, htree⟩
  · obtain ⟨later, hlater, htree⟩ :=
      hstages.again_of_ended hpure .empty hnames hclear (hbeside fresh h fresh.registry)
    exact ⟨later, (Job.start_run_iff host hhooks).2 hlater, htree⟩
  · rw [Job.start_build_ok hpaths]
    exact Job.start_compile_settled (hstages.settled .empty hnames hpaths) elsewhere
  · obtain ⟨identity, hname, hvisit, hentry⟩ := hstages.settled .empty hnames hpaths' entry hentry
    exact ⟨identity, Build.start_of_done hname hvisit hentry (steps, elsewhere)⟩

def bundledConfig : Config (Plugin Unit) Unit := { entries := [("main", .ofString "main.py")], root := .root }

/-- The bundle of a pair can be made again. -/
theorem run_again_bundled : ∃ compiler ended last result,
    Repeatable Job.idleHost bundledConfig Job.bundledWorld last compiler ended result := by
  let compiler : Compiler Unit Unit Unit :=
    { config := bundledConfig, root := .root, naming := {}, pipeline := [],
      outputFile := bundledConfig.outputFile }
  have hmade : (ofConfig Job.idleHost bundledConfig).start Job.bundledWorld
      = (.ok compiler, Job.bundledWorld) :=
    (start_ofConfig_bare_iff rfl).2 ⟨.root, [], {}, rfl, rfl, rfl, rfl⟩
  obtain ⟨result, hresult⟩ : ∃ result, ((Job.run Job.idleHost).start (compiler, Job.bundledWorld)).1
      = .ok result :=
    Job.exists_result_of_goesThrough rfl rfl rfl (by decide +kernel) (by decide +kernel)
      Job.readText_bundledWorld (by decide +kernel)
  rcases hrun : (Job.run Job.idleHost).start (compiler, Job.bundledWorld) with ⟨outcome, ended, last⟩
  rw [hrun] at hresult
  obtain rfl : outcome = .ok result := hresult
  have hclear : Job.Clear ended last.tree := by
    let main : FilePath := ⟨.root, [⟨"main.py", by decide +kernel⟩]⟩
    let lib : FilePath := ⟨.root, [⟨"lib.py", by decide +kernel⟩]⟩
    have hpaths : ((Job.build.start (compiler, Job.bundledWorld)).2.1.graph.modules.all
        fun entry => entry.2.path = main ∨ entry.2.path = lib) = true := by decide +kernel
    have hstages := (Job.start_run_iff Job.idleHost rfl).1 hrun
    cases hstages with
    | intro hentries hcompile =>
      rw [Job.start_build_ok hentries, hcompile, List.all_eq_true] at hpaths
      refine ⟨fun entry hentry => ?_, FileTree.not_sameFile (by decide) (by decide) (by decide)⟩
      rcases of_decide_eq_true (hpaths entry hentry) with hpath | hpath
      · rw [hpath]
        exact FileTree.not_sameFile (by decide) (by decide) (by decide)
      · rw [hpath]
        exact FileTree.not_sameFile (by decide) (by decide) (by decide)
  exact ⟨compiler, ended, last, result,
    run_again rfl (by simp [bundledConfig]) hmade (by simp [Pipeline.Pure, compiler]) hrun hclear⟩

end Compiler
end Bundler
