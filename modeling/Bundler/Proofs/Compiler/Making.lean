import Bundler.Proofs.Compiler.Events
import Bundler.Proofs.Compiler.Located
import Bundler.Proofs.Transform.References

/-!
# What a compiler is made of

Settings become a compiler when they are those of a configuration, each reference in its rules means something that
can be called, and each of its plugins is loaded and installed, one after the other. Otherwise there is a fault of
the configuration, or what the code of a plugin itself ends with, but for three things that nothing looks for: a
pattern that repeats something too often, a root with a null character and a module with a relative name. No file
is read for it, unless a plugin does so. The main statement is `outcome_of_ofSetting`.
-/

namespace Bundler

variable {π κ ω : Type}

/-- Two worlds are the same but for what stands in their files. -/
structure World.SameButFiles (world other : World ω) : Prop where
  current : world.tree.current = other.tree.current
  console : world.console = other.console
  registry : world.registry = other.registry
  memory : world.memory = other.memory

/-! ### Loading plugins -/

/-- The failure of something that should have made a plugin. -/
def MakeFault.failure : MakeFault → Failure
  | .raised error => .raised error
  | .invalid record mistakes => .invalid record mistakes

theorem MakeFault.not_isConfig (fault : MakeFault) : ¬ fault.failure.IsConfig := by
  rintro ⟨other, h⟩
  cases fault <;> cases h

/-- What a declaration among the plugins means: it is that thing, or the name of it in a library. -/
inductive Denotes (library : Library (Plugin π) ω) : Setting (Plugin π) ω → Thing (Plugin π) ω → Prop
  | thing (thing) : Denotes library (.foreign thing) thing
  | reference {text thing} (hnames : library.Names text thing) : Denotes library (.string text) thing

/-- The thing is a plugin, or it makes one. -/
inductive Thing.Gives (plugin : Plugin π) : Thing (Plugin π) ω → Prop
  | object (shown) : Gives plugin (.object shown (some plugin))
  | maker {maker} (hmake : maker.make = .ok (some plugin)) : Gives plugin (.maker maker)

/-- The plugin that a declaration is for. -/
def Declares (library : Library (Plugin π) ω) (declared : Setting (Plugin π) ω) (plugin : Plugin π) : Prop :=
  ∃ thing, Denotes library declared thing ∧ thing.Gives plugin

section LoadPlugin

variable {library : Library (Plugin π) ω} {declared : Setting (Plugin π) ω} {plugin : Plugin π} {shown : String}
  {thing : Thing (Plugin π) ω} {failure : Failure}

theorem pluginOf_eq_ok_iff : pluginOf shown thing = .ok plugin ↔ thing.Gives plugin := by
  constructor
  · intro h
    unfold pluginOf at h
    split at h
    · cases h
      exact .object _
    · split at h
      · next hmake =>
        cases h
        exact .maker hmake
      all_goals cases h
    · cases h
  · intro h
    cases h with
    | object shown => rfl
    | maker hmake => simp only [pluginOf, hmake]

theorem escapes_pluginOf_iff : Escapes (pluginOf shown thing) failure ↔
    ∃ maker fault, thing = .maker maker ∧ maker.make = .error fault ∧ failure = fault.failure := by
  constructor
  · rintro ⟨h, hfailure⟩
    unfold pluginOf at h
    split at h
    · cases h
    · next maker =>
      split at h
      · cases h
      · cases h
        exact absurd ⟨_, rfl⟩ hfailure
      · next raised hmake =>
        cases h
        exact ⟨maker, _, rfl, hmake, rfl⟩
      · next record mistakes hmake =>
        cases h
        exact ⟨maker, _, rfl, hmake, rfl⟩
    · cases h
      exact absurd ⟨_, rfl⟩ hfailure
  · rintro ⟨maker, fault, rfl, hmake, rfl⟩
    refine ⟨?_, fault.not_isConfig⟩
    cases fault <;> simp only [pluginOf, hmake, MakeFault.failure]

theorem pluginMember_eq (library : Library (Plugin π) ω) (text : String) : pluginMember library text
    = library.lookUp (.pluginForm text) (.pluginNotFound text) text := rfl

theorem loadPlugin_eq_ok_iff : loadPlugin library declared = .ok plugin ↔ Declares library declared plugin := by
  constructor
  · intro h
    unfold loadPlugin at h
    dsimp only at h
    split at h
    · next text =>
      obtain ⟨thing, hthing, hplugin⟩ := bind_eq_ok_iff.1 h
      exact ⟨thing, .reference (Library.lookUp_eq_ok_iff.1 hthing), pluginOf_eq_ok_iff.1 hplugin⟩
    · next thing => exact ⟨thing, .thing thing, pluginOf_eq_ok_iff.1 h⟩
    · cases h
  · rintro ⟨thing, hdenotes, hgives⟩
    cases hdenotes with
    | thing => exact pluginOf_eq_ok_iff.2 hgives
    | reference hnames =>
      exact bind_eq_ok_iff.2 ⟨thing, Library.lookUp_eq_ok_iff.2 hnames, pluginOf_eq_ok_iff.2 hgives⟩

/-- Loading a plugin fails for no fault of the configuration just when it is declared by a reference whose module is
relative or when what should make it fails. -/
theorem escapes_loadPlugin_iff : Escapes (loadPlugin library declared) failure ↔
    (∃ text module, declared = .string text ∧ IsRelative text module ∧ failure = .relativeImport module) ∨
      ∃ maker fault, Denotes library declared (.maker maker) ∧ maker.make = .error fault ∧
        failure = fault.failure := by
  unfold loadPlugin
  dsimp only
  split
  · next text =>
    rw [pluginMember_eq, escapes_bind_iff, Library.escapes_lookUp_iff]
    simp only [Library.lookUp_eq_ok_iff, escapes_pluginOf_iff]
    constructor
    · rintro (⟨module, hrelative, rfl⟩ | ⟨thing, hnames, maker, fault, rfl, hmake, rfl⟩)
      · exact .inl ⟨text, module, rfl, hrelative, rfl⟩
      · exact .inr ⟨maker, fault, .reference hnames, hmake, rfl⟩
    · rintro (⟨_, module, ⟨⟩, hrelative, rfl⟩ | ⟨maker, fault, ⟨⟩, hmake, rfl⟩)
      · exact .inl ⟨module, hrelative, rfl⟩
      · next hnames => exact .inr ⟨_, hnames, maker, fault, rfl, hmake, rfl⟩
  · next thing =>
    rw [escapes_pluginOf_iff]
    constructor
    · rintro ⟨maker, fault, rfl, hmake, rfl⟩
      exact .inr ⟨maker, fault, .thing _, hmake, rfl⟩
    · rintro (⟨_, module, ⟨⟩, -⟩ | ⟨maker, fault, ⟨⟩, hmake, rfl⟩)
      exact ⟨maker, fault, rfl, hmake, rfl⟩
  · next hstring hthing =>
    refine iff_of_false (not_escapes_config _ _) ?_
    rintro (⟨text, module, rfl, -⟩ | ⟨maker, fault, hdenotes, -⟩)
    · exact hstring text rfl
    · cases hdenotes with
      | thing => exact hthing _ rfl
      | reference => exact hstring _ rfl

end LoadPlugin

/-! ### Installing plugins -/

/-- A plugin as it stands among those of a compiler. -/
def Plugin.installed : Plugin π → Installed π
  | .stats => .stats {}
  | .foreign plugin => .foreign plugin

namespace Job

def installPlugin (host : Host π κ ω) : Plugin π → Job π κ ω Unit
  | .stats => do
    installStats
    change fun compiler => { compiler with plugins := compiler.plugins ++ [.stats {}] }
  | .foreign plugin => do
    host.install plugin
    change fun compiler => { compiler with plugins := compiler.plugins ++ [.foreign plugin] }

/-- Two compilers in worlds that are the same but for what stands in the files. -/
structure SameButFiles (scene other : Scene π κ ω) : Prop where
  compiler : scene.1 = other.1
  world : scene.2.SameButFiles other.2

def SamePlugins (scene later : Scene π κ ω) : Prop := later.1.plugins = scene.1.plugins

instance : Std.Refl (SamePlugins (π := π) (κ := κ) (ω := ω)) := ⟨fun _ => rfl⟩

instance : IsTrans (Scene π κ ω) SamePlugins := ⟨fun _ _ _ h h' => h'.trans h⟩

variable {host : Host π κ ω} {declared : Setting (Plugin π) ω} {plugin : Plugin π}
  {declarations : List (Setting (Plugin π) ω)} {scene last : Scene π κ ω} {failure : Failure}

theorem install_eq (host : Host π κ ω) (declared : Setting (Plugin π) ω) :
    install host declared = Attempt.ofExcept (loadPlugin host.library declared) >>= installPlugin host := by
  rw [install]
  congr

theorem escapes_install_iff : Escapes ((install host declared).start scene).1 failure ↔
    Escapes (loadPlugin host.library declared) failure ∨
      ∃ plugin, Declares host.library declared plugin ∧
        Escapes ((installPlugin host plugin).start scene).1 failure := by
  rw [install_eq, escapes_start_bind_iff]
  simp only [Attempt.start_ofExcept, Prod.mk.injEq, loadPlugin_eq_ok_iff]
  refine or_congr_right ⟨?_, ?_⟩
  · rintro ⟨plugin, _, ⟨hdeclares, rfl⟩, hescapes⟩
    exact ⟨plugin, hdeclares, hescapes⟩
  · rintro ⟨plugin, hdeclares, hescapes⟩
    exact ⟨plugin, scene, ⟨hdeclares, rfl⟩, hescapes⟩

theorem start_forM_install_iff : (declarations.forM (install host)).start scene = (.ok (), last) ↔
    ∃ plugins, List.Forall₂ (Declares host.library) declarations plugins ∧
      (plugins.forM (installPlugin host)).start scene = (.ok (), last) := by
  induction declarations generalizing scene with
  | nil => simp
  | cons declared rest ih =>
    have hfirst : ∀ between, (install host declared).start scene = (.ok (), between) ↔
        ∃ plugin, Declares host.library declared plugin ∧
          (installPlugin host plugin).start scene = (.ok (), between) := by
      intro between
      rw [install_eq, Attempt.start_bind_eq_ok_iff]
      simp only [Attempt.start_ofExcept, Prod.mk.injEq, loadPlugin_eq_ok_iff]
      constructor
      · rintro ⟨plugin, _, ⟨hdeclares, rfl⟩, hinstall⟩
        exact ⟨plugin, hdeclares, hinstall⟩
      · rintro ⟨plugin, hdeclares, hinstall⟩
        exact ⟨plugin, scene, ⟨hdeclares, rfl⟩, hinstall⟩
    simp only [Attempt.start_forM_cons_eq_ok_iff, hfirst, ih, List.forall₂_cons_left_iff]
    constructor
    · rintro ⟨between, ⟨plugin, hdeclares, hinstall⟩, plugins, hplugins, hrest⟩
      exact ⟨plugin :: plugins, ⟨plugin, plugins, hdeclares, hplugins, rfl⟩,
        Attempt.start_forM_cons_eq_ok_iff.2 ⟨between, hinstall, hrest⟩⟩
    · rintro ⟨_, ⟨plugin, plugins, hdeclares, hplugins, rfl⟩, hinstalls⟩
      obtain ⟨between, hinstall, hrest⟩ := Attempt.start_forM_cons_eq_ok_iff.1 hinstalls
      exact ⟨between, ⟨plugin, hdeclares, hinstall⟩, plugins, hplugins, hrest⟩

/-- Installing declared plugins fails for no fault of the configuration just when, after those before it were
installed, one of them cannot be loaded or installed. -/
theorem escapes_installs_iff : Escapes ((declarations.forM (install host)).start scene).1 failure ↔
    ∃ earlier declared later plugins between, declarations = earlier ++ declared :: later ∧
      List.Forall₂ (Declares host.library) earlier plugins ∧
      (plugins.forM (installPlugin host)).start scene = (.ok (), between) ∧
      Escapes ((install host declared).start between).1 failure := by
  rw [Escapes, Attempt.start_forM_fst_eq_error_iff]
  simp only [start_forM_install_iff]
  constructor
  · rintro ⟨⟨earlier, declared, later, between, hsplit, ⟨plugins, hplugins, hinstalled⟩, herror⟩, hfailure⟩
    exact ⟨earlier, declared, later, plugins, between, hsplit, hplugins, hinstalled, herror, hfailure⟩
  · rintro ⟨earlier, declared, later, plugins, between, hsplit, hplugins, hinstalled, herror, hfailure⟩
    exact ⟨⟨earlier, declared, later, between, hsplit, ⟨plugins, hplugins, hinstalled⟩, herror⟩, hfailure⟩

theorem escapes_startWith_iff {job : Job π κ ω Unit} {compiler : Compiler π κ ω} {world : World ω} :
    Escapes ((startWith compiler job).start world).1 failure ↔
      Escapes (job.start (compiler, world)).1 failure := by
  simp only [Attempt.start, startWith]
  rcases job (compiler, world) with ⟨fault | ⟨⟩, later⟩
  · simp only [Escapes, Except.error.injEq]
  · simp only [not_escapes_ok]

theorem keeps_installStats : (installStats : Job π κ ω Unit).Keeps SamePlugins :=
  (Attempt.keeps_look _).bind fun _ => Attempt.keeps_forM fun _ _ => fun _ => rfl

/-- A plugin that leaves the list of plugins alone comes behind those that were installed before it. -/
theorem plugins_of_installPlugin (hhost : ∀ plugin, (host.install plugin).Keeps SamePlugins)
    (h : (installPlugin host plugin).start scene = (.ok (), last)) :
    last.1.plugins = scene.1.plugins ++ [plugin.installed] := by
  cases plugin with
  | stats =>
    obtain ⟨⟨⟩, between, hinstall, hchange⟩ := Attempt.start_bind_eq_ok_iff.1 h
    have hsame : between.1.plugins = scene.1.plugins := keeps_installStats.of_start hinstall
    cases hchange
    exact congrArg (· ++ _) hsame
  | foreign plugin =>
    obtain ⟨⟨⟩, between, hinstall, hchange⟩ := Attempt.start_bind_eq_ok_iff.1 h
    have hsame : between.1.plugins = scene.1.plugins := (hhost plugin).of_start hinstall
    cases hchange
    exact congrArg (· ++ _) hsame

theorem plugins_of_installs (hhost : ∀ plugin, (host.install plugin).Keeps SamePlugins) {plugins : List (Plugin π)}
    (h : (plugins.forM (installPlugin host)).start scene = (.ok (), last)) :
    last.1.plugins = scene.1.plugins ++ plugins.map Plugin.installed := by
  induction plugins generalizing scene with
  | nil =>
    cases h
    simp
  | cons plugin rest ih =>
    obtain ⟨between, hfirst, hrest⟩ := Attempt.start_forM_cons_eq_ok_iff.1 h
    rw [ih hrest, plugins_of_installPlugin hhost hfirst, List.append_assoc]
    rfl

theorem respects_install (hhost : ∀ plugin, (host.install plugin).Respects SameButFiles)
    (declared : Setting (Plugin π) ω) : (install host declared).Respects SameButFiles := by
  have hchange : ∀ f : Compiler π κ ω → Compiler π κ ω, (change f : Job π κ ω Unit).Respects SameButFiles :=
    fun f scene other h => ⟨rfl, congrArg f h.compiler, h.world⟩
  refine (Attempt.respects_ofExcept _).bind fun plugin => ?_
  cases plugin with
  | stats =>
    have hlook : (compiler : Job π κ ω (Compiler π κ ω)).Respects SameButFiles :=
      fun scene other h => ⟨congrArg Except.ok h.compiler, h⟩
    refine (hlook.bind fun _ => ?_).bind fun _ => hchange _
    exact Attempt.respects_of_echoes (Attempt.echoes_forM (fun duty => (hchange _).echoes) Stats.duties)
  | foreign plugin => exact (hhost plugin).bind fun _ => hchange _

theorem respects_startWith {job : Job π κ ω Unit} (hjob : job.Respects SameButFiles) (compiler : Compiler π κ ω) :
    (startWith compiler job).Respects World.SameButFiles := by
  intro world other h
  obtain ⟨hresult, hafter⟩ := hjob (compiler, world) (compiler, other) ⟨rfl, h⟩
  simp only [Attempt.start, startWith] at hresult hafter ⊢
  generalize job (compiler, world) = ended at hresult hafter ⊢
  generalize job (compiler, other) = ended' at hresult hafter ⊢
  obtain ⟨result, installed, after⟩ := ended
  obtain ⟨result', installed', after'⟩ := ended'
  obtain rfl : result = result' := hresult
  obtain ⟨rfl, hworld⟩ := hafter
  rcases result with failure | ⟨⟩
  · exact ⟨rfl, hworld⟩
  · exact ⟨rfl, hworld⟩

end Job

/-! ### Making compilers -/

namespace Compiler

/-- A compiler before its plugins are installed: the root is in its place, and the references in the rules are
resolved. -/
inductive Prepares (library : Library (Plugin π) ω) (config : Config (Plugin π) ω) (world : World ω) :
    Compiler π κ ω → World ω → Prop
  | intro {root pipeline} (hroot : world.tree.current.resolve? config.root = .ok root)
      (hpipeline : List.Forall₂ (Pipeline.Resolved library world.registry) config.rules pipeline) :
      Prepares library config world
        { config, root, naming := config.naming, pipeline, outputFile := config.outputFile }
        { world with registry := ((Pipeline.ofRules library config.rules).start world.registry).2 }

/-- A compiler that was made of settings, and the world it was made in: the settings are those of a configuration,
each reference in its rules is resolved, and each of its plugins is loaded and then installed, in their order. -/
inductive Makes (host : Host π κ ω) (setting : Setting (Plugin π) ω) (world : World ω) :
    Compiler π κ ω → World ω → Prop
  | intro {config prepared ready plugins compiler made}
      (hconfig : Config.ofSetting world.tree.current setting = .ok config)
      (hprepares : Prepares host.library config world prepared ready)
      (hplugins : List.Forall₂ (Declares host.library) config.plugins plugins)
      (hinstalled : (plugins.forM (Job.installPlugin host)).start (prepared, ready) = (.ok (), (compiler, made))) :
      Makes host setting world compiler made

/-- Making a compiler comes to a declared plugin: those before it were installed. -/
inductive Reaches (host : Host π κ ω) (setting : Setting (Plugin π) ω) (world : World ω) :
    Setting (Plugin π) ω → Job.Scene π κ ω → Prop
  | intro {config prepared ready earlier declared later plugins scene}
      (hconfig : Config.ofSetting world.tree.current setting = .ok config)
      (hprepares : Prepares host.library config world prepared ready)
      (hsplit : config.plugins = earlier ++ declared :: later)
      (hearlier : List.Forall₂ (Declares host.library) earlier plugins)
      (hinstalled : (plugins.forM (Job.installPlugin host)).start (prepared, ready) = (.ok (), scene)) :
      Reaches host setting world declared scene

/-- What the code of a plugin ends with when it is made or installed. -/
inductive PluginFails (host : Host π κ ω) (setting : Setting (Plugin π) ω) (world : World ω) : Failure → Prop
  | make {declared scene maker fault} (hreaches : Reaches host setting world declared scene)
      (hdenotes : Denotes host.library declared (.maker maker)) (hmake : maker.make = .error fault) :
      PluginFails host setting world fault.failure
  | install {declared scene plugin failure} (hreaches : Reaches host setting world declared scene)
      (hdeclares : Declares host.library declared plugin)
      (hinstall : Escapes ((Job.installPlugin host plugin).start scene).1 failure) :
      PluginFails host setting world failure

/-- What goes wrong otherwise, when a compiler is made, than by a fault of the configuration or in a plugin. -/
inductive Slips (host : Host π κ ω) (setting : Setting (Plugin π) ω) (world : World ω) : Failure → Prop
  | pattern {fields rules} (hfields : setting = .table fields) (hrules : Data.fieldOf? "rules" fields = some rules)
      (hpattern : Config.HasHugePattern rules) : Slips host setting world .hugeRepetition
  | root {config} (hconfig : Config.ofSetting world.tree.current setting = .ok config)
      (hnull : config.root.hasNull = true) : Slips host setting world (.path .null)
  | rule {config earlier text later module} (hconfig : Config.ofSetting world.tree.current setting = .ok config)
      (hroot : config.root.hasNull = false)
      (hsplit : (config.rules.flatMap fun rule => rule.use) = earlier ++ .named text :: later)
      (hearlier : ∀ reference ∈ earlier, ∃ transform, world.registry.Means host.library reference transform)
      (hnone : Data.fieldOf? text world.registry.load.names = none) (hrelative : IsRelative text module) :
      Slips host setting world (.relativeImport module)
  | plugin {text module scene} (hreaches : Reaches host setting world (.string text) scene)
      (hrelative : IsRelative text module) : Slips host setting world (.relativeImport module)

variable {host : Host π κ ω} {setting : Setting (Plugin π) ω} {config : Config (Plugin π) ω}
  {world made ready : World ω} {compiler prepared : Compiler π κ ω} {failure : Failure}

theorem start_prepare_iff_prepares : (prepare host.library config).start world = (.ok prepared, ready) ↔
    Prepares host.library config world prepared ready := by
  rw [start_prepare_iff]
  constructor
  · rintro ⟨root, pipeline, registry, hroot, hpipeline, rfl, rfl⟩
    have hregistry : ((Pipeline.ofRules host.library config.rules).start world.registry).2 = registry :=
      congrArg Prod.snd hpipeline
    rw [← hregistry]
    exact .intro hroot (Pipeline.ofRules_eq_ok_iff.1 (congrArg Prod.fst hpipeline))
  · rintro ⟨hroot, hpipeline⟩
    exact ⟨_, _, _, hroot, Prod.ext (Pipeline.ofRules_eq_ok_iff.2 hpipeline) rfl, rfl, rfl⟩

theorem start_ofSetting_iff_makes : (ofSetting host setting).start world = (.ok compiler, made) ↔
    Makes host setting world compiler made := by
  have hconfig : ∀ (config : Config (Plugin π) ω) (looked : World ω),
      (World.files fun tree => Config.ofSetting tree.current setting).start world = (.ok config, looked)
        ↔ Config.ofSetting world.tree.current setting = .ok config ∧ looked = world := by
    intro config looked
    rw [World.files, Attempt.start_look, Prod.mk.injEq, eq_comm (a := world)]
  simp only [ofSetting, Attempt.start_bind_eq_ok_iff, hconfig, start_ofConfig_iff, start_prepare_iff_prepares,
    Job.start_forM_install_iff]
  constructor
  · rintro ⟨config, _, ⟨hconfig, rfl⟩, prepared, ready, hprepares, plugins, hplugins, hinstalled⟩
    exact .intro hconfig hprepares hplugins hinstalled
  · rintro ⟨hconfig, hprepares, hplugins, hinstalled⟩
    exact ⟨_, _, ⟨hconfig, rfl⟩, _, _, hprepares, _, hplugins, hinstalled⟩

/-- Settings are refused for no fault of the configuration just when a pattern among them repeats something too
often. -/
theorem escapes_config_iff {root : FilePath} : Escapes (Config.ofSetting root setting) failure ↔
    ∃ fields rules, setting = .table fields ∧ Data.fieldOf? "rules" fields = some rules ∧
      Config.HasHugePattern rules ∧ failure = .hugeRepetition := by
  rw [Escapes, Settings.ofSetting_eq_error_iff]
  constructor
  · rintro ⟨hcheck, rfl⟩
    cases setting with
    | table fields =>
      obtain ⟨rules, hrules, hpattern⟩ := Config.check_eq_huge_iff.1 hcheck
      exact ⟨fields, rules, rfl, hrules, hpattern, rfl⟩
    | _ => cases hcheck
  · rintro ⟨fields, rules, rfl, hrules, hpattern, rfl⟩
    exact ⟨Config.check_eq_huge_iff.2 ⟨rules, hrules, hpattern⟩, rfl⟩

theorem escapes_prepare_iff : Escapes ((prepare (κ := κ) host.library config).start world).1 failure ↔
    (config.root.hasNull = true ∧ failure = .path .null) ∨ config.root.hasNull = false ∧
      Escapes ((Pipeline.ofRules host.library config.rules).start world.registry).1 failure := by
  have hnull : Escapes (.error (.path .null) : Except Failure FilePath) failure ↔ failure = .path .null := by
    constructor
    · rintro ⟨⟨⟩, -⟩
      rfl
    · rintro rfl
      exact ⟨rfl, by rintro ⟨fault, ⟨⟩⟩⟩
  have hpipeline : ∀ root, Escapes ((do
      let pipeline ← World.withRegistry (Pipeline.ofRules host.library config.rules)
      return { config, root, naming := config.naming, pipeline, outputFile := config.outputFile } :
        Act ω (Compiler π κ ω)).start world).1 failure
      ↔ Escapes ((Pipeline.ofRules host.library config.rules).start world.registry).1 failure := by
    intro root
    rw [escapes_start_bind_iff]
    simp only [World.withRegistry, Attempt.start_within, Attempt.start_pure, not_escapes_ok, and_false, exists_false,
      or_false]
  rw [prepare, escapes_start_bind_iff, World.files, Attempt.start_look]
  cases hroot : config.root.hasNull with
  | true => simp [FilePath.resolve?, hroot, Except.mapError, hnull]
  | false =>
    have hresolve : (world.tree.current.resolve? config.root).mapError Failure.path
        = .ok (world.tree.current.resolve config.root) := by
      rw [FilePath.resolve?, hroot]
      rfl
    simp only [hresolve, not_escapes_ok, false_or, Prod.mk.injEq, Except.ok.injEq, reduceCtorEq, false_and,
      true_and]
    constructor
    · rintro ⟨root, _, ⟨rfl, rfl⟩, hescapes⟩
      exact (hpipeline _).1 hescapes
    · exact fun hescapes => ⟨_, world, ⟨rfl, rfl⟩, (hpipeline _).2 hescapes⟩

theorem escapes_ofConfig_iff : Escapes ((ofConfig host config).start world).1 failure ↔
    Escapes ((prepare (κ := κ) host.library config).start world).1 failure ∨
      ∃ prepared ready, Prepares host.library config world prepared ready ∧
        Escapes ((config.plugins.forM (Job.install host)).start (prepared, ready)).1 failure := by
  simp only [ofConfig, escapes_start_bind_iff, start_prepare_iff_prepares, Attempt.start_pure, not_escapes_ok,
    and_false, exists_false, or_false, Job.escapes_startWith_iff]

theorem escapes_ofSetting_or : Escapes ((ofSetting host setting).start world).1 failure ↔
    Escapes (Config.ofSetting world.tree.current setting) failure ∨ ∃ config,
      Config.ofSetting world.tree.current setting = .ok config ∧
      Escapes ((ofConfig host config).start world).1 failure := by
  rw [ofSetting, escapes_start_bind_iff, World.files, Attempt.start_look]
  simp only [Prod.mk.injEq, and_assoc, exists_and_left, exists_eq_left']

theorem escapes_of_prepare (hconfig : Config.ofSetting world.tree.current setting = .ok config)
    (h : Escapes ((prepare (κ := κ) host.library config).start world).1 failure) :
    Escapes ((ofSetting host setting).start world).1 failure :=
  escapes_ofSetting_or.2 (.inr ⟨config, hconfig, escapes_ofConfig_iff.2 (.inl h)⟩)

theorem Reaches.escapes {declared : Setting (Plugin π) ω} {scene : Job.Scene π κ ω}
    (h : Reaches host setting world declared scene)
    (hinstall : Escapes ((Job.install host declared).start scene).1 failure) :
    Escapes ((ofSetting host setting).start world).1 failure := by
  obtain ⟨hconfig, hprepares, hsplit, hearlier, hinstalled⟩ := h
  refine escapes_ofSetting_or.2 (.inr ⟨_, hconfig, escapes_ofConfig_iff.2 (.inr ⟨_, _, hprepares, ?_⟩)⟩)
  exact Job.escapes_installs_iff.2 ⟨_, _, _, _, _, hsplit, hearlier, hinstalled, hinstall⟩

/-- Making a compiler fails otherwise than by a fault of the configuration just when something is overlooked or a
plugin fails. -/
theorem escapes_ofSetting_iff : Escapes ((ofSetting host setting).start world).1 failure ↔
    Slips host setting world failure ∨ PluginFails host setting world failure := by
  constructor
  · intro h
    rcases escapes_ofSetting_or.1 h with h | ⟨config, hconfig, h⟩
    · obtain ⟨fields, rules, hfields, hrules, hpattern, rfl⟩ := escapes_config_iff.1 h
      exact .inl (.pattern hfields hrules hpattern)
    rcases escapes_ofConfig_iff.1 h with h | ⟨prepared, ready, hprepares, h⟩
    · rcases escapes_prepare_iff.1 h with ⟨hnull, rfl⟩ | ⟨hroot, h⟩
      · exact .inl (.root hconfig hnull)
      · obtain ⟨earlier, text, later, module, hsplit, hearlier, hnone, hrelative, rfl⟩ :=
          Pipeline.escapes_ofRules_iff.1 h
        exact .inl (.rule hconfig hroot hsplit hearlier hnone hrelative)
    obtain ⟨earlier, declared, later, plugins, between, hsplit, hplugins, hinstalled, h⟩ :=
      Job.escapes_installs_iff.1 h
    have hreaches : Reaches host setting world declared between :=
      .intro hconfig hprepares hsplit hplugins hinstalled
    rcases Job.escapes_install_iff.1 h with h | ⟨plugin, hdeclares, h⟩
    · rcases escapes_loadPlugin_iff.1 h with ⟨text, module, rfl, hrelative, rfl⟩ |
        ⟨maker, fault, hdenotes, hmake, rfl⟩
      · exact .inl (.plugin hreaches hrelative)
      · exact .inr (.make hreaches hdenotes hmake)
    · exact .inr (.install hreaches hdeclares h)
  · rintro (hslips | hfails)
    · cases hslips with
      | pattern hfields hrules hpattern =>
        exact escapes_ofSetting_or.2 (.inl (escapes_config_iff.2 ⟨_, _, hfields, hrules, hpattern, rfl⟩))
      | root hconfig hnull =>
        exact escapes_of_prepare hconfig (escapes_prepare_iff.2 (.inl ⟨hnull, rfl⟩))
      | rule hconfig hroot hsplit hearlier hnone hrelative =>
        have hrules := Pipeline.escapes_ofRules_iff.2 ⟨_, _, _, _, hsplit, hearlier, hnone, hrelative, rfl⟩
        exact escapes_of_prepare hconfig (escapes_prepare_iff.2 (.inr ⟨hroot, hrules⟩))
      | plugin hreaches hrelative =>
        refine hreaches.escapes (Job.escapes_install_iff.2 (.inl ?_))
        exact escapes_loadPlugin_iff.2 (.inl ⟨_, _, rfl, hrelative, rfl⟩)
    · cases hfails with
      | make hreaches hdenotes hmake =>
        refine hreaches.escapes (Job.escapes_install_iff.2 (.inl ?_))
        exact escapes_loadPlugin_iff.2 (.inr ⟨_, _, hdenotes, hmake, rfl⟩)
      | install hreaches hdeclares hinstall =>
        exact hreaches.escapes (Job.escapes_install_iff.2 (.inr ⟨_, hdeclares, hinstall⟩))

/-! ### What is read -/

theorem respects_ofConfig (hhost : ∀ plugin, (host.install plugin).Respects Job.SameButFiles)
    (config : Config (Plugin π) ω) : (ofConfig host config).Respects World.SameButFiles := by
  have hprepare : (prepare host.library config : Act ω (Compiler π κ ω)).Respects World.SameButFiles := by
    refine Attempt.Respects.bind ?_ fun root => Attempt.Respects.bind ?_ fun _ => Attempt.respects_pure _
    · intro world other h
      exact ⟨by simp only [World.files, Attempt.start_look, h.current], h⟩
    · intro world other h
      simp only [World.withRegistry, Attempt.start_within, h.registry, true_and]
      exact ⟨h.current, h.console, rfl, h.memory⟩
  have hinstalls : (config.plugins.forM (Job.install host)).Respects Job.SameButFiles :=
    Attempt.respects_of_echoes (Attempt.echoes_forM (fun declared => (Job.respects_install hhost declared).echoes) _)
  exact hprepare.bind fun prepared =>
    (Job.respects_startWith hinstalls prepared).bind fun _ => Attempt.respects_pure _

theorem respects_ofSetting (hhost : ∀ plugin, (host.install plugin).Respects Job.SameButFiles)
    (setting : Setting (Plugin π) ω) : (ofSetting host setting).Respects World.SameButFiles := by
  refine Attempt.Respects.bind ?_ fun config => respects_ofConfig hhost config
  intro world other h
  exact ⟨by simp only [World.files, Attempt.start_look, h.current], h⟩

/-- Whatever the settings: a compiler is made just when they are those of a configuration, every reference in its
rules means something that can be called, and its plugins are loaded and installed, each once and in their order.
Otherwise there is a fault of the configuration, a failure of a plugin's own or one of the things that are
overlooked. Plugins that leave the list of plugins alone stand in it in this order, and no file is read if no plugin
reads one. -/
theorem outcome_of_ofSetting (host : Host π κ ω) (setting : Setting (Plugin π) ω) (world : World ω) :
    (∀ compiler made, (ofSetting host setting).start world = (.ok compiler, made) ↔
      Makes host setting world compiler made) ∧
    (∀ failure, ((ofSetting host setting).start world).1 = .error failure ∧ ¬ failure.IsConfig ↔
      Slips host setting world failure ∨ PluginFails host setting world failure) ∧
    ((∀ plugin, (host.install plugin).Keeps Job.SamePlugins) → ∀ compiler made,
      (ofSetting host setting).start world = (.ok compiler, made) → ∃ config plugins,
        Config.ofSetting world.tree.current setting = .ok config ∧
        List.Forall₂ (Declares host.library) config.plugins plugins ∧
        compiler.plugins = plugins.map Plugin.installed) ∧
    ((∀ plugin, (host.install plugin).Respects Job.SameButFiles) →
      (ofSetting host setting).Respects World.SameButFiles) := by
  refine ⟨fun _ _ => start_ofSetting_iff_makes, fun _ => escapes_ofSetting_iff, fun hhost compiler made h => ?_,
    fun hhost => respects_ofSetting hhost setting⟩
  obtain ⟨hconfig, hprepares, hplugins, hinstalled⟩ := start_ofSetting_iff_makes.1 h
  obtain ⟨-, -⟩ := hprepares
  exact ⟨_, _, hconfig, hplugins, Job.plugins_of_installs hhost hinstalled⟩

/-- A host whose library has a transform and something that makes a plugin. -/
def toolHost : Host Unit Unit Unit :=
  { Job.idleHost with
    library := [{
      name := "tools"
      members := [("same", .transform (.ofFunction "same" id)),
        ("Tool", .maker ⟨"<class 'tools.Tool'>", .ofFunction "Tool" id, .ok (some (.foreign ()))⟩)] }] }

def settingsOf (use plugins : List String) : Setting (Plugin Unit) Unit :=
  .table [("entry", .string "main.py"),
    ("rules", .list [.table [("test", .string "txt"), ("use", .list (use.map .string))]]),
    ("plugins", .list (plugins.map .string))]

theorem outcome_of_ofSetting_tools : ∃ compiler made,
    (ofSetting toolHost (settingsOf ["text", "tools:same"] ["tools:Tool"])).start fileRootWorld
      = (.ok compiler, made) ∧
    Makes toolHost (settingsOf ["text", "tools:same"] ["tools:Tool"]) fileRootWorld compiler made ∧
    (∃ config plugins,
      Config.ofSetting fileRootWorld.tree.current (settingsOf ["text", "tools:same"] ["tools:Tool"]) = .ok config ∧
      List.Forall₂ (Declares toolHost.library) config.plugins plugins ∧
      compiler.plugins = plugins.map Plugin.installed) ∧
    (ofSetting toolHost (settingsOf ["text", "tools:same"] ["tools:Tool"])).Respects World.SameButFiles := by
  have hok : ((ofSetting toolHost (settingsOf ["text", "tools:same"] ["tools:Tool"])).start
      fileRootWorld).1.toBool = true := by decide +kernel
  obtain ⟨hmakes, -, hplugins, hrespects⟩ :=
    outcome_of_ofSetting toolHost (settingsOf ["text", "tools:same"] ["tools:Tool"]) fileRootWorld
  rcases hmade : (ofSetting toolHost (settingsOf ["text", "tools:same"] ["tools:Tool"])).start fileRootWorld
    with ⟨failure | compiler, made⟩
  · rw [hmade] at hok
    cases hok
  · exact ⟨compiler, made, rfl, (hmakes compiler made).1 hmade,
      hplugins (fun _ => Attempt.keeps_pure ()) compiler made hmade,
      hrespects fun _ => Attempt.respects_pure ()⟩

/-- The relative name of a module that cannot be imported, if that is the outcome. -/
def relativeModule {α : Type} : Except Failure α → String
  | .error (.relativeImport module) => module
  | _ => ""

theorem eq_of_relativeModule {α : Type} {result : Except Failure α} (h : relativeModule result = ".rel") :
    result = .error (.relativeImport ".rel") := by
  rw [relativeModule.eq_def] at h
  split at h
  · rw [h]
  · exact absurd h (by decide)

/-- A module with a relative name, in a rule or among the plugins, ends in no fault of the configuration, although
there is no plugin. -/
theorem outcome_of_ofSetting_relative :
    ((ofSetting Job.idleHost (settingsOf [".rel:attr"] [])).start fileRootWorld).1
        = .error (.relativeImport ".rel") ∧
      ((ofSetting Job.idleHost (settingsOf [] [".rel:attr"])).start fileRootWorld).1
        = .error (.relativeImport ".rel") ∧
      ¬ (Failure.relativeImport ".rel").IsConfig := by
  refine ⟨eq_of_relativeModule ?_, eq_of_relativeModule ?_, by rintro ⟨fault, ⟨⟩⟩⟩
  · decide +kernel
  · decide +kernel

end Compiler
end Bundler
