import Bundler.Proofs.Compiler.Effects
import Bundler.Proofs.Compiler.Events
import Bundler.Proofs.Compiler.Lifecycle
import Bundler.Proofs.Console.Messages

/-!
# Runs without callbacks

A compiler without plugins has no callbacks, and its run is the stages alone, one after the other
(`start_run_idle`). Such a run succeeds when each stage does (`start_run_iff`).
-/

namespace Bundler

variable {σ ε π κ ω α β : Type}

/-- In states of a kind two attempts do the same, and what they lead to is of the kind again. -/
def Attempt.SameFrom (kind : σ → Prop) (attempt other : Attempt σ ε α) : Prop :=
  ∀ state, kind state → attempt.start state = other.start state ∧ kind (attempt.start state).2

theorem Attempt.SameFrom.bind {kind : σ → Prop} {attempt other : Attempt σ ε α}
    (h : attempt.SameFrom kind other) {next next' : α → Attempt σ ε β}
    (hnext : ∀ value, (next value).SameFrom kind (next' value)) :
    (attempt >>= next).SameFrom kind (other >>= next') := by
  intro state hstate
  obtain ⟨hsame, hafter⟩ := h state hstate
  rw [start_bind, start_bind, ← hsame]
  rcases hstart : attempt.start state with ⟨fault | value, after⟩
  · rw [hstart] at hafter
    exact ⟨rfl, hafter⟩
  · rw [hstart] at hafter
    exact hnext value after hafter

theorem Attempt.SameFrom.discard {kind : σ → Prop} {attempt other : Attempt σ ε α}
    (h : attempt.SameFrom kind other) : (discard attempt : Attempt σ ε Unit).SameFrom kind (discard other) := by
  intro state hstate
  obtain ⟨hsame, hafter⟩ := h state hstate
  rw [start_discard, start_discard, ← hsame]
  exact ⟨rfl, hafter⟩

theorem Attempt.sameFrom_pure {kind : σ → Prop} (value : α) :
    (pure value : Attempt σ ε α).SameFrom kind (pure value) :=
  fun _ hstate => ⟨rfl, hstate⟩

namespace Job

variable {host : Host π κ ω} {compiler ended : Compiler π κ ω} {world last : World ω}
  {result : BundleResult} {text : String}

/-- No phase has a callback. -/
def Idle (scene : Scene π κ ω) : Prop := scene.1.hooks = Hooks.empty

/-- A run that calls no hooks. -/
def bareRun (press : Press) : Job π κ ω BundleResult := runBy press (fun _ _ => pure ()) fun job => job

theorem sameFrom_phase (event : Phase) {arguments : List String}
    (harguments : event.status = arguments) :
    (phase host event arguments).SameFrom Idle (pure ()) := by
  rintro ⟨compiler, world⟩ hidle
  have hhooks : compiler.hooks = Hooks.empty := hidle
  have hstart : (phase host event arguments).start (compiler, world) = (.ok (), (compiler, world)) := by
    rw [phase, Attempt.start_bind, Job.compiler, Attempt.start_look, Attempt.andThen_ok, hhooks,
      ← harguments]
    cases event <;> rfl
  rw [hstart]
  exact ⟨rfl, hidle⟩

theorem sameFrom_stage {job : Job π κ ω α}
    (hjob : ∀ scene, (job.start scene).2.1.hooks = scene.1.hooks) : job.SameFrom Idle job :=
  fun scene hidle => ⟨rfl, (hjob scene).trans hidle⟩

theorem hooks_of_compile (entries : List (String × FilePath)) (scene : Scene π κ ω) :
    ((compile entries).start scene).2.1.hooks = scene.1.hooks := by
  rw [(graphOnly_compile entries scene).compiler]

theorem hooks_of_emit (press : Press) (scene : Scene π κ ω) :
    ((emit press).start scene).2.1.hooks = scene.1.hooks := by
  have hcompiler := render_compiler press scene
  rcases hrender : (render press).start scene with ⟨failure | text, rendered⟩
  · rw [hrender] at hcompiler
    rw [start_emit_of_render_error hrender]
    exact congrArg Compiler.hooks hcompiler
  · rcases start_emit_of_render hrender with ⟨failure, later, -, hemit⟩ | ⟨later, -, hemit⟩
    · rw [hemit]
    · rw [hemit]
      rfl

/-- Without callbacks a run is its stages alone. -/
theorem start_run_idle (host : Host π κ ω) (hidle : compiler.hooks = Hooks.empty) (world : World ω) :
    (run host).start (compiler, world) = (bareRun host.press).start (compiler, world) := by
  have hrun : (run host).SameFrom Idle (bareRun host.press) := by
    rw [run_eq_runBy, runBy, bareRun, runBy]
    refine (sameFrom_phase .run rfl).bind fun _ => ?_
    refine (sameFrom_phase .beforeEntryOptions rfl).bind fun _ => ?_
    refine (sameFrom_stage fun _ => by rw [start_resolveEntries]).bind fun entries => ?_
    refine (sameFrom_phase .afterEntryOptions rfl).bind fun _ => ?_
    refine (sameFrom_phase .beforeCompile rfl).bind fun _ => ?_
    refine (sameFrom_stage (hooks_of_compile entries)).bind fun _ => ?_
    refine (sameFrom_phase .afterCompile rfl).bind fun _ => ?_
    refine (sameFrom_stage fun _ => rfl).bind fun _ => ?_
    refine (sameFrom_phase .beforeEmitFile rfl).bind fun _ => ?_
    refine (sameFrom_stage (hooks_of_emit host.press)).discard.bind fun _ => ?_
    refine (sameFrom_phase .afterEmitFile rfl).bind fun _ => ?_
    refine (sameFrom_stage fun _ => rfl).bind fun _ => ?_
    refine (sameFrom_phase .done rfl).bind fun _ => ?_
    exact (sameFrom_stage fun _ => rfl).bind fun _ => Attempt.sameFrom_pure _
  exact (hrun (compiler, world) hidle).1

theorem start_emit_iff {press : Press} :
    (emit press).start (compiler, world) = (.ok text, (ended, written))
    ↔ ended = compiler.addAsset text ∧ ∃ rendered,
      (compiler.artifact.render compiler.pipeline press).start world = (.ok text, rendered) ∧
      (Artifact.writeTo compiler.outputFile text press).start rendered = (.ok (), written) := by
  have hemit : ∀ after, (compiler.artifact.emit compiler.pipeline compiler.outputFile press).start world
        = (.ok text, after) ↔ ∃ rendered,
      (compiler.artifact.render compiler.pipeline press).start world = (.ok text, rendered) ∧
      (Artifact.writeTo compiler.outputFile text press).start rendered = (.ok (), after) := by
    intro after
    simp only [Artifact.emit, Attempt.start_bind_eq_ok_iff, Attempt.start_pure, Prod.mk.injEq,
      Except.ok.injEq]
    constructor
    · rintro ⟨_, rendered, hrender, ⟨⟩, _, hwrite, rfl, rfl⟩
      exact ⟨rendered, hrender, hwrite⟩
    · rintro ⟨rendered, hrender, hwrite⟩
      exact ⟨text, rendered, hrender, (), after, hwrite, rfl, rfl⟩
  rw [← hemit, emit, Attempt.start_bind, Job.compiler, Attempt.start_look, Attempt.andThen_ok,
    Attempt.start_bind, outside, Attempt.start_within]
  rcases (compiler.artifact.emit compiler.pipeline compiler.outputFile press).start world
    with ⟨failure | found, after⟩
  · simp
  · simp only [Attempt.andThen_ok, change, Attempt.start_bind, Attempt.start_update, Attempt.start_pure,
      Prod.mk.injEq, Except.ok.injEq]
    constructor
    · rintro ⟨rfl, rfl, rfl⟩
      exact ⟨rfl, rfl, rfl⟩
    · rintro ⟨rfl, rfl, rfl⟩
      exact ⟨rfl, rfl, rfl⟩

/-- A run without callbacks that succeeds, stage by stage. -/
inductive Stages (press : Press) (compiler : Compiler π κ ω) (world : World ω) :
    BundleResult → Compiler π κ ω → World ω → Prop
  | intro {paths graph built told text rendered written last}
      (hpaths : compiler.entryPaths = .ok paths)
      (hcompile : (compile paths).start (compiler, world) = (.ok (), ({ compiler with graph }, built)))
      (hbuilt : (World.log .info (builtNotice graph.modules.length paths.length)).start built
        = (.ok (), told))
      (hrender : (({ compiler with graph }).artifact.render compiler.pipeline press).start told
        = (.ok text, rendered))
      (hwrite : (Artifact.writeTo compiler.outputFile text press).start rendered = (.ok (), written))
      (hwritten : (World.log .success (writtenNotice compiler.outputFile)).start written
        = (.ok (), last)) :
      Stages press compiler world (({ compiler with graph }).addAsset text).result
        (({ compiler with graph }).addAsset text) last

theorem start_run_iff (host : Host π κ ω) (hidle : compiler.hooks = Hooks.empty) :
    (run host).start (compiler, world) = (.ok result, (ended, last))
      ↔ Stages host.press compiler world result ended last := by
  have hdiscard : ∀ told written : Scene π κ ω,
      (discard (emit host.press) : Job π κ ω Unit).start told = (.ok (), written)
        ↔ ∃ text, (emit host.press).start told = (.ok text, written) := by
    intro told written
    rw [Attempt.start_discard]
    rcases (emit host.press).start told with ⟨failure | text, after⟩ <;> simp [Except.map]
  have hcompiler : ∀ (scene : Scene π κ ω) (found : Compiler π κ ω) (after : Scene π κ ω),
      Job.compiler.start scene = (.ok found, after) ↔ found = scene.1 ∧ after = scene := by
    intro scene found after
    simp [Job.compiler, eq_comm]
  have houtside : ∀ (act : Act ω Unit) (scene after : Scene π κ ω),
      (outside act : Job π κ ω Unit).start scene = (.ok (), after)
        ↔ after.1 = scene.1 ∧ act.start scene.2 = (.ok (), after.2) := by
    rintro act ⟨compiler, world⟩ ⟨later, last⟩
    rw [outside, Attempt.start_within]
    rcases act.start world with ⟨failure | ⟨⟩, after⟩ <;> simp [eq_comm]
  rw [start_run_idle host hidle]
  simp only [bareRun, runBy, pure_bind, Attempt.start_bind_eq_ok_iff, start_resolveEntries, hdiscard,
    hcompiler, tellBuilt, tellWritten, houtside, Attempt.start_pure, Prod.mk.injEq, Except.ok.injEq]
  constructor
  · rintro ⟨paths, _, ⟨hpaths, rfl⟩, ⟨⟩, ⟨later, built⟩, hcompile, ⟨⟩, ⟨teller, told⟩,
      ⟨later, _, ⟨rfl, rfl⟩, hteller, hbuilt⟩, ⟨⟩, ⟨writer, written⟩, ⟨text, hemit⟩, ⟨⟩, ⟨finisher, last⟩,
      ⟨writer, _, ⟨rfl, rfl⟩, hfinisher, hwritten⟩, finisher, _, ⟨rfl, rfl⟩, rfl, hend⟩
    obtain ⟨rfl, rfl⟩ := Prod.mk.inj hend
    have hlater := (graphOnly_compile paths (compiler, world)).compiler
    rw [hcompile] at hlater
    obtain rfl : teller = later := hteller
    obtain rfl : finisher = writer := hfinisher
    obtain ⟨rfl, rendered, hrender, hwrite⟩ := start_emit_iff.1 hemit
    generalize teller.graph = graph at hlater
    obtain rfl : teller = { compiler with graph } := hlater
    exact .intro hpaths hcompile hbuilt hrender hwrite hwritten
  · intro h
    cases h with
    | @intro paths graph built told text rendered written last hpaths hcompile hbuilt hrender hwrite
        hwritten =>
      let found : Compiler π κ ω := { compiler with graph }
      have hemit : (emit host.press).start (found, told) = (.ok text, (found.addAsset text, written)) :=
        start_emit_iff.2 ⟨rfl, rendered, hrender, hwrite⟩
      exact ⟨paths, _, ⟨hpaths, rfl⟩, (), (found, built), hcompile, (), (found, told),
        ⟨_, _, ⟨rfl, rfl⟩, rfl, hbuilt⟩, (), (found.addAsset text, written), ⟨text, hemit⟩, (),
        (found.addAsset text, last), ⟨_, _, ⟨rfl, rfl⟩, rfl, hwritten⟩, _, _, ⟨rfl, rfl⟩, rfl, rfl⟩

/-- Nothing stands in the way of a run without callbacks: its entries are built, with names that can be
shown, and something can be written to the place of its bundle. -/
def goesThrough (scene : Scene π κ ω) : Bool :=
  match scene.1.entryPaths with
  | .error _ => false
  | .ok paths =>
    ((compile paths).start scene).1.toBool &&
      (((compile paths).start scene).2.1.graph.entries.all fun entry => Config.isEntryName entry.1) &&
      ((Artifact.writeTo scene.1.outputFile "").start scene.2).1.toBool

/-- Such a run succeeds with the standard template, where the place of the bundle has a name that can be
shown. -/
theorem exists_result_of_goesThrough {host : Host π κ ω} (hpress : host.press = .standard)
    (hidle : compiler.hooks = Hooks.empty) (hpipeline : compiler.pipeline = [])
    (hruntime : Text.isIdentifier compiler.naming.runtime.toList = true)
    (hname : ¬ Console.MayClose compiler.outputFile.toString.toList)
    (htemplate : Pipeline.readText world.tree templatePath = .ok Artifact.standardTemplate)
    (h : goesThrough (compiler, world) = true) :
    ∃ result, ((run host).start (compiler, world)).1 = .ok result := by
  unfold goesThrough at h
  split at h
  · cases h
  next paths hpaths =>
  have honly := graphOnly_compile paths (compiler, world)
  rcases hcompile : (compile paths).start (compiler, world) with ⟨failure | ⟨⟩, found, built⟩
  · simp [hcompile, Except.toBool] at h
  rw [hcompile] at h honly
  simp only [Bool.and_eq_true, List.all_eq_true] at h
  obtain ⟨⟨-, hnames⟩, hwritable⟩ := h
  have hfound : found = { compiler with graph := found.graph } := honly.compiler
  have hfiles : built.tree = world.tree := honly.files
  generalize found.graph = graph at hfound hnames
  subst hfound
  obtain ⟨told, htold⟩ := World.exists_start_log (bare_builtNotice graph.modules.length paths.length).shows built
  have htoldFiles : told.tree = world.tree := ((World.sameFiles_log _ _).of_start htold).trans hfiles
  let ready : Compiler π κ ω := { compiler with graph }
  have hrender : (ready.artifact.render compiler.pipeline).start told = (.ok (standardText ready), told) :=
    Artifact.start_render_standard (htoldFiles ▸ htemplate) (by simp [hpipeline])
  have hencode : Press.standard.encode (standardText ready) = .ok (standardText ready).toUTF8 :=
    encode_standardText hruntime hnames
  obtain ⟨written, hwrite⟩ := Artifact.exists_start_writeTo hwritable htoldFiles hencode
  obtain ⟨last, hlast⟩ := World.exists_start_log (shows_writtenNotice hname) written
  have hstages : Stages host.press compiler world (ready.addAsset (standardText ready)).result
      (ready.addAsset (standardText ready)) last := by
    rw [hpress]
    exact .intro hpaths hcompile htold hrender hwrite hlast
  exact ⟨_, congrArg Prod.fst ((start_run_iff host hidle).2 hstages)⟩

end Job
end Bundler
