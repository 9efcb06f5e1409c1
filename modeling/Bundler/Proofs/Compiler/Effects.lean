import Bundler.Proofs.Artifact.Recovery
import Bundler.Proofs.Compiler.Callbacks

/-!
# What a run does to the files

A run writes its bundle at one point, after everything that it is made from was read. Where it fails
before that, the files are as they were; where its directories or its file cannot be made, at most
directories above the bundle are new; where its text cannot be encoded, its file is left empty; and once the
bundle is written it stays the only new file, whatever callbacks do that leave files alone (`files_of_run`).
Showing the graph changes no file at all.
-/

namespace Bundler

variable {π κ ω α : Type}

/-- The text recorded as what was written to a path. -/
def Compiler.asset? (compiler : Compiler π κ ω) (path : FilePath) : Option String :=
  (compiler.assets.find? fun asset => asset.1 = path).map (·.2)

theorem Compiler.asset?_addAsset (compiler : Compiler π κ ω) (text : String) :
    (compiler.addAsset text).asset? compiler.outputFile = some text := by
  have hnone : (compiler.assets.filter fun asset => asset.1 ≠ compiler.outputFile).find?
      (fun asset => asset.1 = compiler.outputFile) = none := by
    rw [List.find?_eq_none]
    intro asset hmem
    simpa using (List.mem_filter.1 hmem).2
  rw [asset?, addAsset, List.find?_append, hnone, Option.none_or, List.find?_cons_of_pos (by simp)]
  rfl

/-- Neither the plugins nor their callbacks touch files. -/
structure Host.LeavesFiles (host : Host π κ ω) : Prop where
  install : ∀ plugin, (host.install plugin).Keeps Job.SameFiles
  perform : ∀ callback arguments, (host.perform callback arguments).Keeps Job.SameFiles

theorem Artifact.start_writeTo_eq_ok_iff {path : FilePath} {text : String} {press : Press}
    {world later : World ω} :
    (writeTo path text press).start world = (.ok (), later) ↔
      ∃ made bytes tree, world.tree.makeDirectories path.parent path.parent.parts.length = (made, none) ∧
        press.encode text = .ok bytes ∧ made.write path bytes = .ok tree ∧ later = { world with tree } := by
  simp only [Attempt.start, writeTo]
  constructor
  · intro h
    split at h
    · cases h
    next made hmade =>
    cases hencode : press.encode text with
    | error raised =>
      simp only [hencode] at h
      split at h <;> cases h
    | ok bytes =>
      simp only [hencode] at h
      split at h
      · next tree hwrite =>
        cases h
        exact ⟨made, bytes, tree, hmade, rfl, hwrite, rfl⟩
      · cases h
  · rintro ⟨made, bytes, tree, hmade, hencode, hwrite, rfl⟩
    simp only [hmade, hencode, hwrite]

/-- Whether a file can be opened does not depend on what is written to it. -/
theorem FileTree.exists_write_iff {tree : FileTree} {path : FilePath} {content other : ByteArray} :
    (∃ written, tree.write path content = .ok written) ↔ ∃ written, tree.write path other = .ok written := by
  unfold FileTree.write
  split
  · simp
  split <;> simp

theorem Artifact.exists_start_writeTo {path : FilePath} {text other : String} {press : Press}
    {bytes : ByteArray} {world like : World ω} (h : ((writeTo path other press).start world).1.toBool = true)
    (hfiles : like.tree = world.tree) (hencode : press.encode text = .ok bytes) :
    ∃ later, (writeTo path text press).start like = (.ok (), later) := by
  rcases hother : (writeTo path other press).start world with ⟨failure | ⟨⟩, later⟩
  · rw [hother] at h
    cases h
  obtain ⟨made, content, tree, hmade, -, hwrite, -⟩ := start_writeTo_eq_ok_iff.1 hother
  obtain ⟨tree, hagain⟩ := FileTree.exists_write_iff.1 ⟨tree, hwrite⟩
  exact ⟨_, start_writeTo_eq_ok_iff.2 ⟨made, bytes, tree, hfiles ▸ hmade, hencode, hagain, rfl⟩⟩

namespace Job

variable {host : Host π κ ω}

/-- A run up to the place where it writes the bundle. -/
def untilEmit (host : Host π κ ω) : Job π κ ω Unit := do
  phase host .run [runStatus]
  let entries ← runEntries host
  runCompile host entries
  phase host .beforeEmitFile

/-- A run from the place on where it wrote the bundle. -/
def afterEmit (host : Host π κ ω) : Job π κ ω BundleResult := do
  phase host .afterEmitFile
  outside (World.log .success (writtenNotice (← compiler).outputFile))
  phase host .done [doneStatus]
  return (← compiler).result

theorem run_eq_emit (host : Host π κ ω) :
    run host = (do
      untilEmit host
      discard (emit host.press)
      afterEmit host) := by
  simp only [run, runEmit, untilEmit, afterEmit, bind_assoc]

theorem emit_eq (press : Press) :
    (emit press : Job π κ ω String) = (do
      let text ← render press
      let compiler ← compiler
      outside (Artifact.writeTo compiler.outputFile text press)
      change fun compiler => compiler.addAsset text
      return text) := by
  refine Attempt.ext fun ⟨compiler, world⟩ => ?_
  simp only [emit, render, Job.compiler, outside, change, Artifact.emit, Attempt.start_bind,
    Attempt.start_look, Attempt.andThen_ok, Attempt.start_within]
  rcases Attempt.start (compiler.artifact.render compiler.pipeline press) world with ⟨_ | text, rendered⟩
  · rfl
  · simp only [Attempt.andThen_ok, Attempt.start_bind, Attempt.start_look, Attempt.start_within]
    rcases (Artifact.writeTo compiler.outputFile text press).start rendered with ⟨_ | ⟨⟩, written⟩
    · rfl
    · rfl

/-! ### Phases, stages and commands that leave the files alone -/

theorem sameFiles_of_graphOnly {job : Job π κ ω α} (h : job.Keeps GraphOnly) : job.Keeps SameFiles :=
  h.mono fun _ _ hsame => hsame.files

theorem sameFiles_change (f : Compiler π κ ω → Compiler π κ ω) :
    (change f : Job π κ ω Unit).Keeps SameFiles :=
  fun _ => rfl

theorem sameFiles_outside {act : Act ω α} (hact : act.Keeps World.SameFiles) :
    (outside act : Job π κ ω α).Keeps SameFiles :=
  fun state => hact state.2

theorem sameFiles_phase (hhost : host.LeavesFiles) (event : Phase) (arguments : List String) :
    (phase host event arguments).Keeps SameFiles :=
  keeps_phase_of (fun _ _ h => h.files) hhost.perform event arguments

theorem sameFiles_untilEmit (hhost : host.LeavesFiles) : (untilEmit host).Keeps SameFiles := by
  have hentries : (runEntries host).Keeps SameFiles :=
    (sameFiles_phase hhost _ _).bind fun _ =>
      (sameFiles_of_graphOnly graphOnly_resolveEntries).bind fun _ =>
        (sameFiles_phase hhost _ _).bind fun _ => Attempt.keeps_pure _
  have hcompile : ∀ entries, (runCompile host entries).Keeps SameFiles := fun entries =>
    (sameFiles_phase hhost _ _).bind fun _ =>
      (sameFiles_of_graphOnly (graphOnly_compile entries)).bind fun _ =>
        (sameFiles_phase hhost _ _).bind fun _ =>
          (Attempt.keeps_look _).bind fun _ => sameFiles_outside (World.sameFiles_log _ _)
  exact (sameFiles_phase hhost _ _).bind fun _ => hentries.bind fun entries =>
    (hcompile entries).bind fun _ => sameFiles_phase hhost _ _

theorem sameFiles_afterEmit (hhost : host.LeavesFiles) : (afterEmit host).Keeps SameFiles :=
  (sameFiles_phase hhost _ _).bind fun _ => (Attempt.keeps_look _).bind fun _ =>
    (sameFiles_outside (World.sameFiles_log _ _)).bind fun _ =>
      (sameFiles_phase hhost _ _).bind fun _ => (Attempt.keeps_look _).bind fun _ =>
        Attempt.keeps_pure _

theorem sameFiles_startWith {compiler : Compiler π κ ω} {job : Job π κ ω α}
    (hjob : job.Keeps SameFiles) : (startWith compiler job).Keeps World.SameFiles := by
  intro world
  have hkeeps := hjob (compiler, world)
  simp only [Attempt.start, startWith] at hkeeps ⊢
  split <;> next hstart => rwa [hstart] at hkeeps

theorem sameFiles_install (hhost : host.LeavesFiles) (setting : Setting (Plugin π) ω) :
    (install host setting).Keeps SameFiles := by
  refine (Attempt.keeps_ofExcept _).bind fun plugin => ?_
  cases plugin with
  | stats =>
    have hstats : (installStats : Job π κ ω Unit).Keeps SameFiles :=
      (Attempt.keeps_look _).bind fun _ => Attempt.keeps_forM fun _ _ => sameFiles_change _
    exact hstats.bind fun _ => sameFiles_change _
  | foreign plugin => exact (hhost.install plugin).bind fun _ => sameFiles_change _

theorem sameFiles_ofConfig (hhost : host.LeavesFiles) (config : Config (Plugin π) ω) :
    (Compiler.ofConfig host config).Keeps World.SameFiles := by
  have hprepare : (Compiler.prepare host.library config : Act ω (Compiler π κ ω)).Keeps
      World.SameFiles :=
    (World.sameFiles_files _).bind fun _ => (World.sameFiles_withRegistry _).bind fun _ =>
      Attempt.keeps_pure _
  refine hprepare.bind fun compiler => ?_
  refine Attempt.Keeps.bind (sameFiles_startWith ?_) fun _ => Attempt.keeps_pure _
  exact Attempt.keeps_forM fun setting _ => sameFiles_install hhost setting

theorem sameFiles_reporting {act : Act ω α} (hact : act.Keeps World.SameFiles) :
    (Command.reporting act).Keeps World.SameFiles := by
  intro world
  have hkeeps := hact world
  simp only [Attempt.start, Command.reporting] at hkeeps ⊢
  split
  · next hstart => rwa [hstart] at hkeeps
  · next fault after hstart =>
    rw [hstart] at hkeeps
    have hlog : (do World.log .error (Command.faultNotice fault); return none : Act ω (Option α)).Keeps
        World.SameFiles := (World.sameFiles_log _ _).bind fun _ => Attempt.keeps_pure _
    exact Trans.trans hkeeps (hlog after)
  · next hstart => rwa [hstart] at hkeeps

theorem sameFiles_graph (hhost : host.LeavesFiles) (options : Command.Options) :
    (Command.graph host options).Keeps World.SameFiles := by
  have hcompiling : (Command.compiling host options Job.build).Keeps World.SameFiles :=
    (World.sameFiles_files _).bind fun config => (sameFiles_ofConfig hhost config).bind fun _ =>
      sameFiles_startWith (sameFiles_of_graphOnly graphOnly_build)
  have htable : ∀ table, (Command.printTable table : Act ω Unit).Keeps World.SameFiles := by
    intro table world
    simp only [Attempt.start, Command.printTable]
    split <;> rfl
  refine (sameFiles_reporting hcompiling).bind fun answer => ?_
  cases answer with
  | none => exact Attempt.keeps_pure _
  | some answer =>
    exact (htable _).bind fun _ => (World.sameFiles_log _ _).bind fun _ => Attempt.keeps_pure _

/-! ### Writing the bundle -/

/-- The ways a run can go: it ends before anything is written, the bundle cannot be written, its file is
opened for a text that cannot be encoded, or it is written. -/
inductive Course (host : Host π κ ω) (state : Compiler π κ ω × World ω) :
    Except Failure BundleResult × Compiler π κ ω × World ω → Prop
  | stopped {failure later}
      (hwhere : (untilEmit host).start state = (.error failure, later) ∨
        ∃ prepared, (untilEmit host).start state = (.ok (), prepared) ∧
          (render host.press).start prepared = (.error failure, later))
      (hfiles : later.2.tree = state.2.tree) :
      Course host state (.error failure, later)
  | unwritten {prepared text rendered failure later}
      (huntil : (untilEmit host).start state = (.ok (), prepared))
      (hrender : (render host.press).start prepared = (.ok text, rendered))
      (hwrite : (Artifact.writeTo prepared.1.outputFile text host.press).start rendered.2
        = (.error failure, later.2))
      (hfiles : FileTree.Gains prepared.1.outputFile.parent.selfAndParents state.2.tree later.2.tree) :
      Course host state (.error failure, later)
  | emptied {prepared text rendered raised later}
      (huntil : (untilEmit host).start state = (.ok (), prepared))
      (hrender : (render host.press).start prepared = (.ok text, rendered))
      (hencode : host.press.encode text = .error raised)
      (hfiles : FileTree.Written prepared.1.outputFile .empty state.2.tree later.2.tree) :
      Course host state (.error (.raised raised), later)
  | written {prepared text template emitted bytes outcome later}
      (huntil : (untilEmit host).start state = (.ok (), prepared))
      (hemit : (emit host.press).start prepared = (.ok text, emitted))
      (htext : prepared.1.artifact.fill template host.press = .ok text)
      (hasset : emitted.1.asset? prepared.1.outputFile = some text)
      (hencode : host.press.encode text = .ok bytes)
      (hfiles : FileTree.Written prepared.1.outputFile bytes state.2.tree later.2.tree)
      (hdecode : Text.Utf8.decode bytes = .ok text) :
      Course host state (outcome, later)

variable {press : Press}

theorem of_start_writeTo_error {path : FilePath} {text : String} {world later : World ω}
    {failure : Failure} (h : (Artifact.writeTo path text press).start world = (.error failure, later)) :
    FileTree.Gains path.parent.selfAndParents world.tree later.tree ∨
      ∃ raised, press.encode text = .error raised ∧ failure = .raised raised ∧
        FileTree.Written path .empty world.tree later.tree := by
  have hgains := FileTree.gains_makeDirectories world.tree path.parent path.parent.parts.length
  simp only [Attempt.start, Artifact.writeTo] at h
  split at h
  · next hmade =>
    cases h
    rw [hmade] at hgains
    exact .inl hgains
  next made hmade =>
  rw [hmade] at hgains
  cases hencode : press.encode text with
  | ok bytes =>
    simp only [hencode] at h
    split at h <;> cases h
    exact .inl hgains
  | error raised =>
    simp only [hencode] at h
    split at h <;> cases h
    · next hwrite => exact .inr ⟨raised, rfl, rfl, FileTree.written_of_write hgains hwrite⟩
    · exact .inl hgains

theorem start_writeTo_ok {path : FilePath} {text : String} {world later : World ω}
    (h : (Artifact.writeTo path text press).start world = (.ok (), later)) :
    ∃ bytes, press.encode text = .ok bytes ∧ FileTree.Written path bytes world.tree later.tree := by
  have hgains := FileTree.gains_makeDirectories world.tree path.parent path.parent.parts.length
  obtain ⟨made, bytes, tree, hmade, hencode, hwrite, rfl⟩ := Artifact.start_writeTo_eq_ok_iff.1 h
  rw [hmade] at hgains
  exact ⟨bytes, hencode, FileTree.written_of_write hgains hwrite⟩

theorem exists_template_of_render {state later : Compiler π κ ω × World ω} {text : String}
    (h : (render press).start state = (.ok text, later)) :
    ∃ template, state.1.artifact.fill template press = .ok text := by
  simp only [render, Job.compiler, outside, Artifact.render, Attempt.start_bind, Attempt.start_look,
    Attempt.andThen_ok, Attempt.start_within] at h
  rcases hload : (state.1.pipeline.load state.1.artifact.template).start state.2
    with ⟨fault | template, loaded⟩
  · simp [hload] at h
  · refine ⟨template, ?_⟩
    rw [hload, Attempt.andThen_ok, Attempt.start_ofExcept] at h
    cases hfill : state.1.artifact.fill template press with
    | error fault => simp [hfill, Except.mapError] at h
    | ok filled =>
      simp only [hfill, Except.mapError, Prod.mk.injEq, Except.ok.injEq] at h
      rw [h.1]

theorem start_emit_of_render_error {prepared later : Compiler π κ ω × World ω} {failure : Failure}
    (h : (render press).start prepared = (.error failure, later)) :
    (emit press).start prepared = (.error failure, later) := by
  rw [emit_eq, Attempt.start_bind, h, Attempt.andThen_error]

theorem render_compiler (press : Press) (scene : Compiler π κ ω × World ω) :
    ((render press).start scene).2.1 = scene.1 := by
  rw [render, Attempt.start_bind, Job.compiler, Attempt.start_look, Attempt.andThen_ok, outside,
    Attempt.start_within]

theorem start_emit_of_render {prepared rendered : Compiler π κ ω × World ω} {text : String}
    (h : (render press).start prepared = (.ok text, rendered)) :
    (∃ failure later, (Artifact.writeTo prepared.1.outputFile text press).start rendered.2
        = (.error failure, later) ∧ (emit press).start prepared = (.error failure, (prepared.1, later))) ∨
      ∃ later, (Artifact.writeTo prepared.1.outputFile text press).start rendered.2 = (.ok (), later) ∧
        (emit press).start prepared = (.ok text, (prepared.1.addAsset text, later)) := by
  have hsame := render_compiler press prepared
  rw [h] at hsame
  obtain ⟨compiler, world⟩ := rendered
  obtain rfl : compiler = prepared.1 := hsame
  rw [emit_eq, Attempt.start_bind, h, Attempt.andThen_ok]
  simp only [Job.compiler, outside, change, Attempt.start_bind, Attempt.start_look, Attempt.andThen_ok,
    Attempt.start_within]
  rcases (Artifact.writeTo prepared.1.outputFile text press).start world with ⟨failure | ⟨⟩, later⟩
  · exact .inl ⟨failure, later, rfl, rfl⟩
  · exact .inr ⟨later, rfl, rfl⟩

theorem start_render_of_load {prepared : Compiler π κ ω × World ω} {template text : String}
    {loaded : World ω}
    (hload : (prepared.1.pipeline.load prepared.1.artifact.template).start prepared.2 = (.ok template, loaded))
    (hfill : prepared.1.artifact.fill template press = .ok text) :
    (render press).start prepared = (.ok text, (prepared.1, loaded)) := by
  rw [render, Attempt.start_bind, Job.compiler, Attempt.start_look, Attempt.andThen_ok, outside,
    Attempt.start_within, Artifact.render, Attempt.start_bind, hload, Attempt.andThen_ok,
    Attempt.start_ofExcept, hfill]
  rfl

theorem start_run_of_unwritten {state prepared rendered : Compiler π κ ω × World ω} {text : String}
    {failure : Failure} {later : World ω} (huntil : (untilEmit host).start state = (.ok (), prepared))
    (hrender : (render host.press).start prepared = (.ok text, rendered))
    (hwrite : (Artifact.writeTo prepared.1.outputFile text host.press).start rendered.2
      = (.error failure, later)) : (run host).start state = (.error failure, (prepared.1, later)) := by
  rcases start_emit_of_render hrender with ⟨other, after, hother, hemit⟩ | ⟨after, hother, -⟩
  · cases hwrite.symm.trans hother
    rw [run_eq_emit, Attempt.start_bind, huntil, Attempt.andThen_ok, Attempt.start_bind,
      Attempt.start_discard, hemit]
    rfl
  · cases hwrite.symm.trans hother

/-- What a run does to the files: nothing before the bundle is written, then at most directories above
it where it cannot be written, and else these and the bundle, which decodes to the text that is recorded
for it. A text that cannot be encoded leaves the file of the bundle empty. Showing the graph does nothing to
the files. -/
theorem files_of_run (hhost : host.LeavesFiles) (state : Compiler π κ ω × World ω) :
    Course host state ((run host).start state) ∧
      ∀ options world, ((Command.graph host options).start world).2.tree = world.tree := by
  refine ⟨?_, fun options world => sameFiles_graph hhost options world⟩
  have huntil := sameFiles_untilEmit hhost state
  rw [run_eq_emit, Attempt.start_bind]
  rcases hstart : (untilEmit host).start state with ⟨failure | ⟨⟩, prepared⟩
  · rw [hstart] at huntil
    exact .stopped (.inl hstart) huntil
  rw [hstart] at huntil
  have hprepared : prepared.2.tree = state.2.tree := huntil
  rw [Attempt.andThen_ok, Attempt.start_bind, Attempt.start_discard]
  have hsame := (graphOnly_render host.press prepared).files
  rcases hrender : (render host.press).start prepared with ⟨failure | text, rendered⟩
  · rw [hrender] at hsame
    rw [start_emit_of_render_error hrender]
    exact .stopped (.inr ⟨prepared, hstart, hrender⟩) (hsame.trans hprepared)
  rw [hrender] at hsame
  have hrendered : rendered.2.tree = state.2.tree := hsame.trans hprepared
  rcases start_emit_of_render hrender with ⟨failure, later, hwrite, hemit⟩ | ⟨later, hwrite, hemit⟩
  · rw [hemit]
    rcases of_start_writeTo_error hwrite with hgains | ⟨raised, hencode, rfl, hwritten⟩
    · exact .unwritten hstart hrender hwrite (hrendered ▸ hgains)
    · exact .emptied hstart hrender hencode (hrendered ▸ hwritten)
  · obtain ⟨bytes, hencode, hwritten⟩ := start_writeTo_ok hwrite
    rw [hrendered] at hwritten
    obtain ⟨template, htext⟩ := exists_template_of_render hrender
    rw [hemit, Except.map, Attempt.andThen_ok]
    have hafter : ((afterEmit host).start (prepared.1.addAsset text, later)).2.2.tree = later.tree :=
      sameFiles_afterEmit hhost (prepared.1.addAsset text, later)
    rcases hend : (afterEmit host).start (prepared.1.addAsset text, later) with ⟨outcome, last⟩
    rw [hend] at hafter
    exact .written hstart hemit htext (prepared.1.asset?_addAsset text) hencode (hafter ▸ hwritten)
      (host.press.decode_of_encode text bytes hencode)

def bundledTree (template : ByteArray) : FileTree :=
  ⟨.root, Compiler.pairWorld.tree.nodes ++ (Artifact.templateTree template).nodes⟩

theorem read_bundledTree (template : ByteArray) :
    (bundledTree template).read templatePath = .ok template := rfl

def bundledWorld : World Unit :=
  { Compiler.pairWorld with tree := bundledTree Artifact.standardTemplate.toUTF8 }

theorem readText_bundledWorld :
    Pipeline.readText bundledWorld.tree templatePath = .ok Artifact.standardTemplate := by
  have hread := read_bundledTree Artifact.standardTemplate.toUTF8
  exact Artifact.readText_of_read hread Artifact.notMem_standardTemplate

/-- The bundle that the template gives for the graph of a compiler. -/
def standardText (compiler : Compiler π κ ω) : String :=
  String.ofList (Artifact.unlines compiler.artifact.lines)

theorem start_render_standardText {prepared : Compiler π κ ω × World ω}
    (htemplate : Pipeline.readText prepared.2.tree templatePath = .ok Artifact.standardTemplate)
    (hpipeline : prepared.1.pipeline = []) :
    render.start prepared = (.ok (standardText prepared.1), prepared) := by
  have hrender : (prepared.1.artifact.render prepared.1.pipeline).start prepared.2
      = (.ok (standardText prepared.1), prepared.2) :=
    Artifact.start_render_standard htemplate (by simp [hpipeline])
  rw [render, Attempt.start_bind, Job.compiler, Attempt.start_look, Attempt.andThen_ok, outside,
    Attempt.start_within, hrender]

theorem encode_standardText {compiler : Compiler π κ ω}
    (hruntime : Text.isIdentifier compiler.artifact.runtime.toList = true)
    (hnames : ∀ entry ∈ compiler.artifact.entries, Config.isEntryName entry.1 = true) :
    Press.standard.encode (standardText compiler) = .ok (standardText compiler).toUTF8 :=
  Press.encode_standard (Artifact.encode_unlines hruntime hnames)

/-- A run without rules comes to the place where it writes the bundle that the standard template gives, and
can write there. -/
def preparesWell (scene : Compiler Unit Unit Unit × World Unit) : Bool :=
  match (untilEmit idleHost).start scene with
  | (.error _, _) => false
  | (.ok (), prepared) =>
    prepared.1.pipeline.isEmpty && Text.isIdentifier prepared.1.artifact.runtime.toList &&
      (prepared.1.artifact.entries.all fun entry => Config.isEntryName entry.1) &&
      ((Artifact.writeTo prepared.1.outputFile "").start prepared.2).1.toBool

theorem of_preparesWell {scene : Compiler Unit Unit Unit × World Unit} (h : preparesWell scene = true) :
    ∃ prepared later, (untilEmit idleHost).start scene = (.ok (), prepared) ∧
      prepared.1.pipeline = [] ∧ Text.isIdentifier prepared.1.artifact.runtime.toList = true ∧
      (∀ entry ∈ prepared.1.artifact.entries, Config.isEntryName entry.1 = true) ∧
      (Artifact.writeTo prepared.1.outputFile (standardText prepared.1)).start prepared.2
        = (.ok (), later) := by
  unfold preparesWell at h
  split at h
  · cases h
  next prepared hprepared =>
  simp only [Bool.and_eq_true, List.isEmpty_iff, List.all_eq_true] at h
  obtain ⟨⟨⟨hpipeline, hruntime⟩, hnames⟩, hwritable⟩ := h
  obtain ⟨later, hwrite⟩ := Artifact.exists_start_writeTo hwritable rfl (encode_standardText hruntime hnames)
  exact ⟨prepared, later, hprepared, hpipeline, hruntime, hnames, hwrite⟩

theorem leavesFiles_idleHost : idleHost.LeavesFiles :=
  ⟨fun _ => Attempt.keeps_pure (), fun _ _ => Attempt.keeps_pure ()⟩

/-- The modules of that world are bundled: nothing stops the run, and both modules are read back from the
bundle. -/
theorem files_of_run_bundled : ∃ text : String,
    ((run idleHost).start (countingCompiler, bundledWorld)).2.2.tree.read countingCompiler.outputFile
      = .ok text.toUTF8 ∧
    (Artifact.recover text.toList).1.map (·.1) = ["./lib.py", "./main.py"] := by
  have hcourse := (files_of_run leavesFiles_idleHost (countingCompiler, bundledWorld)).1
  have htree := sameFiles_untilEmit leavesFiles_idleHost (countingCompiler, bundledWorld)
  have hok : preparesWell (countingCompiler, bundledWorld) = true := by decide +kernel
  have hmade : ((untilEmit idleHost).start (countingCompiler, bundledWorld)).2.1.outputFile
        = countingCompiler.outputFile ∧
      ((untilEmit idleHost).start (countingCompiler, bundledWorld)).2.1.artifact.modules.map (·.1)
        = ["./lib.py", "./main.py"] := by
    decide +kernel
  generalize (run idleHost).start (countingCompiler, bundledWorld) = ended at hcourse ⊢
  obtain ⟨prepared, later, hprepared, hpipeline, hruntime, hnames, hwrite⟩ := of_preparesWell hok
  rw [hprepared] at htree hmade
  have hrender := start_render_standardText (htree ▸ readText_bundledWorld) hpipeline
  refine ⟨standardText prepared.1, ?_, ?_⟩
  · cases hcourse with
    | stopped hwhere =>
      rcases hwhere with hstop | ⟨other, huntil, hstop⟩
      · cases hprepared.symm.trans hstop
      · cases hprepared.symm.trans huntil
        cases hrender.symm.trans hstop
    | unwritten huntil hrendered hstop =>
      cases hprepared.symm.trans huntil
      cases hrender.symm.trans hrendered
      cases hwrite.symm.trans hstop
    | emptied huntil hrendered hencode =>
      cases hprepared.symm.trans huntil
      cases hrender.symm.trans hrendered
      cases (encode_standardText hruntime hnames).symm.trans hencode
    | written huntil hemitted htext hasset hencode hfiles =>
      cases hprepared.symm.trans huntil
      obtain ⟨template, -⟩ := exists_template_of_render hrender
      rcases start_emit_of_render hrender with ⟨failure, other, hother, -⟩ | ⟨other, -, hemit⟩
      · cases hwrite.symm.trans hother
      cases hemit.symm.trans hemitted
      cases (encode_standardText hruntime hnames).symm.trans hencode
      exact hmade.1 ▸ hfiles.read
  · rw [standardText, String.toList_ofList, Artifact.recover_unlines hruntime hnames]
    exact hmade.2

def surrogateText : String := String.singleton (Text.standIn Text.firstSurrogate)

/-- A rule that makes a text of templates. -/
def spoilingRule (text : String) : Rule (Transform Unit) where
  test := "j2"
  pattern := ⟨{}, [.literal 106 false, .literal 50 false]⟩
  use := [.ofFunction "spoil" fun _ => text]

/-- A compiler for a pair, with a rule that makes a text of the template that cannot be encoded. -/
def spoilingCompiler : Compiler Unit Unit Unit :=
  { Compiler.pairCompiler with pipeline := [spoilingRule surrogateText] }

/-- The world with a pair, an empty template and a bundle made before. -/
def rebundledWorld : World Unit :=
  { Compiler.pairWorld with
    tree := ⟨.root, (bundledTree ByteArray.empty).nodes ++ [([⟨"dist", by decide⟩], .directory),
      ([⟨"dist", by decide⟩, ⟨"bundle.py", by decide⟩], .file "old\n".toUTF8)]⟩ }

/-- A state before the bundle is written from which the rule's text is written in the place of the bundle. -/
def preparesLoss (answer : Except Failure Unit × Compiler Unit Unit Unit × World Unit) : Bool :=
  match answer with
  | (.error _, _) => false
  | (.ok (), prepared) =>
    match (prepared.1.pipeline.load templatePath).start prepared.2 with
    | (.error _, _) => false
    | (.ok template, loaded) =>
      match (Artifact.writeTo prepared.1.outputFile template).start loaded with
      | (.error (.raised _), later) =>
        template = surrogateText && (later.tree.read spoilingCompiler.outputFile).toOption.any (·.size = 0)
      | _ => false

theorem of_preparesLoss {answer : Except Failure Unit × Compiler Unit Unit Unit × World Unit}
    (h : preparesLoss answer = true) : ∃ prepared loaded later raised, answer = (.ok (), prepared) ∧
      (prepared.1.pipeline.load templatePath).start prepared.2 = (.ok surrogateText, loaded) ∧
      (Artifact.writeTo prepared.1.outputFile surrogateText).start loaded = (.error (.raised raised), later) ∧
      later.tree.read spoilingCompiler.outputFile = .ok ByteArray.empty := by
  unfold preparesLoss at h
  split at h
  · cases h
  next prepared =>
  split at h
  · cases h
  next template loaded hload =>
  split at h
  · next raised later hwrite =>
    rw [Bool.and_eq_true, decide_eq_true_eq] at h
    obtain ⟨rfl, hlost⟩ := h
    obtain ⟨bytes, hread, hsize⟩ := (Option.any_eq_true _ _).1 hlost
    obtain rfl := ByteArray.size_eq_zero_iff.1 (of_decide_eq_true hsize)
    exact ⟨prepared, loaded, later, raised, rfl, hload, hwrite, ok_of_toOption hread⟩
  · cases h

/-- A run that fails for a text that cannot be encoded has lost the bundle made before it. -/
theorem run_loses_bundle :
    rebundledWorld.tree.read spoilingCompiler.outputFile = .ok "old\n".toUTF8 ∧
      ∃ raised, ((run idleHost).start (spoilingCompiler, rebundledWorld)).1 = .error (.raised raised) ∧
        ((run idleHost).start (spoilingCompiler, rebundledWorld)).2.2.tree.read
          spoilingCompiler.outputFile = .ok ByteArray.empty := by
  refine ⟨by decide +kernel, ?_⟩
  have hok : preparesLoss ((untilEmit idleHost).start (spoilingCompiler, rebundledWorld)) = true := by
    decide +kernel
  obtain ⟨prepared, loaded, later, raised, huntil, hload, hwrite, hlost⟩ := of_preparesLoss hok
  have hfill : prepared.1.artifact.fill surrogateText = .ok surrogateText := by
    rw [Artifact.fill, Press.fill_standard, Template.render_of_parse_data rfl]
    exact congrArg Except.ok String.ofList_toList
  have hrun := start_run_of_unwritten huntil (start_render_of_load hload hfill) hwrite
  rw [hrun]
  exact ⟨raised, rfl, hlost⟩

end Job
end Bundler
