import Bundler.Proofs.Compiler.Effects
import Bundler.Proofs.Compiler.Events
import Bundler.Proofs.Compiler.Idle
import Bundler.Proofs.Console.Messages

/-!
# One run at two levels

A run is made twice from the same state, on consoles that drop messages below different levels. Both
runs come to the same end with the same events and the same files, unless the louder one falters over a
message that the other one drops: it names a file or a module, with a closing tag in the name
(`run_levels`). Rules, counts and the status of a run spoil no message.
-/

namespace Bundler

variable {π κ ω α : Type} {low high : Nat} {falters : Failure → Prop}

/-! ### Consoles at two levels -/

/-- Consoles that may differ in what they have shown, and of which one drops messages below `low` where
the other one drops them below `high`. -/
structure Console.Alike (low high : Nat) (console other : Console) : Prop where
  backend : console.backend = other.backend
  nextBackend : console.nextBackend = other.nextBackend
  handlers : console.handlers = other.handlers
  level : console.level = other.level ∨ console.level = low ∧ other.level = high
  threshold : console.threshold = other.threshold ∨ console.threshold = low ∧ other.threshold = high
  words : console.words = other.words

/-- Worlds that may differ in their consoles alone. -/
structure World.Alike (low high : Nat) (world other : World ω) : Prop where
  tree : world.tree = other.tree
  registry : world.registry = other.registry
  memory : world.memory = other.memory
  console : world.console.Alike low high other.console

/-- The world with a console that drops messages below a level. -/
def World.atLevel (world : World ω) (level : Nat) : World ω :=
  { world with console := world.console.setLevel level }

theorem World.alike_atLevel (low high : Nat) (world : World ω) :
    (world.atLevel low).Alike low high (world.atLevel high) :=
  ⟨rfl, rfl, rfl, rfl, rfl, rfl, .inr ⟨rfl, rfl⟩, .inr ⟨rfl, rfl⟩, rfl⟩

/-- The failure of a message that cannot be shown and is shown from one of two levels on alone. -/
structure Unshown (low high : Nat) (level : Level) (message : String) (failure : Failure) : Prop where
  heard : low ≤ level.number
  dropped : level.number < high
  fault : ∃ words fault, failure = .markup fault ∧ Console.shown words (level.sign ++ message) = .error fault

namespace World

theorem echoes_log (hlevels : low ≤ high) (level : Level) (message : String) :
    (World.log level message : Act ω Unit).Echoes (Alike low high) (Unshown low high level message) := by
  intro world other h
  have hreceivers : world.console.receivers level.number = other.console.receivers level.number ∨
      low ≤ level.number ∧ level.number < high ∧ other.console.receivers level.number = [] := by
    simp only [Console.receivers, h.console.handlers]
    rcases h.console.threshold with hsame | ⟨hlow, hhigh⟩
    · exact .inl (by rw [hsame])
    · rw [hlow, hhigh]
      by_cases hheard : low ≤ level.number
      · by_cases hdropped : level.number < high
        · exact .inr ⟨hheard, hdropped, if_neg (by omega)⟩
        · exact .inl (by rw [if_pos hheard, if_pos (by omega)])
      · exact .inl (by rw [if_neg hheard, if_neg (by omega)])
  have hlines : ∀ lines lines', Alike low high
      { world with console := { world.console with output := world.console.output ++ lines } }
      { other with console := { other.console with output := other.console.output ++ lines' } } :=
    fun _ _ => ⟨h.tree, h.registry, h.memory, h.console.backend, h.console.nextBackend,
      h.console.handlers, h.console.level, h.console.threshold, h.console.words⟩
  simp only [Attempt.start, World.log, Console.log]
  have hwords : other.console.words = world.console.words := h.console.words.symm
  rcases deliver_eq level message (world.console.receivers level.number) world.console.words with
    ⟨fault, hfault⟩ | hshown
  · have hworld := hfault world.console rfl
    rcases hreceivers with hsame | ⟨hheard, hdropped, -⟩
    · rw [← hsame, hworld, hfault other.console hwords]
      exact .inl ⟨rfl, h⟩
    · rw [hworld]
      exact .inr ⟨_, rfl, hheard, hdropped, _, fault, rfl, Console.shown_of_deliver hworld⟩
  · obtain ⟨lines, hworld⟩ := hshown world.console rfl
    rcases hreceivers with hsame | ⟨-, -, hnone⟩
    · obtain ⟨lines', hother⟩ := hshown other.console hwords
      rw [← hsame, hworld, hother]
      exact .inl ⟨rfl, hlines _ _⟩
    · rw [hworld, hnone, Console.deliver]
      exact .inl ⟨rfl, by simpa using hlines lines []⟩

theorem respects_withMemory_alike {ε : Type} (attempt : Attempt ω ε α) :
    (World.withMemory attempt).Respects (Alike low high) := by
  intro world other h
  simp only [World.withMemory, Attempt.start_within, h.memory, true_and]
  exact ⟨h.tree, h.registry, rfl, h.console⟩

end World

/-! ### Messages that a name spoils -/

/-- The failure of a message of a run with a closing tag in a name, shown from one of two levels on
alone. -/
def Spoils (ω : Type) (low high : Nat) (failure : Failure) : Prop :=
  ∃ level message, Spoiled ω level message ∧ Unshown low high level message failure

theorem Unshown.not_shows {level : Level} {message : String} {failure : Failure}
    (h : Unshown low high level message failure) : ¬Console.Shows (level.sign ++ message).toList := by
  intro hshows
  obtain ⟨words, fault, -, hfault⟩ := h.fault
  obtain ⟨text, htext⟩ := hshows.exists_shown words
  cases htext.symm.trans hfault

theorem Pipeline.spoils_of_unshown (rule : Rule (Transform ω)) {path : FilePath} {failure : Failure}
    (h : Unshown low high .debug (notice rule path) failure) : Spoils ω low high failure :=
  ⟨_, _, .applied rule (not_not.1 fun hname => h.not_shows (shows_notice rule hname)), h⟩

theorem Processing.spoils_of_unshown {identity : Identity} {count : Nat} {failure : Failure}
    (h : Unshown low high .debug (notice identity count) failure) : Spoils ω low high failure :=
  ⟨_, _, .built count (not_not.1 fun hname => h.not_shows (shows_notice count hname)), h⟩

theorem Job.spoils_of_unshown {path : FilePath} {failure : Failure}
    (h : Unshown low high .success (writtenNotice path) failure) : Spoils ω low high failure :=
  ⟨_, _, .written (not_not.1 fun hname => h.not_shows (shows_writtenNotice hname)), h⟩

/-! ### Stages -/

section Stages

variable (hlevels : low ≤ high) (hspoils : ∀ failure, Spoils ω low high failure → falters failure)

include hlevels hspoils

theorem Pipeline.echoes_levels (pipeline : Pipeline ω) :
    pipeline.Echoes (World.Alike low high) falters where
  tree _ _ h := h.tree
  rule _ _ _ _ := (World.respects_withMemory_alike _).mapFault _
  applied rule _ := (World.echoes_log hlevels _ _).mono fun _ h => hspoils _ (spoils_of_unshown rule h)
  built _ _ := (World.echoes_log hlevels _ _).mono fun _ h => hspoils _ (Processing.spoils_of_unshown h)

theorem Artifact.echoes_render (artifact : Artifact) (pipeline : Pipeline ω) (press : Press) :
    (artifact.render pipeline press).Echoes (World.Alike low high) falters :=
  (Pipeline.echoes_load (pipeline.echoes_levels hlevels hspoils) _).bind fun _ =>
    (Attempt.respects_ofExcept _).echoes

end Stages

theorem Artifact.respects_writeTo (path : FilePath) (text : String) (press : Press) :
    (writeTo path text press : Act ω Unit).Respects (World.Alike low high) := by
  intro world other h
  simp only [Attempt.start, writeTo, h.tree]
  split
  · exact ⟨rfl, rfl, h.registry, h.memory, h.console⟩
  · split
    · exact ⟨rfl, rfl, h.registry, h.memory, h.console⟩
    · exact ⟨rfl, rfl, h.registry, h.memory, h.console⟩

/-- The same compiler, in worlds that may differ in their consoles alone. -/
structure Job.Alike (low high : Nat) (scene other : Job.Scene π κ ω) : Prop where
  compiler : scene.1 = other.1
  world : scene.2.Alike low high other.2

/-- Callbacks of plugins from outside do the same at both levels, or falter at the lower one. -/
def Host.Echoes (low high : Nat) (falters : Failure → Prop) (host : Host π κ ω) : Prop :=
  ∀ callback arguments, (host.perform callback arguments).Echoes (Job.Alike low high) falters

namespace Job

theorem respects_compiler : (compiler : Job π κ ω (Compiler π κ ω)).Respects (Alike low high) :=
  fun _ _ h => ⟨congrArg Except.ok h.compiler, h⟩

theorem respects_change (f : Compiler π κ ω → Compiler π κ ω) :
    (change f : Job π κ ω Unit).Respects (Alike low high) :=
  fun _ _ h => ⟨rfl, congrArg f h.compiler, h.world⟩

theorem echoes_outside {act : Act ω α} (hact : act.Echoes (World.Alike low high) falters) :
    (outside act : Job π κ ω α).Echoes (Alike low high) falters := by
  intro scene other h
  refine (hact scene.2 other.2 h.world).imp_left ?_
  rintro ⟨hresult, hworld⟩
  exact ⟨hresult, h.compiler, hworld⟩

theorem echoes_onGraph {build : Build (World ω) Failure α}
    (hbuild : build.Echoes (Build.Agrees (World.Alike low high)) falters) :
    (onGraph build : Job π κ ω α).Echoes (Alike low high) falters := by
  rintro ⟨compiler, world⟩ ⟨_, other⟩ ⟨rfl, hworld⟩
  refine (hbuild (compiler.graph, world) (compiler.graph, other) ⟨rfl, hworld⟩).imp_left ?_
  rintro ⟨hresult, hgraph, hafter⟩
  refine ⟨hresult, ?_, hafter⟩
  simp only [onGraph, Attempt.start_within, hgraph]

theorem respects_resolveEntries : (resolveEntries : Job π κ ω _).Respects (Alike low high) :=
  respects_compiler.bind fun _ => Attempt.respects_ofExcept _

section Stages

variable (hlevels : low ≤ high) (hspoils : ∀ failure, Spoils ω low high failure → falters failure)

include hlevels hspoils

theorem echoes_compile (entries : List (String × FilePath)) :
    (compile entries : Job π κ ω Unit).Echoes (Alike low high) falters := by
  refine Attempt.echoes_forM (fun entry => Attempt.Echoes.discard ?_) entries
  refine respects_compiler.echoes.bind fun compiler => echoes_onGraph ?_
  exact Processing.echoes_build (compiler.pipeline.echoes_levels hlevels hspoils) _ _

theorem echoes_emit (press : Press) : (emit press : Job π κ ω String).Echoes (Alike low high) falters := by
  refine respects_compiler.echoes.bind fun compiler => ?_
  have hemit : (compiler.artifact.emit compiler.pipeline compiler.outputFile press).Echoes
      (World.Alike low high) falters :=
    (compiler.artifact.echoes_render hlevels hspoils compiler.pipeline press).bind fun text =>
      (Artifact.respects_writeTo _ _ _).echoes.bind fun _ => (Attempt.respects_pure _).echoes
  exact (echoes_outside hemit).bind fun text =>
    (respects_change _).echoes.bind fun _ => (Attempt.respects_pure _).echoes

omit hspoils in
theorem echoes_log_of_shows {level : Level} {message : String}
    (h : Console.Shows (level.sign ++ message).toList) :
    (outside (World.log level message) : Job π κ ω Unit).Echoes (Alike low high) falters :=
  echoes_outside ((World.echoes_log hlevels _ _).mono fun _ hunshown => absurd h hunshown.not_shows)

omit hspoils in
theorem echoes_tellBuilt (entries : Nat) :
    (tellBuilt entries : Job π κ ω Unit).Echoes (Alike low high) falters :=
  respects_compiler.echoes.bind fun _ => echoes_log_of_shows hlevels (bare_builtNotice _ _).shows

theorem echoes_tellWritten : (tellWritten : Job π κ ω Unit).Echoes (Alike low high) falters :=
  respects_compiler.echoes.bind fun _ =>
    echoes_outside ((World.echoes_log hlevels _ _).mono fun _ h => hspoils _ (spoils_of_unshown h))

omit hspoils in
/-- The bundler's own callbacks do the same; the status that they report spoils no message. -/
theorem echoes_doDuty (place : Nat) {arguments : List String}
    (harguments : Console.Bare (Text.joinWith " " arguments).toList) (duty : Duty) :
    (doDuty place arguments duty : Job π κ ω Unit).Echoes (Alike low high) falters := by
  cases duty with
  | start => exact (Attempt.respects_pure ()).echoes
  | stop stage => exact (respects_change _).echoes
  | countModules => exact (respects_change _).echoes
  | measureOutput => exact (respects_change _).echoes
  | report =>
    exact respects_compiler.echoes.bind fun compiler =>
      echoes_log_of_shows hlevels ((compiler.statsAt place).bare_report harguments).shows

omit hspoils in
theorem echoes_perform {host : Host π κ ω} (hhost : host.Echoes low high falters)
    (callback : Callback κ) {arguments : List String}
    (harguments : Console.Bare (Text.joinWith " " arguments).toList) :
    (perform host callback arguments).Echoes (Alike low high) falters := by
  cases callback with
  | stats place duty => exact echoes_doDuty hlevels place harguments duty
  | foreign callback => exact hhost callback arguments

end Stages

/-! ### Runs under watch -/

/-- Records of the same incidents, and scenes that are alike. -/
structure Recorded (low high : Nat) (state other : List (Event π κ ω) × Scene π κ ω) : Prop where
  incidents : state.1.map Event.incident = other.1.map Event.incident
  scene : Alike low high state.2 other.2

theorem respects_note (incident : Incident κ) :
    (note incident : Watched π κ ω Unit).Respects (Recorded low high) := by
  intro state other h
  refine ⟨rfl, ?_, h.scene⟩
  simp only [note, Attempt.start_update, List.map_append, h.incidents, List.map_cons, List.map_nil]

theorem echoes_watch {job : Job π κ ω α} (hjob : job.Echoes (Alike low high) falters) :
    (watch job).Echoes (Recorded low high) falters := by
  rintro ⟨events, scene⟩ ⟨events', scene'⟩ ⟨hincidents, hscene⟩
  rw [start_watch, start_watch]
  refine (hjob scene scene' hscene).imp_left ?_
  rintro ⟨hresult, hafter⟩
  refine ⟨hresult, ?_, hafter⟩
  generalize job.start scene = ended at hresult hafter ⊢
  generalize job.start scene' = ended' at hresult hafter ⊢
  obtain ⟨result, after⟩ := ended
  obtain ⟨result', after'⟩ := ended'
  obtain rfl : result = result' := hresult
  rw [List.map_append, List.map_append, hincidents]
  cases result with
  | error failure => rfl
  | ok value => rfl

section Runs

variable {host : Host π κ ω} (hlevels : low ≤ high)
  (hspoils : ∀ failure, Spoils ω low high failure → falters failure)
  (hhost : host.Echoes low high falters)

include hlevels hhost

theorem echoes_watchPhase (phase : Phase) {arguments : List String}
    (harguments : Console.Bare (Text.joinWith " " arguments).toList) :
    (watchPhase host phase arguments).Echoes (Recorded low high) falters := by
  have hcheck : ∀ hook : Hook (Callback κ),
      (checkArguments hook arguments : Job π κ ω Unit).Respects (Alike low high) := by
    intro hook scene other h
    rw [start_checkArguments, start_checkArguments]
    exact ⟨rfl, h⟩
  refine (respects_note _).echoes.bind fun _ => ?_
  refine (echoes_watch respects_compiler.echoes).bind fun compiler => ?_
  refine (echoes_watch (hcheck _).echoes).bind fun _ => Attempt.echoes_forM (fun tap => ?_) _
  exact (respects_note _).echoes.bind fun _ =>
    echoes_watch (echoes_perform hlevels hhost tap.callback harguments)

include hspoils

theorem echoes_watchRun : (watchRun host).Echoes (Recorded low high) falters := by
  have hphase : ∀ phase {arguments}, Console.Bare (Text.joinWith " " arguments).toList →
      (watchPhase host phase arguments).Echoes (Recorded low high) falters :=
    fun phase arguments => echoes_watchPhase hlevels hhost phase
  have hnone : Console.Bare (Text.joinWith " " []).toList := by simp [Text.joinWith, Console.Bare]
  have hrun : Console.Bare (Text.joinWith " " [runStatus]).toList := by
    simp [Text.joinWith, Console.Bare, runStatus]
  have hdone : Console.Bare (Text.joinWith " " [doneStatus]).toList := by
    simp [Text.joinWith, Console.Bare, doneStatus]
  rw [watchRun, runBy]
  refine (hphase _ hrun).bind fun _ => (hphase _ hnone).bind fun _ => ?_
  refine (echoes_watch respects_resolveEntries.echoes).bind fun entries => ?_
  refine (hphase _ hnone).bind fun _ => (hphase _ hnone).bind fun _ => ?_
  refine (echoes_watch (echoes_compile hlevels hspoils entries)).bind fun _ => ?_
  refine (hphase _ hnone).bind fun _ => ?_
  refine (echoes_watch (echoes_tellBuilt hlevels entries.length)).bind fun _ => ?_
  refine (hphase _ hnone).bind fun _ => ?_
  refine (echoes_watch (echoes_emit hlevels hspoils host.press)).discard.bind fun _ => ?_
  refine (hphase _ hnone).bind fun _ => ?_
  refine (echoes_watch (echoes_tellWritten hlevels hspoils)).bind fun _ => ?_
  refine (hphase _ hdone).bind fun _ => ?_
  exact (echoes_watch respects_compiler.echoes).bind fun _ => (Attempt.respects_pure _).echoes

end Runs

/-- Two runs come to the same end: the same result or failure, the same compiler and files, and the same
phases opened, callbacks called and failures on the way. -/
structure SameEnd (host : Host π κ ω) (scene other : Scene π κ ω) : Prop where
  result : ((run host).start scene).1 = ((run host).start other).1
  compiler : ((run host).start scene).2.1 = ((run host).start other).2.1
  tree : ((run host).start scene).2.2.tree = ((run host).start other).2.2.tree
  incidents : (events host scene).map Event.incident = (events host other).map Event.incident

/-- Runs from the same state at two levels come to the same end, unless the one at the lower level falters
over a message that the other one drops, with a closing tag in a name, or in a callback. -/
theorem run_levels {host : Host π κ ω} (hlevels : low ≤ high) (hhost : host.Echoes low high falters)
    (compiler : Compiler π κ ω) (world : World ω) :
    SameEnd host (compiler, world.atLevel low) (compiler, world.atLevel high) ∨
      ∃ failure, ((run host).start (compiler, world.atLevel low)).1 = .error failure ∧
        (Spoils ω low high failure ∨ falters failure) := by
  have hhost' : host.Echoes low high fun failure => Spoils ω low high failure ∨ falters failure :=
    fun callback arguments => (hhost callback arguments).mono fun _ => .inr
  have hrun := echoes_watchRun hlevels (fun _ => .inl) hhost' ([], compiler, world.atLevel low)
    ([], compiler, world.atLevel high) ⟨rfl, rfl, world.alike_atLevel low high⟩
  have hlow := watches_watchRun host [] (compiler, world.atLevel low)
  have hhigh := watches_watchRun host [] (compiler, world.atLevel high)
  rcases hrun with ⟨hresult, hincidents, hscene⟩ | ⟨failure, hfailure, hwhy⟩
  · left
    refine ⟨?_, ?_, ?_, hincidents⟩
    · rw [← hlow, ← hhigh]
      exact hresult
    · rw [← hlow, ← hhigh]
      exact hscene.compiler
    · rw [← hlow, ← hhigh]
      exact hscene.world.tree
  · right
    refine ⟨failure, ?_, hwhy⟩
    rw [← hlow]
    exact hfailure

/-- The modules of a pair are bundled at both levels. -/
theorem run_levels_bundled :
    SameEnd idleHost (Compiler.pairCompiler, bundledWorld.atLevel Level.debug.number)
      (Compiler.pairCompiler, bundledWorld.atLevel Level.info.number) := by
  have hidle : idleHost.Echoes Level.debug.number Level.info.number fun _ => False :=
    fun _ _ => (Attempt.respects_pure ()).echoes
  obtain ⟨result, hresult⟩ : ∃ result, ((run idleHost).start
      (Compiler.pairCompiler, bundledWorld.atLevel Level.debug.number)).1 = .ok result :=
    exists_result_of_goesThrough rfl rfl rfl (by decide +kernel) (by decide +kernel) readText_bundledWorld
      (by decide +kernel)
  rcases run_levels (by decide) hidle Compiler.pairCompiler bundledWorld with hsame | ⟨failure, hfailure, -⟩
  · exact hsame
  · cases hresult.symm.trans hfailure

/-- That world with one more module, whose name has a closing tag in it. -/
def taggedTree (template : ByteArray) : FileTree :=
  ⟨.root, (bundledTree template).nodes ++ [([⟨"[", by decide +kernel⟩], .directory),
    ([⟨"[", by decide +kernel⟩, ⟨"y].py", by decide +kernel⟩], .file "x = 1\n".toUTF8)]⟩

@[inherit_doc taggedTree]
def taggedWorld : World Unit :=
  { bundledWorld with tree := taggedTree Artifact.standardTemplate.toUTF8 }

theorem read_taggedTree (template : ByteArray) : (taggedTree template).read templatePath = .ok template := rfl

def taggedCompiler : Compiler Unit Unit Unit :=
  { Compiler.pairCompiler with
    config := { Compiler.pairCompiler.config with entries := [("main", .ofString "[/y].py")] } }

def markupFault? : Except Failure α → Option Console.MarkupFault
  | .error (.markup fault) => some fault
  | _ => none

theorem markupFault?_eq_some_iff {result : Except Failure α} {fault : Console.MarkupFault} :
    markupFault? result = some fault ↔ result = .error (.markup fault) := by
  constructor
  · intro h
    rw [markupFault?.eq_def] at h
    split at h
    · cases h
      rfl
    · cases h
  · rintro rfl
    rfl

/-- The message about that module cannot be shown, which ends the run at the level that shows it and does
nothing to the run at the level that drops it. -/
theorem run_of_tagged_name :
    ((run idleHost).start (taggedCompiler, taggedWorld.atLevel Level.debug.number)).1
        = .error (.markup (.notOpen "/y" 14)) ∧
      ∃ result, ((run idleHost).start (taggedCompiler, taggedWorld.atLevel Level.info.number)).1
        = .ok result := by
  refine ⟨markupFault?_eq_some_iff.1 (by decide +kernel), ?_⟩
  have hread := read_taggedTree Artifact.standardTemplate.toUTF8
  exact exists_result_of_goesThrough rfl rfl rfl (by decide +kernel) (by decide +kernel)
    (Artifact.readText_of_read hread Artifact.notMem_standardTemplate) (by decide +kernel)

end Job

end Bundler
