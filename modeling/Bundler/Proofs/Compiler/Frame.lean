import Bundler.Command.Handlers
import Bundler.Proofs.Agreement
import Bundler.Proofs.Compiler.Build

/-!
# What the stages of a run leave alone

Loading, processing and rendering leave the files as they are, and building changes nothing of a
compiler but its graph (`graphOnly_compile`, `graphOnly_render`). Callbacks do whatever their plugins
do; a phase leaves alone what each of its callbacks leaves alone (`keeps_phase_of`).
-/

namespace Bundler

variable {σ ε π κ ω α : Type}

/-! ### The files -/

namespace World

def SameFiles (world later : World ω) : Prop := later.tree = world.tree

instance : Std.Refl (SameFiles (ω := ω)) := ⟨fun _ => rfl⟩

instance : IsTrans (World ω) SameFiles := ⟨fun _ _ _ h h' => Eq.trans h' h⟩

theorem sameFiles_log (level : Level) (message : String) :
    (World.log level message : Act ω Unit).Keeps SameFiles := by
  refine (tells_log level message).mono ?_
  rintro world _ ⟨output, rfl⟩
  rfl

theorem sameFiles_withRegistry (attempt : Attempt (Registry ω) Failure α) :
    (World.withRegistry attempt).Keeps SameFiles :=
  fun _ => rfl

theorem sameFiles_files (f : FileTree → Except Failure α) : (World.files f : Act ω α).Keeps SameFiles :=
  fun _ => rfl

end World

open World

namespace Pipeline

variable (pipeline : Pipeline ω)

theorem sameFiles_transform (path : FilePath) (text : String) :
    (pipeline.transform path text).Keeps SameFiles :=
  keeps_transform_of (fun _ => sameFiles_log _ _) (fun _ _ _ _ => rfl) text

theorem sameFiles_load (path : FilePath) : (pipeline.load path).Keeps SameFiles :=
  (sameFiles_files _).bind (pipeline.sameFiles_transform path)

end Pipeline

theorem Artifact.sameFiles_render (artifact : Artifact) (pipeline : Pipeline ω) (press : Press) :
    (artifact.render pipeline press).Keeps SameFiles :=
  (pipeline.sameFiles_load _).bind fun _ => Attempt.keeps_ofExcept _

/-! ### Building -/

/-- Looking at files and processing modules leave something alone. -/
structure Surroundings.Keeps (around : Surroundings σ ε) (agree : σ → σ → Prop) : Prop where
  isFile : ∀ path, (around.isFile path).Keeps agree
  process : ∀ path identity, (around.process path identity).Keeps agree

namespace Build

variable {around : Surroundings σ ε} {agree : σ → σ → Prop} [Std.Refl agree] [IsTrans σ agree]

theorem Explores.keeps (haround : around.Keeps agree) {depth : Nat} {paths : List FilePath}
    {before after : Graph × σ} {result : Except ε Unit}
    (h : Explores around depth paths before result after) : agree before.2 after.2 := by
  have hlook : ∀ {path : FilePath} {state looked : σ} {answer : Except ε Bool},
      (around.isFile path).start state = (answer, looked) → agree state looked :=
    (haround.isFile _).of_start
  have hprocessed : ∀ {path : FilePath} {identity : Identity} {looked processed : σ}
      {answer : Except ε (String × List Identity)},
      (around.process path identity).start looked = (answer, processed) → agree looked processed :=
    (haround.process _ _).of_start
  induction h with
  | nothing | tooDeep | outside | cycle => exact Std.Refl.refl _
  | known _ _ _ ih => exact ih
  | unreadable _ _ hfile | missing _ _ hfile => exact hlook hfile
  | unprocessed _ _ hfile hprocess => exact Trans.trans (hlook hfile) (hprocessed hprocess)
  | broken _ _ hfile hprocess _ ih =>
    exact Trans.trans (Trans.trans (hlook hfile) (hprocessed hprocess)) ih
  | recorded _ _ hfile hprocess _ _ ih ih' =>
    exact Trans.trans (Trans.trans (Trans.trans (hlook hfile) (hprocessed hprocess)) ih) ih'

theorem keeps_start (haround : around.Keeps agree) (depth : Nat) (entry : Option String)
    (path : FilePath) :
    (start around depth entry path).Keeps fun before after => agree before.2 after.2 := by
  intro before
  obtain ⟨graph, state⟩ := before
  cases hname : Identity.ofPath? around.root path with
  | none =>
    rw [start_start_none around graph state hname]
    exact Std.Refl.refl state
  | some identity =>
    have hmodule := (explores_module around depth path (named entry identity graph, state)).keeps haround
    rw [start_start around graph state hname, Attempt.andThen_pure]
    exact hmodule

end Build

namespace Processing

variable (root : FilePath) (naming : Naming) (pipeline : Pipeline ω)

theorem sameFiles_surroundings : (surroundings root naming pipeline).Keeps SameFiles where
  isFile _ := sameFiles_files _
  process path _ :=
    (pipeline.sameFiles_load path).bind fun _ => (Attempt.keeps_ofExcept _).bind fun _ =>
      (sameFiles_log _ _).bind fun _ => Attempt.keeps_pure _

theorem sameFiles_build (entry : Option String) (path : FilePath) (before : Graph × World ω) :
    SameFiles before.2 (Attempt.start (build root naming pipeline entry path) before).2.2 := by
  rw [start_build]
  exact Build.keeps_start (sameFiles_surroundings root naming pipeline) _ entry path before

end Processing

/-! ### Jobs -/

namespace Job

def SameFiles (state later : Compiler π κ ω × World ω) : Prop := state.2.SameFiles later.2

instance : Std.Refl (SameFiles (π := π) (κ := κ) (ω := ω)) := ⟨fun _ => rfl⟩

instance : IsTrans (Compiler π κ ω × World ω) SameFiles := ⟨fun _ _ _ h h' => Eq.trans h' h⟩

/-- The files are the same, and nothing of the compiler changed but its graph. -/
structure GraphOnly (state later : Compiler π κ ω × World ω) : Prop where
  compiler : later.1 = { state.1 with graph := later.1.graph }
  files : state.2.SameFiles later.2

instance : Std.Refl (GraphOnly (π := π) (κ := κ) (ω := ω)) := ⟨fun _ => ⟨rfl, rfl⟩⟩

instance : IsTrans (Compiler π κ ω × World ω) GraphOnly :=
  ⟨fun _ _ _ h h' => ⟨by rw [h'.compiler, h.compiler], Trans.trans h.files h'.files⟩⟩

theorem graphOnly_outside {act : Act ω α} (hact : act.Keeps World.SameFiles) :
    (outside act : Job π κ ω α).Keeps GraphOnly :=
  fun state => ⟨rfl, hact state.2⟩

theorem graphOnly_resolveEntries : (resolveEntries : Job π κ ω _).Keeps GraphOnly :=
  (Attempt.keeps_look _).bind fun _ => Attempt.keeps_ofExcept _

theorem graphOnly_buildEntry (name : String) (path : FilePath) :
    (buildEntry name path : Job π κ ω _).Keeps GraphOnly := by
  rintro ⟨compiler, world⟩
  rw [start_buildEntry]
  exact ⟨rfl, Processing.sameFiles_build _ _ _ _ _ _⟩

theorem graphOnly_compile (entries : List (String × FilePath)) :
    (compile entries : Job π κ ω Unit).Keeps GraphOnly := by
  refine Attempt.keeps_forM fun entry _ state => ?_
  rw [Attempt.start_discard]
  exact graphOnly_buildEntry entry.1 entry.2 state

theorem graphOnly_build : (build : Job π κ ω Unit).Keeps GraphOnly :=
  graphOnly_resolveEntries.bind graphOnly_compile

theorem graphOnly_render (press : Press) : (render press : Job π κ ω String).Keeps GraphOnly :=
  (Attempt.keeps_look _).bind fun compiler =>
    graphOnly_outside (compiler.artifact.sameFiles_render compiler.pipeline press)

/-! ### Callbacks -/

/-- Nothing of the compiler changed but that callbacks were added and that the plugins may know more,
and the files are the same. -/
structure TapsOnly (state later : Compiler π κ ω × World ω) : Prop where
  config : later.1.config = state.1.config
  root : later.1.root = state.1.root
  naming : later.1.naming = state.1.naming
  pipeline : later.1.pipeline = state.1.pipeline
  graph : later.1.graph = state.1.graph
  outputFile : later.1.outputFile = state.1.outputFile
  assets : later.1.assets = state.1.assets
  taps : ∀ phase, (state.1.hooks phase).taps <+: (later.1.hooks phase).taps
  files : state.2.SameFiles later.2

instance : Std.Refl (TapsOnly (π := π) (κ := κ) (ω := ω)) :=
  ⟨fun _ => ⟨rfl, rfl, rfl, rfl, rfl, rfl, rfl, fun _ => List.prefix_refl _, rfl⟩⟩

instance : IsTrans (Compiler π κ ω × World ω) TapsOnly where
  trans _ _ _ h h' :=
    { config := h'.config.trans h.config
      root := h'.root.trans h.root
      naming := h'.naming.trans h.naming
      pipeline := h'.pipeline.trans h.pipeline
      graph := h'.graph.trans h.graph
      outputFile := h'.outputFile.trans h.outputFile
      assets := h'.assets.trans h.assets
      taps := fun phase => (h.taps phase).trans (h'.taps phase)
      files := Trans.trans h.files h'.files }

theorem tapsOnly_tap (event : Phase) (label : String) (callback : Callback κ) :
    (tap event label callback : Job π κ ω Unit).Keeps TapsOnly := by
  refine fun state => ⟨rfl, rfl, rfl, rfl, rfl, rfl, rfl, fun phase => ?_, rfl⟩
  change _ <+: (state.1.hooks.tap event label callback phase).taps
  rw [Hooks.tap]
  split
  · exact List.prefix_append _ _
  · exact List.prefix_refl _

/-- What neither the change of a plugin's figures nor a message touches, the bundler's own callbacks leave
alone. -/
theorem keeps_doDuty_of {agree : Compiler π κ ω × World ω → Compiler π κ ω × World ω → Prop}
    [Std.Refl agree] [IsTrans (Compiler π κ ω × World ω) agree] {place : Nat}
    (hchange : ∀ f : Compiler π κ ω → Stats → Stats,
      (change fun compiler => compiler.changeStats place (f compiler) : Job π κ ω Unit).Keeps agree)
    (hlog : ∀ level message, (outside (World.log level message) : Job π κ ω Unit).Keeps agree)
    (arguments : List String) (duty : Duty) :
    (doDuty place arguments duty : Job π κ ω Unit).Keeps agree := by
  cases duty with
  | start => exact Attempt.keeps_pure ()
  | stop stage => exact hchange fun _ stats => stats.finish stage
  | countModules =>
    exact hchange fun compiler stats => { stats with moduleCount := compiler.graph.modules.length }
  | measureOutput => exact hchange fun compiler stats => { stats with bundleSize := compiler.writtenSize }
  | report => exact (Attempt.keeps_look _).bind fun compiler => hlog _ _

theorem tapsOnly_doDuty (place : Nat) (arguments : List String) (duty : Duty) :
    (doDuty place arguments duty : Job π κ ω Unit).Keeps TapsOnly := by
  refine keeps_doDuty_of (fun f state => ?_) (fun level message state => ?_) arguments duty
  · exact ⟨rfl, rfl, rfl, rfl, rfl, rfl, rfl, fun _ => List.prefix_refl _, rfl⟩
  · exact ⟨rfl, rfl, rfl, rfl, rfl, rfl, rfl, fun _ => List.prefix_refl _, sameFiles_log _ _ state.2⟩

section Phase

variable {host : Host π κ ω} {agree : Compiler π κ ω × World ω → Compiler π κ ω × World ω → Prop}

theorem keeps_perform (hown : ∀ state later, TapsOnly state later → agree state later)
    (hhost : ∀ callback arguments, (host.perform callback arguments).Keeps agree)
    (callback : Callback κ) (arguments : List String) :
    (perform host callback arguments).Keeps agree := by
  cases callback with
  | stats place duty => exact (tapsOnly_doDuty place arguments duty).mono hown
  | foreign callback => exact hhost callback arguments

theorem keeps_phase_of [Std.Refl agree] [IsTrans (Compiler π κ ω × World ω) agree]
    (hown : ∀ state later, TapsOnly state later → agree state later)
    (hhost : ∀ callback arguments, (host.perform callback arguments).Keeps agree)
    (event : Phase) (arguments : List String) : (phase host event arguments).Keeps agree := by
  refine (Attempt.keeps_look _).bind fun compiler => ?_
  rw [Hook.call]
  split
  · exact Attempt.keeps_throw _
  · exact Attempt.keeps_forM fun tap _ => keeps_perform hown hhost tap.callback arguments

end Phase

end Job
end Bundler
