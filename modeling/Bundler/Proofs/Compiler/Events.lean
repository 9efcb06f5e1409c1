import Bundler.Proofs.Compiler.Frame

/-!
# The events of a run

A run is watched by keeping a record: a phase begins, a callback is called, something fails. Keeping
the record changes nothing (`watches_watchRun`), so `events` is what happens in the run itself. Where
every stage and every callback leads from one scene to another in some order, the scenes of the events
are in that order (`ordered_events`).
-/

namespace Bundler.Job

variable {π κ ω α β : Type}

abbrev Scene (π κ ω : Type) := Compiler π κ ω × World ω

inductive Incident (κ : Type)
  | opened (phase : Phase)
  | called (callback : Callback κ) (arguments : List String)
  | failed (failure : Failure)

/-- Something that happens in a run, and the scene in which it happens. -/
structure Event (π κ ω : Type) where
  incident : Incident κ
  scene : Scene π κ ω

/-- A job that keeps a record of events. -/
abbrev Watched (π κ ω α : Type) := Attempt (List (Event π κ ω) × Scene π κ ω) Failure α

def note (incident : Incident κ) : Watched π κ ω Unit :=
  Attempt.update fun (events, scene) => (events ++ [⟨incident, scene⟩], scene)

def failureEvents : Except Failure α × Scene π κ ω → List (Event π κ ω)
  | (.ok _, _) => []
  | (.error failure, scene) => [⟨.failed failure, scene⟩]

def watch (job : Job π κ ω α) : Watched π κ ω α := fun (events, scene) =>
  let ended := job.start scene
  (ended.1, (events ++ failureEvents ended, ended.2))

def watchCall (host : Host π κ ω) (callback : Callback κ) (arguments : List String) :
    Watched π κ ω Unit := do
  note (.called callback arguments)
  watch (perform host callback arguments)

/-- Calls a hook as if it had no callbacks: all that can fail is the number of arguments. -/
def checkArguments (hook : Hook (Callback κ)) (arguments : List String) : Job π κ ω Unit :=
  let bare : Hook (Callback κ) := { hook with taps := [] }
  bare.call Failure.arguments (fun _ _ => pure ()) arguments

def watchPhase (host : Host π κ ω) (phase : Phase) (arguments : List String) : Watched π κ ω Unit := do
  note (.opened phase)
  let hook := (← watch compiler).hooks phase
  watch (checkArguments hook arguments)
  hook.taps.forM fun tap => watchCall host tap.callback arguments

def tellBuilt (entries : Nat) : Job π κ ω Unit := do
  outside (World.log .info (builtNotice (← compiler).graph.modules.length entries))

def tellWritten : Job π κ ω Unit := do
  outside (World.log .success (writtenNotice (← compiler).outputFile))

/-- A full run, with the phases called in some way and the stages between them worked through in some
way. -/
def runBy {m : Type → Type} [Monad m] (press : Press) (call : Phase → List String → m Unit)
    (work : {α : Type} → Job π κ ω α → m α) : m BundleResult := do
  call .run [runStatus]
  call .beforeEntryOptions []
  let entries ← work resolveEntries
  call .afterEntryOptions []
  call .beforeCompile []
  work (compile entries)
  call .afterCompile []
  work (tellBuilt entries.length)
  call .beforeEmitFile []
  discard (work (emit press))
  call .afterEmitFile []
  work tellWritten
  call .done [doneStatus]
  return (← work compiler).result

def watchRun (host : Host π κ ω) : Watched π κ ω BundleResult := runBy host.press (watchPhase host) watch

/-- What happens in a run. -/
def events (host : Host π κ ω) (scene : Scene π κ ω) : List (Event π κ ω) :=
  ((watchRun host).start ([], scene)).2.1

theorem run_eq_runBy (host : Host π κ ω) :
    run host = runBy host.press (fun event arguments => phase host event arguments) fun job => job := by
  simp only [run, runEntries, runCompile, runEmit, runBy, tellBuilt, tellWritten, bind_assoc, pure_bind]

theorem start_watch (job : Job π κ ω α) (events : List (Event π κ ω)) (scene : Scene π κ ω) :
    (watch job).start (events, scene)
      = ((job.start scene).1, (events ++ failureEvents (job.start scene), (job.start scene).2)) := rfl

theorem start_watchCall (host : Host π κ ω) (callback : Callback κ) (arguments : List String)
    (events : List (Event π κ ω)) (scene : Scene π κ ω) :
    (watchCall host callback arguments).start (events, scene)
      = (((perform host callback arguments).start scene).1,
        (events ++ ⟨.called callback arguments, scene⟩
            :: failureEvents ((perform host callback arguments).start scene),
          ((perform host callback arguments).start scene).2)) := by
  rw [watchCall, Attempt.start_bind, note, Attempt.start_update, Attempt.andThen_ok, start_watch,
    List.append_assoc, List.singleton_append]

theorem start_checkArguments (hook : Hook (Callback κ)) (arguments : List String)
    (scene : Scene π κ ω) :
    (checkArguments hook arguments).start scene
      = (if arguments.length ≠ hook.arguments.length then
          .error (.arguments ⟨hook.name, hook.arguments, arguments.length⟩) else .ok (), scene) := by
  rw [checkArguments, Hook.call]
  by_cases hnumber : arguments.length ≠ hook.arguments.length
  · rw [if_pos hnumber, if_pos hnumber]
    rfl
  · rw [if_neg hnumber, if_neg hnumber]
    rfl

/-! ### Keeping a record changes nothing -/

/-- Apart from the record, one does what the other does. -/
def Watches (watched : Watched π κ ω α) (job : Job π κ ω α) : Prop :=
  ∀ events scene, ((watched.start (events, scene)).1, (watched.start (events, scene)).2.2)
    = job.start scene

theorem watches_iff {watched : Watched π κ ω α} {job : Job π κ ω α} :
    Watches watched job ↔ Attempt.Projects Prod.snd watched job :=
  ⟨fun h state => h state.1 state.2, fun h events scene => h (events, scene)⟩

theorem watches_pure (value : α) : Watches (π := π) (κ := κ) (ω := ω) (pure value) (pure value) :=
  fun _ _ => rfl

theorem watches_watch (job : Job π κ ω α) : Watches (watch job) job :=
  fun _ _ => rfl

theorem Watches.bind {watched : Watched π κ ω α} {job : Job π κ ω α} (h : Watches watched job)
    {next : α → Watched π κ ω β} {next' : α → Job π κ ω β}
    (hnext : ∀ value, Watches (next value) (next' value)) :
    Watches (watched >>= next) (job >>= next') :=
  watches_iff.2 ((watches_iff.1 h).bind fun value => watches_iff.1 (hnext value))

theorem Watches.discard {watched : Watched π κ ω α} {job : Job π κ ω α} (h : Watches watched job) :
    Watches (discard watched) (discard job) :=
  watches_iff.2 (watches_iff.1 h).discard

theorem watches_forM {f : α → Watched π κ ω Unit} {f' : α → Job π κ ω Unit}
    (hf : ∀ value, Watches (f value) (f' value)) (values : List α) :
    Watches (values.forM f) (values.forM f') :=
  watches_iff.2 (Attempt.projects_forM (fun value => watches_iff.1 (hf value)) values)

theorem Watches.note {watched : Watched π κ ω α} {job : Job π κ ω α} (h : Watches watched job)
    (incident : Incident κ) : Watches (do note incident; watched) job :=
  fun _ scene => h _ scene

theorem phase_eq (host : Host π κ ω) (event : Phase) (arguments : List String) :
    phase host event arguments = (do
      let hook := (← compiler).hooks event
      checkArguments hook arguments
      hook.taps.forM fun tap => perform host tap.callback arguments) := by
  refine Attempt.ext fun scene => ?_
  simp only [phase, checkArguments, Job.compiler, Hook.call, Attempt.start_bind, Attempt.start_look,
    Attempt.andThen_ok]
  split
  · rfl
  · rfl

theorem watches_watchPhase (host : Host π κ ω) (event : Phase) (arguments : List String) :
    Watches (watchPhase host event arguments) (phase host event arguments) := by
  rw [phase_eq]
  refine Watches.note ((watches_watch _).bind fun compiler => ?_) _
  exact (watches_watch _).bind fun _ => watches_forM (fun tap => (watches_watch _).note _) _

theorem watches_watchRun (host : Host π κ ω) : Watches (watchRun host) (run host) := by
  rw [run_eq_runBy, watchRun, runBy, runBy]
  refine (watches_watchPhase host _ _).bind fun _ => ?_
  refine (watches_watchPhase host _ _).bind fun _ => ?_
  refine (watches_watch _).bind fun entries => ?_
  refine (watches_watchPhase host _ _).bind fun _ => ?_
  refine (watches_watchPhase host _ _).bind fun _ => ?_
  refine (watches_watch _).bind fun _ => ?_
  refine (watches_watchPhase host _ _).bind fun _ => ?_
  refine (watches_watch _).bind fun _ => ?_
  refine (watches_watchPhase host _ _).bind fun _ => ?_
  refine (watches_watch _).discard.bind fun _ => ?_
  refine (watches_watchPhase host _ _).bind fun _ => ?_
  refine (watches_watch _).bind fun _ => ?_
  refine (watches_watchPhase host _ _).bind fun _ => ?_
  exact (watches_watch _).bind fun _ => watches_pure _

/-! ### Scenes in order -/

variable {host : Host π κ ω} {R : Scene π κ ω → Scene π κ ω → Prop}

/-- The scene that an event leads to: a callback does its work. -/
def Event.left (host : Host π κ ω) (event : Event π κ ω) : Scene π κ ω :=
  match event.incident with
  | .called callback arguments => ((perform host callback arguments).start event.scene).2
  | .opened _ | .failed _ => event.scene

theorem scene_of_failureEvents (host : Host π κ ω) {ended : Except Failure α × Scene π κ ω}
    {event : Event π κ ω} (h : event ∈ failureEvents ended) :
    event.scene = ended.2 ∧ event.left host = ended.2 := by
  rcases ended with ⟨failure | value, after⟩
  · rw [failureEvents, List.mem_singleton] at h
    rw [h]
    exact ⟨rfl, rfl⟩
  · cases h

theorem pairwise_failureEvents {R : Event π κ ω → Event π κ ω → Prop}
    (ended : Except Failure α × Scene π κ ω) : (failureEvents ended).Pairwise R := by
  rcases ended with ⟨failure | value, after⟩
  · exact List.pairwise_singleton _ _
  · exact .nil

/-- From a record and a scene to later ones: what is new in the record lies between the scenes, in
order. -/
def Ordered (host : Host π κ ω) (R : Scene π κ ω → Scene π κ ω → Prop)
    (state later : List (Event π κ ω) × Scene π κ ω) : Prop :=
  R state.2 later.2 ∧ ∃ new, later.1 = state.1 ++ new ∧
    new.Pairwise (fun earlier event => R (earlier.left host) event.scene) ∧
      ∀ event ∈ new, R state.2 event.scene ∧ R (event.left host) later.2

variable [Std.Refl R] [IsTrans (Scene π κ ω) R]

instance : Std.Refl (Ordered host R) :=
  ⟨fun _ => ⟨Std.Refl.refl _, [], by simp⟩⟩

instance : IsTrans (List (Event π κ ω) × Scene π κ ω) (Ordered host R) where
  trans first second third := by
    rintro ⟨hR, new, hnew, horder, hbetween⟩ ⟨hR', new', hnew', horder', hbetween'⟩
    refine ⟨Trans.trans hR hR', new ++ new', by rw [hnew', hnew, List.append_assoc], ?_, ?_⟩
    · refine List.pairwise_append.2 ⟨horder, horder', fun earlier hearlier event hevent => ?_⟩
      exact Trans.trans (hbetween earlier hearlier).2 (hbetween' event hevent).1
    · intro event hevent
      rcases List.mem_append.1 hevent with hevent | hevent
      · exact ⟨(hbetween event hevent).1, Trans.trans (hbetween event hevent).2 hR'⟩
      · exact ⟨Trans.trans hR (hbetween' event hevent).1, (hbetween' event hevent).2⟩

omit [IsTrans (Scene π κ ω) R] in
theorem ordered_watch {job : Job π κ ω α} (hjob : job.Keeps R) : (watch job).Keeps (Ordered host R) := by
  rintro ⟨events, scene⟩
  rw [start_watch]
  refine ⟨hjob scene, _, rfl, pairwise_failureEvents _, fun event hevent => ?_⟩
  obtain ⟨hscene, hleft⟩ := scene_of_failureEvents host hevent
  rw [hscene, hleft]
  exact ⟨hjob scene, Std.Refl.refl _⟩

omit [IsTrans (Scene π κ ω) R] in
theorem ordered_watchCall (hhost : ∀ callback arguments, (perform host callback arguments).Keeps R)
    (callback : Callback κ) (arguments : List String) :
    (watchCall host callback arguments).Keeps (Ordered host R) := by
  rintro ⟨events, scene⟩
  rw [start_watchCall]
  have hcall := hhost callback arguments scene
  refine ⟨hcall, _, rfl, List.pairwise_cons.2 ⟨fun event hevent => ?_, pairwise_failureEvents _⟩, ?_⟩
  · rw [(scene_of_failureEvents host hevent).1]
    exact Std.Refl.refl _
  · rw [List.forall_mem_cons]
    refine ⟨⟨Std.Refl.refl _, Std.Refl.refl _⟩, fun event hevent => ?_⟩
    obtain ⟨hscene, hleft⟩ := scene_of_failureEvents host hevent
    rw [hscene, hleft]
    exact ⟨hcall, Std.Refl.refl _⟩

omit [IsTrans (Scene π κ ω) R] in
theorem ordered_note (event : Phase) :
    (note (.opened event) : Watched π κ ω Unit).Keeps (Ordered host R) := by
  rintro ⟨events, scene⟩
  refine ⟨Std.Refl.refl _, _, rfl, List.pairwise_singleton _ _, ?_⟩
  rw [List.forall_mem_singleton]
  exact ⟨Std.Refl.refl _, Std.Refl.refl _⟩

theorem ordered_watchPhase (hhost : ∀ callback arguments, (perform host callback arguments).Keeps R)
    (event : Phase) (arguments : List String) :
    (watchPhase host event arguments).Keeps (Ordered host R) := by
  have hcheck : ∀ hook : Hook (Callback κ), (checkArguments hook arguments : Job π κ ω Unit).Keeps R := by
    intro hook scene
    rw [start_checkArguments]
    exact Std.Refl.refl scene
  refine (ordered_note event).bind fun _ => ?_
  refine (ordered_watch (Attempt.keeps_look _)).bind fun compiler => ?_
  refine (ordered_watch (hcheck _)).bind fun _ => ?_
  exact Attempt.keeps_forM fun tap _ => ordered_watchCall hhost tap.callback arguments

/-- The scenes of a run are in order where every stage and every callback leads from one to the next. -/
theorem ordered_events (hhost : ∀ callback arguments, (perform host callback arguments).Keeps R)
    (hsame : ∀ scene later : Scene π κ ω, later.1 = scene.1 → R scene later)
    (hcompile : ∀ entries, (compile entries : Job π κ ω _).Keeps R)
    (hemit : (emit host.press : Job π κ ω _).Keeps R) (scene : Scene π κ ω) :
    (events host scene).Pairwise (fun earlier event => R (earlier.left host) event.scene) ∧
      ∀ event ∈ events host scene, R scene event.scene := by
  have hphase := ordered_watchPhase hhost
  have hresolve : (watch resolveEntries).Keeps (Ordered host R) :=
    ordered_watch ((Attempt.keeps_look _).bind fun _ => Attempt.keeps_ofExcept _)
  have htell : ∀ (level : Level) (message : Compiler π κ ω → String),
      (watch (do outside (World.log level (message (← compiler))))).Keeps (Ordered host R) :=
    fun level message => ordered_watch ((Attempt.keeps_look _).bind fun _ scene => hsame _ _ rfl)
  have hemitted : (discard (watch (emit host.press)) : Watched π κ ω Unit).Keeps (Ordered host R) := by
    intro state
    rw [Attempt.start_discard]
    exact ordered_watch hemit state
  have hrun : (watchRun host).Keeps (Ordered host R) := by
    rw [watchRun, runBy]
    refine (hphase _ _).bind fun _ => (hphase _ _).bind fun _ => ?_
    refine hresolve.bind fun entries => ?_
    refine (hphase _ _).bind fun _ => (hphase _ _).bind fun _ => ?_
    refine (ordered_watch (hcompile entries)).bind fun _ => (hphase _ _).bind fun _ => ?_
    refine (htell _ _).bind fun _ => (hphase _ _).bind fun _ => ?_
    refine hemitted.bind fun _ => (hphase _ _).bind fun _ => ?_
    refine (htell _ _).bind fun _ => (hphase _ _).bind fun _ => ?_
    exact (ordered_watch (Attempt.keeps_look _)).bind fun _ => Attempt.keeps_pure _
  obtain ⟨-, new, hnew, horder, hbetween⟩ := hrun ([], scene)
  rw [events, hnew, List.nil_append]
  exact ⟨horder, fun event hevent => (hbetween event hevent).1⟩

end Bundler.Job
