import Bundler.Proofs.Compiler.Effects
import Bundler.Proofs.Compiler.Events
import Bundler.Proofs.Processing.Calls

/-!
# The life of a run

The events of a run are rounds, one for each phase in the declared order. In a round the callbacks that
the phase has when it begins are called, each in the state that the one before it left (`Calls`), and
callbacks that are added meanwhile wait for a later phase. The first failure ends the run and is its
result (`lifecycle_of_run`).
-/

namespace Bundler

variable {σ ε π κ ω α β : Type}

/-- The attempt leads from states with one property to states with another one, or to a failure. -/
def Attempt.Leads (before : σ → Prop) (attempt : Attempt σ ε α) (after : α → σ → Prop)
    (failed : ε → σ → Prop) : Prop :=
  ∀ state, before state →
    match attempt.start state with
    | (.ok value, later) => after value later
    | (.error fault, later) => failed fault later

namespace Attempt

variable {attempt : Attempt σ ε α} {before : σ → Prop} {middle : α → σ → Prop} {after : β → σ → Prop}
  {failed : ε → σ → Prop}

theorem Leads.bind (h : attempt.Leads before middle failed) {next : α → Attempt σ ε β}
    (hnext : ∀ value, (next value).Leads (middle value) after failed) :
    (attempt >>= next).Leads before after failed := by
  intro state hstate
  have hfirst := h state hstate
  rw [start_bind]
  generalize attempt.start state = ended at hfirst ⊢
  rcases ended with ⟨fault | value, later⟩
  · exact hfirst
  · exact hnext value later hfirst

theorem Leads.discard {later : σ → Prop} (h : attempt.Leads before (fun _ => later) failed) :
    (discard attempt : Attempt σ ε Unit).Leads before (fun _ => later) failed := by
  intro state hstate
  have hattempt := h state hstate
  rw [start_discard]
  generalize attempt.start state = ended at hattempt ⊢
  rcases ended with ⟨fault | value, last⟩
  · exact hattempt
  · exact hattempt

end Attempt

/-- What a run hands to the callbacks of a phase. -/
def Phase.status : Phase → List String
  | .run => [runStatus]
  | .done => [doneStatus]
  | _ => []

/-- The callbacks of plugins do nothing to a compiler but add callbacks, and nothing to files. -/
def Host.OnlyTaps (host : Host π κ ω) : Prop :=
  ∀ callback arguments, (host.perform callback arguments).Keeps Job.TapsOnly

namespace Job

variable {host : Host π κ ω}

/-! ### Rounds -/

/-- Calling callbacks one after the other, each in the scene that the one before left, up to the first
failure: the callbacks called and their scenes, what it comes to and the scene left. -/
inductive Calls (host : Host π κ ω) (arguments : List String) :
    List (Tap (Callback κ)) → Scene π κ ω → List (Callback κ × Scene π κ ω) → Except Failure Unit →
      Scene π κ ω → Prop
  | nothing (scene) : Calls host arguments [] scene [] (.ok ()) scene
  | failed {tap taps scene failure after}
      (hcall : (perform host tap.callback arguments).start scene = (.error failure, after)) :
      Calls host arguments (tap :: taps) scene [(tap.callback, scene)] (.error failure) after
  | went {tap taps scene between calls result after}
      (hcall : (perform host tap.callback arguments).start scene = (.ok (), between))
      (hrest : Calls host arguments taps between calls result after) :
      Calls host arguments (tap :: taps) scene ((tap.callback, scene) :: calls) result after

/-- A phase of a run: the scene in which it begins, and the callbacks that are called in their scenes. -/
structure Round (π κ ω : Type) where
  phase : Phase
  opening : Scene π κ ω
  calls : List (Callback κ × Scene π κ ω)

namespace Round

def hook (round : Round π κ ω) : Hook (Callback κ) := round.opening.1.hooks round.phase

def tapped (round : Round π κ ω) : List (Callback κ) := round.hook.taps.map (·.callback)

def called (round : Round π κ ω) : List (Callback κ) := round.calls.map (·.1)

/-- The events of a round. Every callback gets the status of the phase. -/
def events (round : Round π κ ω) : List (Event π κ ω) :=
  ⟨.opened round.phase, round.opening⟩ ::
    round.calls.map fun (callback, scene) => ⟨.called callback round.phase.status, scene⟩

/-- How a round goes: what it comes to and the scene it leaves. A hook that takes another number of
arguments calls nobody. -/
inductive Goes (host : Host π κ ω) (round : Round π κ ω) : Except Failure Unit → Scene π κ ω → Prop
  | refused (hnumber : round.phase.status.length ≠ round.hook.arguments.length)
      (hcalls : round.calls = []) :
      Goes host round (.error (.arguments
        ⟨round.hook.name, round.hook.arguments, round.phase.status.length⟩)) round.opening
  | called {result closing}
      (hcalls : Calls host round.phase.status round.hook.taps round.opening round.calls result closing) :
      Goes host round result closing

/-- The round goes through: every callback is called, once and in order. -/
def Whole (host : Host π κ ω) (round : Round π κ ω) : Prop :=
  round.called = round.tapped ∧ ∃ closing, round.Goes host (.ok ()) closing

/-- The round ends with a failure: the callbacks before the one that fails were called. -/
def Broken (host : Host π κ ω) (failure : Failure) (round : Round π κ ω) : Prop :=
  round.called <+: round.tapped ∧ ∃ closing, round.Goes host (.error failure) closing

end Round

theorem Calls.callbacks {arguments : List String} {taps : List (Tap (Callback κ))}
    {scene after : Scene π κ ω} {calls : List (Callback κ × Scene π κ ω)} {result : Except Failure Unit}
    (h : Calls host arguments taps scene calls result after) :
    calls.map (·.1) <+: taps.map (·.callback) ∧
      (result = .ok () → calls.map (·.1) = taps.map (·.callback)) := by
  induction h with
  | nothing => exact ⟨List.prefix_rfl, fun _ => rfl⟩
  | failed => exact ⟨⟨_, rfl⟩, nofun⟩
  | went hcall hrest ih =>
    rw [List.map_cons, List.map_cons, List.cons_prefix_cons, List.cons.injEq]
    exact ⟨⟨rfl, ih.1⟩, fun hok => ⟨rfl, ih.2 hok⟩⟩

theorem Round.Goes.whole {round : Round π κ ω} {closing : Scene π κ ω}
    (h : round.Goes host (.ok ()) closing) : round.Whole host := by
  refine ⟨?_, closing, h⟩
  cases h with
  | called hcalls => exact hcalls.callbacks.2 rfl

theorem Round.Goes.broken {round : Round π κ ω} {failure : Failure} {closing : Scene π κ ω}
    (h : round.Goes host (.error failure) closing) : round.Broken host failure := by
  refine ⟨?_, closing, h⟩
  cases h with
  | refused hnumber hcalls =>
    rw [Round.called, hcalls]
    exact List.nil_prefix
  | called hcalls => exact hcalls.callbacks.1

theorem start_forM_watchCall (host : Host π κ ω) (arguments : List String)
    (taps : List (Tap (Callback κ))) (events : List (Event π κ ω)) (scene : Scene π κ ω) :
    ∃ calls result after, Calls host arguments taps scene calls result after ∧
      (taps.forM fun tap => watchCall host tap.callback arguments).start (events, scene)
        = (result, (events ++ (calls.map fun (callback, scene) => ⟨.called callback arguments, scene⟩)
            ++ failureEvents (result, after), after)) := by
  induction taps generalizing events scene with
  | nil => exact ⟨[], .ok (), scene, .nothing scene, by simp [failureEvents]⟩
  | cons tap taps ih =>
    rw [Attempt.start_forM_cons, start_watchCall]
    rcases hcall : (perform host tap.callback arguments).start scene with ⟨failure | ⟨⟩, between⟩
    · exact ⟨_, _, _, .failed hcall, by simp⟩
    · obtain ⟨calls, result, after, hcalls, hrest⟩ :=
        ih (events ++ [⟨.called tap.callback arguments, scene⟩]) between
      refine ⟨_, result, after, .went hcall hcalls, ?_⟩
      rw [Attempt.andThen_ok, failureEvents, hrest]
      simp

theorem start_watchPhase (host : Host π κ ω) (event : Phase) (events : List (Event π κ ω))
    (scene : Scene π κ ω) :
    ∃ round : Round π κ ω, round.phase = event ∧ round.opening = scene ∧
      ∃ result closing, round.Goes host result closing ∧
        (watchPhase host event event.status).start (events, scene)
          = (result, (events ++ round.events ++ failureEvents (result, closing), closing)) := by
  have hstart : (watchPhase host event event.status).start (events, scene)
      = Attempt.andThen
          (fun _ => (scene.1.hooks event).taps.forM fun tap => watchCall host tap.callback event.status)
          ((watch (checkArguments (scene.1.hooks event) event.status)).start
            (events ++ [⟨.opened event, scene⟩], scene)) := by
    rw [watchPhase, Attempt.start_bind, note, Attempt.start_update, Attempt.andThen_ok,
      Attempt.start_bind, start_watch, Job.compiler, Attempt.start_look, Attempt.andThen_ok,
      failureEvents, List.append_nil, Attempt.start_bind]
  rw [hstart, start_watch, start_checkArguments]
  by_cases hnumber : event.status.length ≠ (scene.1.hooks event).arguments.length
  · refine ⟨⟨event, scene, []⟩, rfl, rfl, _, _, .refused hnumber rfl, ?_⟩
    rw [if_pos hnumber]
    simp [Round.events, Round.hook, failureEvents]
  · obtain ⟨calls, result, closing, hcalls, hforM⟩ := start_forM_watchCall host event.status
      (scene.1.hooks event).taps (events ++ [⟨.opened event, scene⟩]) scene
    refine ⟨⟨event, scene, calls⟩, rfl, rfl, result, closing, .called hcalls, ?_⟩
    rw [if_neg hnumber, failureEvents, List.append_nil, Attempt.andThen_ok, hforM]
    simp [Round.events]

/-! ### What holds when a phase begins -/

/-- Every entry, as it is resolved, was built. -/
def Built (scene : Scene π κ ω) : Prop :=
  ∃ entries, scene.1.entryPaths = .ok entries ∧ ∀ entry ∈ entries, ∃ identity,
    Identity.ofPath? scene.1.root entry.2 = some identity ∧ scene.1.graph.visit identity = .done

/-- The bundle stands encoded in its file and is recorded. -/
def Stored (press : Press) (scene : Scene π κ ω) : Prop :=
  ∃ template text bytes, scene.1.artifact.fill template press = .ok text ∧
    press.encode text = .ok bytes ∧ scene.2.tree.read scene.1.outputFile = .ok bytes ∧
    scene.1.asset? scene.1.outputFile = some text

/-- What holds when a phase begins. -/
def Ready (press : Press) (scene : Scene π κ ω) : Phase → Prop
  | .afterCompile => Built scene
  | .afterEmitFile | .done => Stored press scene
  | _ => True

theorem entryPaths_of_tapsOnly {scene later : Scene π κ ω} (h : TapsOnly scene later) :
    later.1.entryPaths = scene.1.entryPaths :=
  entryPaths_eq h.root (by rw [h.config])

theorem built_of_tapsOnly {scene later : Scene π κ ω} (h : TapsOnly scene later) (hbuilt : Built scene) :
    Built later := by
  obtain ⟨entries, hentries, hdone⟩ := hbuilt
  refine ⟨entries, (entryPaths_of_tapsOnly h).trans hentries, ?_⟩
  rw [h.root, h.graph]
  exact hdone

theorem stored_of_tapsOnly {press : Press} {scene later : Scene π κ ω} (h : TapsOnly scene later)
    (hstored : Stored press scene) : Stored press later := by
  obtain ⟨template, text, bytes, hfill, hencode, hread, hasset⟩ := hstored
  have hfiles : later.2.tree = scene.2.tree := h.files
  refine ⟨template, text, bytes, ?_, hencode, ?_, ?_⟩
  · rw [Compiler.artifact, h.naming, h.graph]
    exact hfill
  · rw [hfiles, h.outputFile]
    exact hread
  · rw [Compiler.asset?, h.assets, h.outputFile]
    exact hasset

theorem done_of_buildEntry {name : String} {path : FilePath} {scene after : Scene π κ ω}
    {identity : Identity} (h : (buildEntry name path).start scene = (.ok identity, after)) :
    Identity.ofPath? scene.1.root path = some identity ∧ after.1.graph.visit identity = .done ∧
      ∀ other, scene.1.graph.visit other = .done → after.1.graph.visit other = .done := by
  obtain ⟨compiler, world⟩ := scene
  rw [start_buildEntry, Processing.start_build] at h
  obtain ⟨hanswer, rfl⟩ := Prod.mk.inj h
  obtain ⟨hname, hexplores⟩ := Build.explores_of_start (Prod.ext hanswer rfl)
  obtain ⟨hkept, hasked⟩ := hexplores.done
  obtain ⟨built, hbuilt, hvisit⟩ := hasked rfl path List.mem_cons_self
  obtain rfl : identity = built := Option.some.inj (hname.symm.trans hbuilt)
  exact ⟨hname, hvisit, fun other hother => hkept other hother⟩

theorem built_of_compile {entries : List (String × FilePath)} {scene after : Scene π κ ω}
    (hentries : scene.1.entryPaths = .ok entries)
    (h : (compile entries).start scene = (.ok (), after)) : Built after := by
  have hdone : (∀ entry ∈ entries, ∃ identity, Identity.ofPath? scene.1.root entry.2 = some identity ∧
      after.1.graph.visit identity = .done) ∧
      ∀ other, scene.1.graph.visit other = .done → after.1.graph.visit other = .done := by
    clear hentries
    induction entries generalizing scene with
    | nil =>
      cases h
      exact ⟨by simp, fun _ h => h⟩
    | cons entry rest ih =>
      obtain ⟨name, path⟩ := entry
      rw [start_compile_entry] at h
      have hroot := (graphOnly_buildEntry name path scene).compiler
      rcases hentry : (buildEntry name path).start scene with ⟨fault | identity, between⟩
      · rw [hentry] at h
        cases h
      · rw [hentry] at h hroot
        obtain ⟨hname, hvisit, hkept⟩ := done_of_buildEntry hentry
        obtain ⟨hrest, hlater⟩ := ih h
        have hsame : between.1.root = scene.1.root := by rw [hroot]
        rw [List.forall_mem_cons]
        refine ⟨⟨⟨identity, hname, hlater _ hvisit⟩, fun other hmem => ?_⟩,
          fun other hother => hlater _ (hkept _ hother)⟩
        rw [← hsame]
        exact hrest other hmem
  have hafter := (graphOnly_compile entries scene).compiler
  rw [h] at hafter
  refine ⟨entries, ?_, ?_⟩
  · rw [← hentries]
    exact entryPaths_eq (by rw [hafter]) (by rw [hafter])
  · have hroot : after.1.root = scene.1.root := by rw [hafter]
    rw [hroot]
    exact hdone.1

theorem stored_of_emit {press : Press} {scene after : Scene π κ ω} {text : String}
    (h : (emit press).start scene = (.ok text, after)) : Stored press after := by
  rcases hrender : (render press).start scene with ⟨failure | rendered, between⟩
  · rw [start_emit_of_render_error hrender] at h
    cases h
  · obtain ⟨template, hfill⟩ := exists_template_of_render hrender
    rcases start_emit_of_render hrender with ⟨failure, later, -, hemit⟩ | ⟨later, hwrite, hemit⟩
    · cases hemit.symm.trans h
    · cases hemit.symm.trans h
      obtain ⟨bytes, hencode, hwritten⟩ := start_writeTo_ok hwrite
      exact ⟨template, text, bytes, hfill, hencode, hwritten.read, Compiler.asset?_addAsset _ _⟩

/-! ### A run under watch -/

/-- So many phases went through, and something holds now. -/
def Reached (host : Host π κ ω) (count : Nat) (fact : Scene π κ ω → Prop)
    (state : List (Event π κ ω) × Scene π κ ω) : Prop :=
  fact state.2 ∧ ∃ rounds : List (Round π κ ω), state.1 = rounds.flatMap Round.events ∧
    rounds.map (·.phase) = Phase.all.take count ∧
    ∀ round ∈ rounds, round.Whole host ∧ Ready host.press round.opening round.phase

/-- Something failed, in a phase or between two of them. -/
def Stuck (host : Host π κ ω) (failure : Failure) (state : List (Event π κ ω) × Scene π κ ω) : Prop :=
  ∃ rounds : List (Round π κ ω),
    state.1 = rounds.flatMap Round.events ++ [⟨.failed failure, state.2⟩] ∧
    rounds.map (·.phase) <+: Phase.all ∧ (∀ round ∈ rounds.dropLast, round.Whole host) ∧
    ∀ round ∈ rounds, (round.Whole host ∨ round.Broken host failure) ∧ Ready host.press round.opening round.phase

theorem leads_watch {count : Nat} {fact : Scene π κ ω → Prop} {later : α → Scene π κ ω → Prop}
    {job : Job π κ ω α} (hjob : ∀ scene value after, fact scene →
      job.start scene = (.ok value, after) → later value after) :
    (watch job).Leads (Reached host count fact) (fun value => Reached host count (later value))
      (Stuck host) := by
  rintro ⟨events, scene⟩ ⟨hfact, rounds, hevents, hphases, hrounds⟩
  rw [start_watch]
  rcases hstart : job.start scene with ⟨failure | value, after⟩
  · refine ⟨rounds, by rw [← hevents]; rfl, hphases ▸ List.take_prefix _ _, fun round hmem => ?_,
      fun round hmem => ⟨.inl (hrounds round hmem).1, (hrounds round hmem).2⟩⟩
    exact (hrounds round (List.dropLast_subset _ hmem)).1
  · exact ⟨hjob scene value after hfact hstart, rounds, by simpa [failureEvents] using hevents, hphases,
      hrounds⟩

theorem leads_watchPhase (hhost : host.OnlyTaps) (count : Nat) (event : Phase)
    {arguments : List String} {fact : Scene π κ ω → Prop} (hcount : Phase.all[count]? = some event)
    (harguments : event.status = arguments) (hready : ∀ scene, fact scene → Ready host.press scene event)
    (hstable : ∀ scene later, TapsOnly scene later → fact scene → fact later) :
    (watchPhase host event arguments).Leads (Reached host count fact)
      (fun _ => Reached host (count + 1) fact) (Stuck host) := by
  rintro ⟨events, scene⟩ ⟨hfact, rounds, hevents, hphases, hrounds⟩
  obtain ⟨round, hphase, hopening, result, closing, hgoes, hstart⟩ :=
    start_watchPhase host event events scene
  have hrun := watches_watchPhase host event event.status events scene
  have htaps := keeps_phase_of (fun _ _ h => h) hhost event event.status scene
  rw [hstart] at hrun
  rw [← hrun] at htaps
  have hround : Ready host.press round.opening round.phase := by
    rw [hopening, hphase]
    exact hready scene hfact
  have hnow : (rounds ++ [round]).map (·.phase) = Phase.all.take (count + 1) := by
    rw [List.map_append, hphases, List.take_add_one, hcount, List.map_singleton, hphase]
    rfl
  have htold : events ++ round.events = (rounds ++ [round]).flatMap Round.events := by
    have hbefore : events = rounds.flatMap Round.events := hevents
    rw [List.flatMap_append, List.flatMap_singleton, hbefore]
  rw [← harguments, hstart]
  rcases result with failure | ⟨⟩
  · refine ⟨rounds ++ [round], by rw [← htold]; rfl, hnow ▸ List.take_prefix _ _, ?_, ?_⟩
    · rw [List.dropLast_concat]
      exact fun round hmem => (hrounds round hmem).1
    · rw [List.forall_mem_append, List.forall_mem_singleton]
      exact ⟨fun round hmem => ⟨.inl (hrounds round hmem).1, (hrounds round hmem).2⟩,
        .inr hgoes.broken, hround⟩
  · refine ⟨hstable scene closing htaps hfact, rounds ++ [round], by rw [← htold]; simp [failureEvents],
      hnow, ?_⟩
    rw [List.forall_mem_append, List.forall_mem_singleton]
    exact ⟨hrounds, hgoes.whole, hround⟩

theorem leads_tell {count : Nat} {fact : Scene π κ ω → Prop} (level : Level)
    (message : Compiler π κ ω → String)
    (hstable : ∀ scene later, TapsOnly scene later → fact scene → fact later) :
    (watch (do outside (World.log level (message (← compiler))))).Leads (Reached host count fact)
      (fun _ => Reached host count fact) (Stuck host) := by
  refine leads_watch fun scene value after hfact hstart => hstable scene after ?_ hfact
  have hlog : (do outside (World.log level (message (← compiler))) : Job π κ ω Unit).Keeps TapsOnly := by
    refine (Attempt.keeps_look _).bind fun compiler state => ?_
    exact ⟨rfl, rfl, rfl, rfl, rfl, rfl, rfl, fun _ => List.prefix_refl _,
      World.sameFiles_log _ _ state.2⟩
  exact hlog.of_start hstart

/-- A run goes through all phases, or something fails. -/
theorem leads_watchRun (hhost : host.OnlyTaps) :
    (watchRun host).Leads (Reached host 0 fun _ => True) (fun _ => Reached host 8 (Stored host.press))
      (Stuck host) := by
  have hresolve : (watch resolveEntries).Leads (Reached host 2 fun _ => True)
      (fun entries => Reached host 2 fun scene => scene.1.entryPaths = .ok entries) (Stuck host) := by
    refine leads_watch fun scene entries after _ hstart => ?_
    rw [start_resolveEntries] at hstart
    obtain ⟨hentries, rfl⟩ := Prod.mk.inj hstart
    exact hentries
  have hcompile : ∀ entries, (watch (compile entries)).Leads
      (Reached host 4 fun scene => scene.1.entryPaths = .ok entries) (fun _ => Reached host 4 Built)
      (Stuck host) :=
    fun entries => leads_watch fun scene _ after => built_of_compile
  have hemit : (discard (watch (emit host.press))).Leads (Reached host 6 Built) (fun _ => Reached host 6 (Stored host.press))
      (Stuck host) := (leads_watch fun _ _ _ _ => stored_of_emit).discard
  have hresult : (watch compiler).Leads (Reached host 8 (Stored host.press)) (fun _ => Reached host 8 (Stored host.press))
      (Stuck host) := leads_watch fun scene _ after hstored hstart => by
    cases hstart
    exact hstored
  have hbuilt : ∀ scene later : Scene π κ ω, TapsOnly scene later → Built scene → Built later :=
    fun _ _ => built_of_tapsOnly
  have hstored : ∀ scene later : Scene π κ ω, TapsOnly scene later → Stored host.press scene → Stored host.press later :=
    fun _ _ => stored_of_tapsOnly
  rw [watchRun, runBy]
  refine .bind (leads_watchPhase hhost 0 .run rfl rfl (fun _ h => h) fun _ _ _ h => h) fun _ => ?_
  refine .bind (leads_watchPhase hhost 1 .beforeEntryOptions rfl rfl (fun _ h => h) fun _ _ _ h => h)
    fun _ => ?_
  refine hresolve.bind fun entries => ?_
  have hpaths : ∀ scene later : Scene π κ ω, TapsOnly scene later →
      scene.1.entryPaths = .ok entries → later.1.entryPaths = .ok entries :=
    fun scene later h hentries => (entryPaths_of_tapsOnly h).trans hentries
  refine .bind (leads_watchPhase hhost 2 .afterEntryOptions rfl rfl (fun _ _ => trivial) hpaths)
    fun _ => ?_
  refine .bind (leads_watchPhase hhost 3 .beforeCompile rfl rfl (fun _ _ => trivial) hpaths) fun _ => ?_
  refine (hcompile entries).bind fun _ => ?_
  refine .bind (leads_watchPhase hhost 4 .afterCompile rfl rfl (fun _ h => h) hbuilt) fun _ => ?_
  refine (leads_tell _ _ hbuilt).bind fun _ => ?_
  refine .bind (leads_watchPhase hhost 5 .beforeEmitFile rfl rfl (fun _ _ => trivial) hbuilt) fun _ => ?_
  refine hemit.bind fun _ => ?_
  refine .bind (leads_watchPhase hhost 6 .afterEmitFile rfl rfl (fun _ h => h) hstored) fun _ => ?_
  refine (leads_tell _ _ hstored).bind fun _ => ?_
  refine .bind (leads_watchPhase hhost 7 .done rfl rfl (fun _ h => h) hstored) fun _ => ?_
  exact hresult.bind fun _ state h => h

/-! ### The law -/

/-- From a scene on, callbacks are only added, each behind those of its phase that were there, and a
consistent registry stays consistent. -/
structure Onward (scene later : Scene π κ ω) : Prop where
  taps : ∀ phase, (scene.1.hooks phase).taps <+: (later.1.hooks phase).taps
  registry : scene.1.graph.Consistent → later.1.graph.Consistent

instance : Std.Refl (Onward (π := π) (κ := κ) (ω := ω)) :=
  ⟨fun _ => ⟨fun _ => List.prefix_refl _, id⟩⟩

instance : IsTrans (Scene π κ ω) Onward :=
  ⟨fun _ _ _ h h' => ⟨fun phase => (h.taps phase).trans (h'.taps phase), h'.registry ∘ h.registry⟩⟩

/-- The rounds of a run from a scene, and what holds of them. -/
structure Lifecycle (host : Host π κ ω) (scene : Scene π κ ω) (rounds : List (Round π κ ω)) :
    Prop where
  /-- Watching a run changes nothing. -/
  watched : ((watchRun host).start ([], scene)).1 = ((run host).start scene).1 ∧
    ((watchRun host).start ([], scene)).2.2 = ((run host).start scene).2
  /-- What happens is what happens in the rounds. Where the run fails, its failure is the last event. -/
  events : events host scene = rounds.flatMap Round.events ++ failureEvents ((run host).start scene)
  /-- The phases come in the declared order, without a gap. -/
  phases : rounds.map (·.phase) <+: Phase.all
  /-- Only the last round can be broken off, and then by the failure of the run. -/
  whole : ∀ round ∈ rounds.dropLast, round.Whole host
  last : ∀ round ∈ rounds, round.Whole host ∨
    ∃ failure, ((run host).start scene).1 = .error failure ∧ round.Broken host failure
  /-- A run that does not fail has all phases, and calls all their callbacks. -/
  finished : ∀ result, ((run host).start scene).1 = .ok result →
    rounds.map (·.phase) = Phase.all ∧ ∀ round ∈ rounds, round.Whole host
  /-- What a callback adds is there in all later scenes. -/
  onward : (Job.events host scene).Pairwise fun earlier event =>
    Onward (earlier.left host) event.scene
  consistent : scene.1.graph.Consistent → ∀ event ∈ Job.events host scene, event.scene.1.graph.Consistent
  /-- The entries are built when that is told, and the bundle is written. -/
  ready : ∀ round ∈ rounds, Ready host.press round.opening round.phase

theorem onward_of_tapsOnly {scene later : Scene π κ ω} (h : TapsOnly scene later) :
    Onward scene later :=
  ⟨h.taps, fun hconsistent => h.graph ▸ hconsistent⟩

theorem onward_of_same {scene later : Scene π κ ω} (h : later.1 = scene.1) : Onward scene later := by
  refine ⟨fun phase => ?_, fun hconsistent => h ▸ hconsistent⟩
  have htaps : (later.1.hooks phase).taps = (scene.1.hooks phase).taps := by rw [h]
  exact htaps ▸ List.prefix_refl _

theorem onward_compile (entries : List (String × FilePath)) :
    (compile entries : Job π κ ω Unit).Keeps Onward := by
  refine Attempt.keeps_forM fun entry _ scene => ?_
  obtain ⟨compiler, world⟩ := scene
  rw [Attempt.start_discard, start_buildEntry, Processing.start_build]
  refine ⟨fun _ => List.prefix_refl _, fun hconsistent => ?_⟩
  exact (Build.consistent_start Processing.namesModules_surroundings hconsistent _ _ _ _).1

theorem onward_emit (press : Press) : (emit press : Job π κ ω String).Keeps Onward := by
  intro scene
  have hcompiler := render_compiler press scene
  rcases hrender : (render press).start scene with ⟨failure | text, rendered⟩
  · rw [hrender] at hcompiler
    rw [start_emit_of_render_error hrender]
    exact onward_of_same hcompiler
  · rcases start_emit_of_render hrender with ⟨failure, later, -, hemit⟩ | ⟨later, -, hemit⟩
    · rw [hemit]
      exact onward_of_same rfl
    · rw [hemit]
      exact ⟨fun _ => List.prefix_refl _, id⟩

/-- For callbacks that add callbacks, remember things or fail: a run calls the callbacks of one phase
after the other, as each phase has them when it begins, up to the first failure. -/
theorem lifecycle_of_run (hhost : host.OnlyTaps) (scene : Scene π κ ω) :
    ∃ rounds, Lifecycle host scene rounds := by
  have hperform : ∀ callback arguments, (perform host callback arguments).Keeps Onward :=
    keeps_perform (fun _ _ => onward_of_tapsOnly)
      fun callback arguments => (hhost callback arguments).mono fun _ _ => onward_of_tapsOnly
  obtain ⟨honward, hafter⟩ :=
    ordered_events hperform (fun _ _ => onward_of_same) onward_compile (onward_emit host.press) scene
  have hconsistent : scene.1.graph.Consistent →
      ∀ event ∈ events host scene, event.scene.1.graph.Consistent :=
    fun h event hevent => (hafter event hevent).registry h
  have hwatch := watches_watchRun host [] scene
  have hleads := leads_watchRun hhost ([], scene) ⟨trivial, [], rfl, rfl, by simp⟩
  have hrecord : events host scene = ((watchRun host).start ([], scene)).2.1 := rfl
  rcases hstart : (watchRun host).start ([], scene) with ⟨failure | result, record, after⟩
  · rw [hstart] at hwatch hleads hrecord
    obtain ⟨rounds, hevents, hphases, hwhole, hrounds⟩ := hleads
    refine ⟨rounds, ?_, ?_, hphases, hwhole, fun round hmem => ?_, ?_, honward, hconsistent,
      fun round hmem => (hrounds round hmem).2⟩
    · rw [hstart, ← hwatch]
      exact ⟨rfl, rfl⟩
    · rw [hrecord, ← hwatch]
      exact hevents
    · rw [← hwatch]
      exact (hrounds round hmem).1.imp_right fun hbroken => ⟨failure, rfl, hbroken⟩
    · rw [← hwatch]
      exact nofun
  · rw [hstart] at hwatch hleads hrecord
    obtain ⟨-, rounds, hevents, hphases, hrounds⟩ := hleads
    refine ⟨rounds, ?_, ?_, hphases ▸ List.prefix_refl _, fun round hmem => ?_, fun round hmem => ?_,
      fun _ _ => ⟨hphases, fun round hmem => (hrounds round hmem).1⟩, honward, hconsistent,
      fun round hmem => (hrounds round hmem).2⟩
    · rw [hstart, ← hwatch]
      exact ⟨rfl, rfl⟩
    · rw [hrecord, ← hwatch, failureEvents, List.append_nil]
      exact hevents
    · exact (hrounds round (List.dropLast_subset _ hmem)).1
    · exact .inl (hrounds round hmem).1

def Event.callback? (event : Event π κ ω) : Option (Callback κ) :=
  match event.incident with
  | .called callback _ => some callback
  | .opened _ | .failed _ => none

/-- A host with a callback that adds another one to its own phase and to a later one. -/
def tappingHost : Host Unit Bool Unit where
  library := []
  shown _ := ""
  install _ := pure ()
  perform first _ :=
    if first then do
      tap .run "again" (.foreign false)
      tap .afterCompile "later" (.foreign false)
    else pure ()

/-- A compiler for the world with a pair, with that callback. -/
def tappingCompiler : Compiler Unit Bool Unit where
  config := { entries := [("main", .ofString "main.py")], root := .root }
  root := .root
  naming := {}
  pipeline := []
  outputFile := .ofString "dist/bundle.py"
  hooks := Hooks.empty.tap .run "first" (.foreign true)

/-- The callback added to the phase under way is not called, the one added to a later phase is. -/
theorem lifecycle_of_run_tapping :
    ∃ rounds, Lifecycle tappingHost (tappingCompiler, Compiler.pairWorld) rounds ∧
      (events tappingHost (tappingCompiler, Compiler.pairWorld)).filterMap Event.callback?
        = [.foreign true, .foreign false] := by
  have hhost : tappingHost.OnlyTaps := by
    intro first arguments
    cases first with
    | false => exact Attempt.keeps_pure ()
    | true => exact (tapsOnly_tap _ _ _).bind fun _ => tapsOnly_tap _ _ _
  obtain ⟨rounds, hlife⟩ := lifecycle_of_run hhost (tappingCompiler, Compiler.pairWorld)
  exact ⟨rounds, hlife, by decide +kernel⟩

end Job
end Bundler
