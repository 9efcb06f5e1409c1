import Bundler.Proofs.Compiler.Frame
import Bundler.Proofs.Graph.Exploration
import Bundler.Proofs.Graph.Tally
import Bundler.Proofs.Processing.Calls

/-!
# The steps of the work on modules

A module's file is read, the rules transform what was read, and what they give is parsed. `watchCalls`
makes calls and keeps a record of these steps; apart from the record it leaves what the calls leave
(`watchCalls_eq`). Transforms may do anything with the memory and files may change from call to call, so
a second step would be seen in the result. There is none: whatever the calls, a module has the steps of
being processed one time, from one world (`once_steps`).
-/

namespace Bundler.Processing

variable {ω α : Type}

/-- A part of the work on a module. -/
inductive Stage
  | read
  | transform (raw : String)
  | parse (text : String)
  deriving DecidableEq, Repr

/-- A step of the work on a module, and the world in which it is taken. -/
structure Step (ω : Type) where
  identity : Identity
  path : FilePath
  stage : Stage
  world : World ω

/-- Something done in a world while a record of steps is kept. -/
abbrev Recorded (ω α : Type) := Attempt (List (Step ω) × World ω) Failure α

def noteStep (path : FilePath) (identity : Identity) (stage : Stage) : Recorded ω Unit :=
  Attempt.update fun (steps, world) => (steps ++ [⟨identity, path, stage, world⟩], world)

/-- Does something that is no step of its own. -/
def unrecorded (act : Act ω α) : Recorded ω α :=
  act.within (·.2) fun world state => (state.1, world)

/-- The code of a text and the modules it loads. -/
def retargeted (naming : Naming) (identity : Identity) (text : String) :
    Act ω (String × List Identity) := do
  let (code, dependencies) ← Attempt.ofExcept
    ((Load.retargetText naming identity.directory text).mapError (retargetFailure identity))
  World.log .debug (notice identity dependencies.length)
  return (code, dependencies)

variable (root : FilePath) (naming : Naming) (pipeline : Pipeline ω)

def watchProcess (path : FilePath) (identity : Identity) : Recorded ω (String × List Identity) := do
  noteStep path identity .read
  let raw ← unrecorded (World.files (Pipeline.readText · path))
  noteStep path identity (.transform raw)
  let text ← unrecorded (pipeline.transform path raw)
  noteStep path identity (.parse text)
  unrecorded (retargeted naming identity text)

/-- What a graph needs of a world, with a record of the steps. -/
def watchSurroundings : Surroundings (List (Step ω) × World ω) Failure where
  root
  isFile path := unrecorded ((surroundings root naming pipeline).isFile path)
  process := watchProcess naming pipeline
  fault := graphFailure

/-- What a call gives and what it leaves, with a record of the steps. -/
def Call.watch (call : Call ω) (state : Graph × List (Step ω) × World ω) :
    Except Failure Identity × (Graph × List (Step ω) × World ω) :=
  let world := call.change state.2.2
  Attempt.start
    (Build.start (watchSurroundings root naming pipeline) (world.tree.nodes.length + 2) call.entry
      call.path)
    (state.1, state.2.1, world)

/-- What calls leave that begin with an empty graph, with a record of the steps. -/
def watchCalls (world : World ω) (calls : List (Call ω)) : Graph × List (Step ω) × World ω :=
  calls.foldl (fun state call => (call.watch root naming pipeline state).2) ({}, [], world)

/-- The steps of the work on modules that calls take. -/
def stepsOfCalls (world : World ω) (calls : List (Call ω)) : List (Step ω) :=
  (watchCalls root naming pipeline world calls).2.1

/-- The steps of the work on one module. -/
def stepsOf (steps : List (Step ω)) (identity : Identity) : List (Step ω) :=
  steps.filter (·.identity = identity)

def course (path : FilePath) (identity : Identity) (world : World ω) : List (Step ω) :=
  ⟨identity, path, .read, world⟩ :: match Pipeline.readText world.tree path with
    | .error _ => []
    | .ok raw => ⟨identity, path, .transform raw, world⟩ ::
      match (pipeline.transform path raw).start world with
      | (.error _, _) => []
      | (.ok text, after) => [⟨identity, path, .parse text, after⟩]

variable {root naming pipeline}

/-! ### Keeping a record changes nothing -/

theorem process_eq (path : FilePath) (identity : Identity) :
    process naming pipeline path identity = (do
      let raw ← World.files (Pipeline.readText · path)
      let text ← pipeline.transform path raw
      retargeted naming identity text) := by
  simp only [process, Pipeline.load, retargeted, bind_assoc]

theorem start_watchProcess (path : FilePath) (identity : Identity) (steps : List (Step ω))
    (world : World ω) :
    (watchProcess naming pipeline path identity).start (steps, world)
      = (((process naming pipeline path identity).start world).1,
          (steps ++ course pipeline path identity world,
            ((process naming pipeline path identity).start world).2)) := by
  rw [process_eq]
  simp only [watchProcess, noteStep, unrecorded, World.files, course, Attempt.start_bind,
    Attempt.start_update, Attempt.andThen_ok, Attempt.start_within, Attempt.start_look]
  cases Pipeline.readText world.tree path with
  | error fault => rfl
  | ok raw =>
    simp only [Attempt.andThen_ok, Attempt.start_bind, Attempt.start_update, Attempt.start_within]
    rcases (pipeline.transform path raw).start world with ⟨fault | text, after⟩
    · simp
    · simp only [Attempt.andThen_ok, Attempt.start_bind, Attempt.start_update, Attempt.start_within,
        List.append_assoc, List.cons_append, List.nil_append]

theorem projects_watchSurroundings :
    (watchSurroundings root naming pipeline).Projects Prod.snd (surroundings root naming pipeline) where
  root := rfl
  fault := rfl
  isFile _ _ := rfl
  process path identity := by
    rintro ⟨steps, world⟩
    rw [watchSurroundings, start_watchProcess]
    rfl

theorem Call.watch_eq (call : Call ω) (state : Graph × List (Step ω) × World ω) :
    ((call.watch root naming pipeline state).1,
        (call.watch root naming pipeline state).2.1, (call.watch root naming pipeline state).2.2.2)
      = call.start root naming pipeline (state.1, state.2.2) := by
  rw [Call.start, start_build]
  exact Build.projects_start projects_watchSurroundings _ call.entry call.path
    (state.1, state.2.1, call.change state.2.2)

theorem watchCalls_append (world : World ω) (calls : List (Call ω)) (call : Call ω) :
    watchCalls root naming pipeline world (calls ++ [call])
      = (call.watch root naming pipeline (watchCalls root naming pipeline world calls)).2 := by
  rw [watchCalls, List.foldl_append]
  rfl

theorem watchCalls_eq (world : World ω) (calls : List (Call ω)) :
    ((watchCalls root naming pipeline world calls).1, (watchCalls root naming pipeline world calls).2.2)
      = afterCalls root naming pipeline world calls := by
  induction calls using List.reverseRecOn with
  | nil => rfl
  | append_singleton calls call ih =>
    rw [watchCalls_append, afterCalls_append, ← ih]
    exact congrArg Prod.snd (call.watch_eq _)

/-! ### The steps of a module -/

/-- The steps of a module that is processed: those that it has to take for its code to be known. -/
def allSteps (path : FilePath) (identity : Identity) (raw text : String) (read parsed : World ω) :
    List (Step ω) :=
  [⟨identity, path, .read, read⟩, ⟨identity, path, .transform raw, read⟩,
    ⟨identity, path, .parse text, parsed⟩]

theorem course_prefix (pipeline : Pipeline ω) (path : FilePath) (identity : Identity) (world : World ω) :
    ∃ raw text parsed,
      course pipeline path identity world <+: allSteps path identity raw text world parsed := by
  rw [course]
  cases Pipeline.readText world.tree path with
  | error fault => exact ⟨"", "", world, _, rfl⟩
  | ok raw =>
    rcases hstart : (pipeline.transform path raw).start world with ⟨fault | text, after⟩
    · exact ⟨raw, "", world, _, by simp only [hstart]; rfl⟩
    · exact ⟨raw, text, after, [], by simp only [hstart]; rfl⟩

theorem identity_of_course {path : FilePath} {identity : Identity} {world : World ω} {step : Step ω}
    (h : step ∈ course pipeline path identity world) : step.identity = identity := by
  obtain ⟨raw, text, parsed, hprefix⟩ := course_prefix pipeline path identity world
  have hmem := hprefix.subset h
  simp only [allSteps, List.mem_cons, List.not_mem_nil, or_false] at hmem
  rcases hmem with rfl | rfl | rfl <;> rfl

theorem eq_of_retargeted {identity : Identity} {text code : String} {dependencies : List Identity}
    {world after : World ω}
    (h : (retargeted naming identity text).start world = (.ok (code, dependencies), after)) :
    Load.retargetText naming identity.directory text = .ok (code, dependencies) := by
  obtain ⟨⟨code', dependencies'⟩, between, hretarget, hlog⟩ := Attempt.start_bind_eq_ok_iff.1 h
  obtain ⟨⟨⟩, logged, -, hreturn⟩ := Attempt.start_bind_eq_ok_iff.1 hlog
  cases hreturn
  cases hresult : Load.retargetText naming identity.directory text with
  | error fault =>
    rw [hresult] at hretarget
    cases hretarget
  | ok answer =>
    rw [hresult] at hretarget
    cases hretarget
    rfl

/-- A module whose code is known took all steps, and its code comes from the text that these gave. -/
theorem course_of_process {path : FilePath} {identity : Identity} {world : World ω} {code : String}
    {dependencies : List Identity}
    (h : ((process naming pipeline path identity).start world).1 = .ok (code, dependencies)) :
    ∃ raw text parsed,
      course pipeline path identity world = allSteps path identity raw text world parsed ∧
      Pipeline.readText world.tree path = .ok raw ∧
      (pipeline.transform path raw).start world = (.ok text, parsed) ∧
      Load.retargetText naming identity.directory text = .ok (code, dependencies) := by
  rw [process_eq] at h
  obtain ⟨raw, read, hread, h⟩ := Attempt.start_bind_eq_ok_iff.1 (Prod.ext h rfl)
  obtain ⟨hraw, rfl⟩ := Prod.mk.inj hread
  obtain ⟨text, parsed, htransform, hretarget⟩ := Attempt.start_bind_eq_ok_iff.1 h
  refine ⟨raw, text, parsed, ?_, hraw, htransform, eq_of_retargeted hretarget⟩
  simp only [course, hraw, htransform, allSteps]

/-- The steps come from processing the module in some world, with this result. -/
def Leads (naming : Naming) (pipeline : Pipeline ω) (path : FilePath) (identity : Identity)
    (steps : List (Step ω)) (result : Except Failure (String × List Identity)) : Prop :=
  ∃ world, steps = course pipeline path identity world ∧
    ((process naming pipeline path identity).start world).1 = result

theorem stepsOf_append (steps new : List (Step ω)) (identity : Identity) :
    stepsOf (steps ++ new) identity = stepsOf steps identity ++ stepsOf new identity :=
  List.filter_append ..

theorem tallies_watchSurroundings :
    (watchSurroundings root naming pipeline).Tallies (fun state => stepsOf state.1)
      (Leads naming pipeline) where
  isFile _ _ := rfl
  others path identity state other hother := by
    obtain ⟨steps, world⟩ := state
    have hnone : stepsOf (course pipeline path identity world) other = [] := by
      refine List.filter_eq_nil_iff.2 fun step hstep => ?_
      simpa [identity_of_course hstep] using Ne.symm hother
    simp only [watchSurroundings, start_watchProcess, stepsOf_append, hnone, List.append_nil]
  process path identity state hstate := by
    obtain ⟨steps, world⟩ := state
    have hall : stepsOf (course pipeline path identity world) identity
        = course pipeline path identity world := by
      refine List.filter_eq_self.2 fun step hstep => ?_
      simpa using identity_of_course hstep
    refine ⟨world, ?_, ?_⟩
    · simp only [watchSurroundings, start_watchProcess, stepsOf_append, hall]
      rw [hstate, List.nil_append]
    · simp only [watchSurroundings, start_watchProcess]

/-! ### The steps of calls -/

def Goes (state later : List (Step ω) × World ω) : Prop := state.1 <+: later.1

instance : Std.Refl (Goes (ω := ω)) := ⟨fun _ => List.prefix_refl _⟩

instance : IsTrans (List (Step ω) × World ω) Goes := ⟨fun _ _ _ => List.IsPrefix.trans⟩

theorem goes_watchSurroundings : (watchSurroundings root naming pipeline).Keeps Goes where
  isFile _ state := List.prefix_refl state.1
  process path identity := by
    rintro ⟨steps, world⟩
    rw [watchSurroundings, start_watchProcess]
    exact List.prefix_append _ _

theorem namesModules_watchSurroundings : (watchSurroundings root naming pipeline).NamesModules := by
  rintro path identity ⟨steps, world⟩ code dependencies after hname hprocess
  rw [watchSurroundings, start_watchProcess] at hprocess
  have hresult : ((process naming pipeline path identity).start world).1 = .ok (code, dependencies) :=
    congrArg Prod.fst hprocess
  have hnames : (surroundings root naming pipeline).NamesModules := namesModules_surroundings
  exact hnames path identity world code dependencies _ hname (Prod.ext hresult rfl)

/-- A call under watch keeps the tally, and adds steps of modules alone that were not visited. -/
theorem Call.tallied_watch (call : Call ω) {state : Graph × List (Step ω) × World ω}
    (hgraph : state.1.Consistent) (hstate : state.1.Tallied (stepsOf state.2.1) (Leads naming pipeline)) :
    (call.watch root naming pipeline state).2.1.Tallied
        (stepsOf (call.watch root naming pipeline state).2.2.1) (Leads naming pipeline) ∧
      ∃ new, (call.watch root naming pipeline state).2.2.1 = state.2.1 ++ new ∧
        ∀ step ∈ new, state.1.visit step.identity = .unvisited := by
  obtain ⟨graph, steps, world⟩ := state
  have htallies : (watchSurroundings root naming pipeline).Tallies (fun state => stepsOf state.1)
      (Leads naming pipeline) := tallies_watchSurroundings
  obtain ⟨htallied, huntouched⟩ := Build.tallied_start htallies namesModules_watchSurroundings
    hgraph (steps, call.change world) hstate ((call.change world).tree.nodes.length + 2) call.entry
    call.path
  obtain ⟨new, hnew⟩ : steps <+: (call.watch root naming pipeline (graph, steps, world)).2.2.1 :=
    Build.keeps_start goes_watchSurroundings _ call.entry call.path (graph, steps, call.change world)
  refine ⟨htallied, new, hnew.symm, fun step hstep => ?_⟩
  by_contra hvisited
  have hsame : stepsOf (call.watch root naming pipeline (graph, steps, world)).2.2.1 step.identity
      = stepsOf steps step.identity := (huntouched step.identity hvisited).2
  rw [← hnew, stepsOf_append, List.append_right_eq_self, stepsOf, List.filter_eq_nil_iff] at hsame
  exact hsame step hstep (by simp)

theorem tallied_watchCalls (world : World ω) (calls : List (Call ω)) :
    (watchCalls root naming pipeline world calls).1.Tallied
      (stepsOf (stepsOfCalls root naming pipeline world calls)) (Leads naming pipeline) := by
  induction calls using List.reverseRecOn with
  | nil => exact .empty
  | append_singleton calls call ih =>
    have hconsistent : (watchCalls root naming pipeline world calls).1.Consistent := by
      rw [congrArg Prod.fst (watchCalls_eq world calls)]
      exact (consistent_afterCalls world calls).1
    rw [stepsOfCalls, watchCalls_append]
    exact (call.tallied_watch hconsistent ih).1

theorem stepsOf_watchCalls (world : World ω) (calls : List (Call ω)) (identity : Identity) :
    ∃ path raw text read parsed, stepsOf (stepsOfCalls root naming pipeline world calls) identity
      <+: allSteps path identity raw text read parsed := by
  have htallied : (watchCalls root naming pipeline world calls).1.Tallied
      (stepsOf (stepsOfCalls root naming pipeline world calls)) (Leads naming pipeline) :=
    tallied_watchCalls world calls
  by_cases hvisit : (watchCalls root naming pipeline world calls).1.visit identity = .unvisited
  · rw [htallied.unvisited identity hvisit]
    exact ⟨root, "", "", world, world, List.nil_prefix⟩
  · obtain ⟨path, -, read, hsteps, -⟩ := htallied.visited identity hvisit
    obtain ⟨raw, text, parsed, hprefix⟩ := course_prefix pipeline path identity read
    exact ⟨path, raw, text, read, parsed, hsteps ▸ hprefix⟩

/-- Whatever calls are made, every module is read, transformed and parsed at most one time, in this
order. One that is recorded took each of these steps, and its code comes from the text that they gave.
Another call takes steps for modules alone that were not visited before. Keeping a record of the steps
changes nothing of what the calls leave. -/
theorem once_steps (root : FilePath) (naming : Naming) (pipeline : Pipeline ω) (world : World ω)
    (calls : List (Call ω)) :
    ((watchCalls root naming pipeline world calls).1, (watchCalls root naming pipeline world calls).2.2)
        = afterCalls root naming pipeline world calls ∧
      (∀ identity, ∃ path raw text read parsed,
        stepsOf (stepsOfCalls root naming pipeline world calls) identity
          <+: allSteps path identity raw text read parsed) ∧
      (∀ entry ∈ (afterCalls root naming pipeline world calls).1.modules, ∃ raw text read parsed,
        stepsOf (stepsOfCalls root naming pipeline world calls) entry.1
            = allSteps entry.2.path entry.1 raw text read parsed ∧
          Pipeline.readText read.tree entry.2.path = .ok raw ∧
          (pipeline.transform entry.2.path raw).start read = (.ok text, parsed) ∧
          Load.retargetText naming entry.1.directory text
            = .ok (entry.2.code, entry.2.dependencies)) ∧
      ∀ call, ∃ new, stepsOfCalls root naming pipeline world (calls ++ [call])
          = stepsOfCalls root naming pipeline world calls ++ new ∧
        ∀ step ∈ new,
          (afterCalls root naming pipeline world calls).1.visit step.identity = .unvisited := by
  have hgraph : (watchCalls root naming pipeline world calls).1
      = (afterCalls root naming pipeline world calls).1 := congrArg Prod.fst (watchCalls_eq world calls)
  have htallied : (watchCalls root naming pipeline world calls).1.Tallied
      (stepsOf (stepsOfCalls root naming pipeline world calls)) (Leads naming pipeline) :=
    tallied_watchCalls world calls
  rw [← hgraph]
  refine ⟨watchCalls_eq world calls, stepsOf_watchCalls world calls, fun entry hentry => ?_,
    fun call => ?_⟩
  · obtain ⟨read, hsteps, hresult⟩ := htallied.recorded entry hentry
    obtain ⟨raw, text, parsed, hcourse, hraw, htext, hcode⟩ := course_of_process hresult
    exact ⟨raw, text, read, parsed, hsteps.trans hcourse, hraw, htext, hcode⟩
  · rw [stepsOfCalls, watchCalls_append]
    refine (call.tallied_watch ?_ htallied).2
    rw [hgraph]
    exact (consistent_afterCalls world calls).1

end Bundler.Processing
