import Bundler.Processing
import Bundler.Proofs.Files.Places
import Bundler.Proofs.Graph.Reachability
import Bundler.Proofs.Load.Targets

/-!
# Processing changes nothing

Where all transforms are functions and no debug message is rendered, processing a module leaves the
world as it is (`steady_surroundings`), and what it gives is what loading the file and retargeting the
text give (`outcome_surroundings`). The modules it loads lie below the root, so there are never more
modules in progress than the tree has nodes.
-/

namespace Bundler

variable {ω : Type}

/-- Different modules below the root that are files are no more than the nodes of the tree. -/
theorem FileTree.length_le_of_isFile_path {tree : FileTree} {root : FilePath}
    {identities : List Identity} (hnodup : identities.Nodup)
    (hbelow : ∀ identity ∈ identities, ∃ parts, identity = .ofParts parts ∧ Component.parent ∉ parts)
    (hfile : ∀ identity ∈ identities, tree.isFile (identity.path root) = .ok true) :
    identities.length ≤ tree.nodes.length := by
  choose! parts hparts using hbelow
  have hinjective : (identities.map parts).Nodup := by
    refine hnodup.map_on fun left hleft right hright heq => ?_
    rw [(hparts left hleft).1, (hparts right hright).1, heq]
  have hfiles : ∀ steps ∈ identities.map parts, Component.parent ∉ steps
      ∧ tree.isFile ⟨root.anchor, root.parts ++ steps⟩ = .ok true := by
    intro steps hsteps
    obtain ⟨identity, hmem, rfl⟩ := List.mem_map.1 hsteps
    obtain ⟨hidentity, hdown⟩ := hparts identity hmem
    refine ⟨hdown, ?_⟩
    rw [← Identity.path_ofParts, ← hidentity]
    exact hfile identity hmem
  have hle := FileTree.length_le_of_isFile hinjective hfiles
  simpa using hle

/-! ### Attempts that change nothing -/

theorem Attempt.unchanged_bind {σ ε α β : Type} {attempt : Attempt σ ε α} {next : α → Attempt σ ε β}
    {state : σ} (hfirst : (attempt.start state).2 = state)
    (hnext : ∀ value, ((next value).start state).2 = state) :
    ((attempt >>= next).start state).2 = state := by
  rw [start_bind]
  rcases hstart : attempt.start state with ⟨_ | value, after⟩
  · rw [hstart] at hfirst
    exact hfirst
  · rw [hstart] at hfirst
    obtain rfl : after = state := hfirst
    exact hnext value

theorem World.start_log {world : World ω} {level : Level} {message : String}
    (hquiet : level.number < world.console.threshold) :
    (World.log level message).start world = (.ok (), world) := by
  have hreceivers : world.console.receivers level.number = [] := by
    rw [Console.receivers, if_neg (by omega)]
  simp only [Attempt.start, World.log, Console.log, hreceivers, Console.deliver]

/-- The transform is a function of the text. -/
def Transform.Pure (transform : Transform ω) : Prop :=
  ∃ f : String → Except Raised Outcome, ∀ text, transform.run text = Attempt.ofExcept (f text)

theorem Transform.unchanged_apply {transform : Transform ω} (hpure : transform.Pure) (text : String)
    (memory : ω) : ((transform.apply text).start memory).2 = memory := by
  obtain ⟨f, hf⟩ := hpure
  refine Attempt.unchanged_bind (by rw [hf, Attempt.start_ofExcept]) fun outcome => ?_
  cases outcome <;> rfl

theorem unchanged_applyChain {chain : List (Transform ω)} (hpure : ∀ transform ∈ chain, transform.Pure)
    (text : String) (memory : ω) : ((applyChain chain text).start memory).2 = memory := by
  induction chain with
  | nil => rfl
  | cons transform rest ih =>
    rw [List.forall_mem_cons] at hpure
    exact Attempt.unchanged_bind (ih hpure.2) fun value => transform.unchanged_apply hpure.1 value memory

namespace Pipeline

def Pure (pipeline : Pipeline ω) : Prop := ∀ rule ∈ pipeline, ∀ transform ∈ rule.use, transform.Pure

variable {pipeline : Pipeline ω} {world : World ω}

theorem unchanged_applyRule {rule : Rule (Transform ω)}
    (hpure : ∀ transform ∈ rule.use, transform.Pure) (path : FilePath) (text : String) :
    ((applyRule path rule text).start world).2 = world := by
  simp only [applyRule, World.withMemory, Attempt.start_mapFault, Attempt.start_within,
    unchanged_applyChain hpure]

theorem unchanged_transform (hpure : pipeline.Pure)
    (hquiet : Level.debug.number < world.console.threshold) (path : FilePath) (text : String) :
    ((pipeline.transform path text).start world).2 = world := by
  induction pipeline generalizing text with
  | nil => rfl
  | cons rule rest ih =>
    rw [Pure, List.forall_mem_cons] at hpure
    rw [transform]
    split
    · refine Attempt.unchanged_bind (by rw [World.start_log hquiet]) fun _ => ?_
      exact Attempt.unchanged_bind (unchanged_applyRule hpure.1 path text) (ih hpure.2)
    · exact ih hpure.2 text

theorem unchanged_load (hpure : pipeline.Pure)
    (hquiet : Level.debug.number < world.console.threshold) (path : FilePath) :
    ((pipeline.load path).start world).2 = world :=
  Attempt.unchanged_bind rfl (unchanged_transform hpure hquiet path)

end Pipeline

namespace Processing

variable {root : FilePath} {naming : Naming} {pipeline : Pipeline ω} {world : World ω}

/-- The code of a module and the modules it loads, when its file alone is processed. -/
def alone (root : FilePath) (naming : Naming) (pipeline : Pipeline ω) (world : World ω)
    (identity : Identity) : Except Failure (String × List Identity) := do
  let text ← ((pipeline.load (identity.path root)).start world).1
  (Load.retargetText naming identity.directory text).mapError (retargetFailure identity)

/-- What a module alone gives comes from retargeting a text in the module's directory. -/
theorem exists_text_of_alone {identity : Identity} {code : String} {dependencies : List Identity}
    (h : alone root naming pipeline world identity = .ok (code, dependencies)) :
    ∃ text, Load.retargetText naming identity.directory text = .ok (code, dependencies) := by
  rw [alone] at h
  cases hload : ((pipeline.load (identity.path root)).start world).1 with
  | error fault =>
    rw [hload] at h
    cases h
  | ok text =>
    rw [hload] at h
    refine ⟨text, ?_⟩
    cases hretarget : Load.retargetText naming identity.directory text with
    | error fault =>
      simp only [bind, Except.bind, hretarget] at h
      cases h
    | ok answer =>
      simp only [bind, Except.bind, hretarget] at h
      cases h
      rfl

theorem start_process (hpure : pipeline.Pure) (hquiet : Level.debug.number < world.console.threshold)
    (path : FilePath) (identity : Identity) :
    (process naming pipeline path identity).start world
      = (((pipeline.load path).start world).1 >>= fun text =>
          (Load.retargetText naming identity.directory text).mapError (retargetFailure identity),
        world) := by
  have hload := Pipeline.unchanged_load hpure hquiet path
  rw [process, Attempt.start_bind]
  rcases hstart : (pipeline.load path).start world with ⟨fault | text, after⟩
  · rw [hstart] at hload
    obtain rfl : after = world := hload
    rfl
  · rw [hstart] at hload
    obtain rfl : after = world := hload
    rw [Attempt.andThen_ok, Attempt.start_bind, Attempt.start_ofExcept]
    simp only [bind, Except.bind]
    cases (Load.retargetText naming identity.directory text).mapError (retargetFailure identity) with
    | error fault => rfl
    | ok answer =>
      rw [Attempt.andThen_ok]
      change Attempt.start (_ >>= _) after = _
      rw [Attempt.start_bind, World.start_log hquiet]
      rfl

theorem start_build (graph : Graph) (entry : Option String) (path : FilePath) :
    Attempt.start (build root naming pipeline entry path) (graph, world)
      = Attempt.start (Build.start (surroundings root naming pipeline) (world.tree.nodes.length + 2)
          entry path) (graph, world) := by
  simp only [build, Attempt.start]

/-- What processing gives comes from retargeting a text in the module's directory. -/
theorem exists_text_of_process {path : FilePath} {identity : Identity} {before after : World ω}
    {code : String} {dependencies : List Identity}
    (h : (process naming pipeline path identity).start before = (.ok (code, dependencies), after)) :
    ∃ text, Load.retargetText naming identity.directory text = .ok (code, dependencies) := by
  rw [process, Attempt.start_bind] at h
  rcases hload : (pipeline.load path).start before with ⟨fault | text, loaded⟩
  · rw [hload] at h
    cases h
  rw [hload, Attempt.andThen_ok, Attempt.start_bind, Attempt.start_ofExcept] at h
  refine ⟨text, ?_⟩
  cases hretarget : Load.retargetText naming identity.directory text with
  | error fault =>
    rw [hretarget] at h
    cases h
  | ok answer =>
    rw [hretarget] at h
    simp only [Except.mapError, Attempt.andThen_ok, Attempt.start_bind] at h
    rcases hlog : (World.log .debug (notice identity answer.2.length)).start loaded
      with ⟨fault | ⟨⟩, logged⟩
    · rw [hlog] at h
      cases h
    · rw [hlog] at h
      cases h
      rfl

theorem namesModules_surroundings : (surroundings root naming pipeline).NamesModules := by
  intro path identity state code dependencies after hname hprocess dependency hdependency
  obtain ⟨parts, -, rfl⟩ := Identity.ofPath?_eq_some_iff.1 hname
  obtain ⟨text, htext⟩ := exists_text_of_process hprocess
  obtain ⟨below, rfl, -⟩ := Load.exists_parts_of_retargetText htext dependency hdependency
  exact Identity.ofPath?_path_ofParts root below

theorem isFile_surroundings {path : FilePath} :
    (((surroundings root naming pipeline).isFile path).start world).1 = .ok true
      ↔ world.tree.isFile path = .ok true := by
  change (world.tree.isFile path).mapError Failure.path = .ok true ↔ _
  cases world.tree.isFile path <;> simp [Except.mapError]

theorem steady_surroundings (hpure : pipeline.Pure)
    (hquiet : Level.debug.number < world.console.threshold) :
    (surroundings root naming pipeline).Steady world where
  isFile _ := rfl
  process path identity := by
    rw [surroundings, start_process hpure hquiet]

theorem outcome_surroundings (hpure : pipeline.Pure)
    (hquiet : Level.debug.number < world.console.threshold) (identity : Identity) :
    (surroundings root naming pipeline).outcome world identity
      = alone root naming pipeline world identity := by
  rw [Surroundings.outcome, surroundings, start_process hpure hquiet, alone]

end Processing
end Bundler
