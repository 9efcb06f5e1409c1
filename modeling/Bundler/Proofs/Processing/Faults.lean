import Bundler.Proofs.Compiler.Frame
import Bundler.Proofs.Graph.Requests
import Bundler.Proofs.Processing.History

/-!
# Failures that bundling is not meant to end in

A call that comes to a path which is no file ends with a fault of bundling that names the importer. A
call ends otherwise than in a fault of bundling just when a request inside it escapes: its path is
over-long, or loading the file, reading its load calls or the message about it fails so
(`failure_of_build`).
-/

namespace Bundler

variable {ω : Type}

/-- Bundling is meant to end in such a failure. -/
def Failure.IsBundle (failure : Failure) : Prop := ∃ fault, failure = .bundle fault

theorem Failure.not_isBundle_path (fault : PathFault) : ¬ (Failure.path fault).IsBundle :=
  fun ⟨_, h⟩ => nomatch h

namespace Processing

/-- A call on the empty graph comes to a request. -/
def Comes (root : FilePath) (naming : Naming) (pipeline : Pipeline ω) (world : World ω)
    (entry : Option String) (path : FilePath) (request : Request (World ω)) : Prop :=
  ∃ identity, Identity.ofPath? root path = some identity ∧
    Build.Requests (surroundings root naming pipeline) (world.tree.nodes.length + 2) none [path]
      (Build.named entry identity {}, world) request

/-- A request for a file that is there and was not visited before. -/
structure Fresh (root : FilePath) (request : Request (World ω)) (identity : Identity) : Prop where
  name : Identity.ofPath? root request.path = some identity
  visit : request.state.1.visit identity = .unvisited
  isFile : request.state.2.tree.isFile request.path = .ok true

/-- A failure at a request that bundling is not meant to end in. -/
inductive Escapes (root : FilePath) (naming : Naming) (pipeline : Pipeline ω) :
    Request (World ω) → Failure → Prop
  | overlong {request} (hpath : request.state.2.tree.Overlong request.path) :
      Escapes root naming pipeline request (.path (.system .nameTooLong request.path))
  | load {request identity failure} (hfresh : Fresh root request identity)
      (hload : ((pipeline.load request.path).start request.state.2).1 = .error failure)
      (hfailure : ¬ failure.IsBundle) : Escapes root naming pipeline request failure
  | retarget {request identity text loaded fault} (hfresh : Fresh root request identity)
      (hload : (pipeline.load request.path).start request.state.2 = (.ok text, loaded))
      (hretarget : Load.retargetText naming identity.directory text = .error fault)
      (hfailure : ¬ (retargetFailure identity fault).IsBundle) :
      Escapes root naming pipeline request (retargetFailure identity fault)
  | notice {request identity text loaded code dependencies failure}
      (hfresh : Fresh root request identity)
      (hload : (pipeline.load request.path).start request.state.2 = (.ok text, loaded))
      (hretarget : Load.retargetText naming identity.directory text = .ok (code, dependencies))
      (hlog : ((World.log .debug (Processing.notice identity dependencies.length)).start loaded).1
        = .error failure)
      (hfailure : ¬ failure.IsBundle) : Escapes root naming pipeline request failure

/-! ### Processing -/

variable {root : FilePath} {naming : Naming} {pipeline : Pipeline ω} {world : World ω}
  {entry : Option String} {path : FilePath} {request : Request (World ω)} {identity : Identity}
  {failure : Failure}

theorem process_eq_error_iff {looked : World ω} :
    ((process naming pipeline path identity).start looked).1 = .error failure ↔
      ((pipeline.load path).start looked).1 = .error failure ∨
      ∃ text loaded, (pipeline.load path).start looked = (.ok text, loaded) ∧
        ((∃ fault, Load.retargetText naming identity.directory text = .error fault ∧
            retargetFailure identity fault = failure) ∨
          ∃ code dependencies,
            Load.retargetText naming identity.directory text = .ok (code, dependencies) ∧
            ((World.log .debug (notice identity dependencies.length)).start loaded).1
              = .error failure) := by
  rw [process, Attempt.start_bind]
  rcases hload : (pipeline.load path).start looked with ⟨other | text, loaded⟩
  · simp
  rw [Attempt.andThen_ok, Attempt.start_bind, Attempt.start_ofExcept]
  cases hretarget : Load.retargetText naming identity.directory text with
  | error fault => simp [Except.mapError, hretarget]
  | ok answer =>
    obtain ⟨code, dependencies⟩ := answer
    simp only [Except.mapError, Attempt.andThen_ok, Attempt.start_bind]
    rcases hlog : (World.log .debug (notice identity dependencies.length)).start loaded
      with ⟨other | ⟨⟩, logged⟩
    · simp [hretarget, hlog]
    · simp [hretarget, hlog]

/-! ### Requests inside a call -/

theorem fixed_surroundings (tree : FileTree) :
    (surroundings root naming pipeline).Fixed (fun state => state.tree = tree)
      fun path => (tree.isFile path).mapError .path where
  isFile _ _ h := by
    subst h
    exact ⟨rfl, rfl⟩
  process path identity state h :=
    ((sameFiles_surroundings root naming pipeline).process path identity state).trans h

theorem loadsOnly_surroundings : (surroundings root naming pipeline).LoadsOnly Below := by
  intro path identity state code dependencies after hname hprocess
  obtain ⟨parts, -, rfl⟩ := Identity.ofPath?_eq_some_iff.1 hname
  obtain ⟨text, htext⟩ := exists_text_of_process hprocess
  exact Load.exists_parts_of_retargetText htext

theorem Comes.ongoing (h : Comes root naming pipeline world entry path request) :
    Build.Ongoing (surroundings root naming pipeline)
        (fun path => (world.tree.isFile path).mapError .path) Below request.state.1 [request.path] ∧
      request.state.2.tree = world.tree ∧ request.importer = request.state.1.stack.head? ∧
      ∃ depth, request.depth = depth + 1 := by
  obtain ⟨identity, hname, hrequests⟩ := h
  have hstack : (Build.named entry identity {}).stack = [] := by
    cases entry <;> rfl
  obtain ⟨hongoing, htree, himporter, hdepth⟩ := hrequests.ongoing (fixed_surroundings world.tree)
    namesModules_surroundings loadsOnly_surroundings (.empty entry hname) rfl (by simp [hstack])
  refine ⟨hongoing, htree, himporter, request.depth - 1, ?_⟩
  -- the modules in progress are different files, so the depth is not used up
  have hfile : ∀ other ∈ request.state.1.stack, (((surroundings root naming pipeline).isFile
      (other.path (surroundings root naming pipeline).root)).start world).1 = .ok true := by
    intro other hother
    refine hongoing.isFile other ?_
    rw [(hongoing.inProgress_iff other).2 hother]
    simp
  have hlength := length_le_of_below hongoing.nodup hfile hongoing.loaded
  rw [hstack, List.length_nil] at hdepth
  omega

/-- A module that is no file was not visited. -/
theorem Comes.unvisited (h : Comes root naming pipeline world entry path request)
    (hname : Identity.ofPath? root request.path = some identity)
    (hfile : request.state.2.tree.isFile request.path ≠ .ok true) :
    request.state.1.visit identity = .unvisited := by
  obtain ⟨hongoing, htree, -, -⟩ := h.ongoing
  by_contra hvisit
  have hanswer : (world.tree.isFile (identity.path root)).mapError Failure.path = .ok true :=
    hongoing.isFile identity hvisit
  rw [Identity.path_of_ofPath? hname, ← htree] at hanswer
  refine hfile ?_
  cases hisFile : request.state.2.tree.isFile request.path with
  | ok answer =>
    rw [hisFile] at hanswer
    cases hanswer
    rfl
  | error fault =>
    rw [hisFile] at hanswer
    cases hanswer

theorem Comes.exists_name (h : Comes root naming pipeline world entry path request) :
    ∃ identity, Identity.ofPath? root request.path = some identity := by
  obtain ⟨hongoing, -⟩ := h.ongoing
  obtain ⟨identity, hname, -⟩ := hongoing.named request.path List.mem_cons_self
  exact ⟨identity, hname⟩

theorem Comes.error (h : Comes root naming pipeline world entry path request)
    (hfinds : Build.Finds (surroundings root naming pipeline) request failure) :
    (Attempt.start (build root naming pipeline entry path) ({}, world)).1 = .error failure := by
  obtain ⟨identity, hname, hrequests⟩ := h
  have hmodule := hrequests.error hfinds.error
  rw [Build.start_forM_singleton] at hmodule
  rw [start_build, Build.start_start _ _ _ hname, Attempt.andThen_pure, hmodule]
  rfl

theorem exists_comes
    (h : (Attempt.start (build root naming pipeline entry path) ({}, world)).1 = .error failure)
    (hfailure : ¬ failure.IsBundle) : ∃ request, Comes root naming pipeline world entry path request ∧
      Build.Finds (surroundings root naming pipeline) request failure := by
  rw [start_build] at h
  rcases Build.exists_request_of_start h with rfl | ⟨called, request, hname, hrequests, hfinds⟩
  · exact absurd ⟨_, rfl⟩ hfailure
  · exact ⟨request, ⟨called, hname, hrequests⟩, hfinds⟩

/-- A request escapes when it finds a failure that bundling is not meant to end in. -/
theorem Comes.finds_iff (h : Comes root naming pipeline world entry path request) :
    Build.Finds (surroundings root naming pipeline) request failure ∧ ¬ failure.IsBundle ↔
      Escapes root naming pipeline request failure := by
  obtain ⟨hongoing, -, -, depth, hdepth⟩ := h.ongoing
  constructor
  · rintro ⟨hfinds, hfailure⟩
    cases hfinds with
    | tooDeep => cases hdepth
    | outside | missing => exact absurd ⟨_, rfl⟩ hfailure
    | @cycle depth importer path graph state identity hname hvisit =>
      -- a module in progress is on the stack, so that the fault shows the cycle
      have hmem : identity ∈ graph.stack := (hongoing.inProgress_iff identity).1 hvisit
      rw [Graph.cycleAt, if_pos (by simpa using hmem)] at hfailure
      exact absurd ⟨_, rfl⟩ hfailure
    | @unreadable depth importer path graph state identity fault looked hname hvisit hfile =>
      have hisFile : (state.tree.isFile path).mapError Failure.path = .error failure :=
        congrArg Prod.fst hfile
      cases hanswer : state.tree.isFile path with
      | ok answer =>
        rw [hanswer] at hisFile
        cases hisFile
      | error fault =>
        rw [hanswer] at hisFile
        cases hisFile
        obtain ⟨rfl, hpath⟩ := FileTree.isFile_eq_error_iff.1 hanswer
        exact .overlong hpath
    | @unprocessed depth importer path graph state identity looked fault processed hname hvisit hfile
        hprocess =>
      have hisFile := isFile_surroundings.1 (congrArg Prod.fst hfile)
      obtain rfl : state = looked := congrArg Prod.snd hfile
      rcases process_eq_error_iff.1 (congrArg Prod.fst hprocess) with hload |
        ⟨text, loaded, hload, ⟨fault, hretarget, rfl⟩ | ⟨code, dependencies, hretarget, hlog⟩⟩
      · exact .load ⟨hname, hvisit, hisFile⟩ hload hfailure
      · exact .retarget ⟨hname, hvisit, hisFile⟩ hload hretarget hfailure
      · exact .notice ⟨hname, hvisit, hisFile⟩ hload hretarget hlog hfailure
  · have hunprocessed : ∀ {identity}, Fresh root request identity →
        ((process naming pipeline request.path identity).start request.state.2).1 = .error failure →
        Build.Finds (surroundings root naming pipeline) request failure := by
      intro identity hfresh hprocess
      obtain ⟨bound, importer, path, graph, state⟩ := request
      obtain rfl : bound = depth + 1 := hdepth
      exact .unprocessed hfresh.name hfresh.visit (Prod.ext (isFile_surroundings.2 hfresh.isFile) rfl)
        (Prod.ext hprocess rfl)
    intro hescapes
    cases hescapes with
    | overlong hpath =>
      obtain ⟨identity, hname⟩ := h.exists_name
      have hanswer := FileTree.isFile_eq_error_iff.2 ⟨rfl, hpath⟩
      have hvisit := h.unvisited hname (by simp [hanswer])
      obtain ⟨bound, importer, path, graph, state⟩ := request
      obtain rfl : bound = depth + 1 := hdepth
      refine ⟨.unreadable hname hvisit (Prod.ext ?_ rfl), Failure.not_isBundle_path _⟩
      exact congrArg (Except.mapError Failure.path) hanswer
    | load hfresh hload hfailure =>
      exact ⟨hunprocessed hfresh (process_eq_error_iff.2 (.inl hload)), hfailure⟩
    | retarget hfresh hload hretarget hfailure =>
      refine ⟨hunprocessed hfresh (process_eq_error_iff.2 ?_), hfailure⟩
      exact .inr ⟨_, _, hload, .inl ⟨_, hretarget, rfl⟩⟩
    | notice hfresh hload hretarget hlog hfailure =>
      refine ⟨hunprocessed hfresh (process_eq_error_iff.2 ?_), hfailure⟩
      exact .inr ⟨_, _, hload, .inr ⟨_, _, hretarget, hlog⟩⟩

/-- A call that comes to a path which names no file ends with a fault that names its importer. A call
ends with a failure that bundling is not meant to end in just when a request inside it escapes: when its
path is over-long, or when loading the file, reading its load calls or the message about it fails so. -/
theorem failure_of_build (root : FilePath) (naming : Naming) (pipeline : Pipeline ω) (world : World ω)
    (entry : Option String) (path : FilePath) :
    (∀ request identity, Comes root naming pipeline world entry path request →
        Identity.ofPath? root request.path = some identity →
        world.tree.isFile request.path = .ok false →
        (Attempt.start (build root naming pipeline entry path) ({}, world)).1
          = .error (.bundle (.unresolved identity request.importer))) ∧
      ∀ failure,
        ((Attempt.start (build root naming pipeline entry path) ({}, world)).1 = .error failure ∧
          ¬ failure.IsBundle) ↔
        ∃ request, Comes root naming pipeline world entry path request ∧
          Escapes root naming pipeline request failure := by
  refine ⟨fun request identity hcomes hname hfile => ?_, fun failure => ⟨?_, ?_⟩⟩
  · obtain ⟨-, htree, himporter, depth, hdepth⟩ := hcomes.ongoing
    rw [← htree] at hfile
    have hvisit := hcomes.unvisited hname (by simp [hfile])
    have hfinds : Build.Finds (surroundings root naming pipeline) request
        (.bundle (.unresolved identity request.importer)) := by
      obtain ⟨bound, importer, path, graph, state⟩ := request
      obtain rfl : bound = depth + 1 := hdepth
      obtain rfl : importer = graph.stack.head? := himporter
      refine .missing hname hvisit (Prod.ext ?_ rfl)
      exact congrArg (Except.mapError Failure.path) hfile
    exact hcomes.error hfinds
  · rintro ⟨herror, hfailure⟩
    obtain ⟨request, hcomes, hfinds⟩ := exists_comes herror hfailure
    exact ⟨request, hcomes, hcomes.finds_iff.1 ⟨hfinds, hfailure⟩⟩
  · rintro ⟨request, hcomes, hescapes⟩
    obtain ⟨hfinds, hfailure⟩ := hcomes.finds_iff.2 hescapes
    exact ⟨hcomes.error hfinds, hfailure⟩

/-- The call on a module that loads a missing one comes to the missing one. -/
theorem comes_gap : ∃ request, Comes ⟨.root, []⟩ {} [] gapWorld none gapCall.path request ∧
    request.path = .ofString "/gone.py" ∧ request.importer = some "./main.py" := by
  have hname : Identity.ofPath? ⟨.root, []⟩ gapCall.path = some "./main.py" := by decide +kernel
  have hfile : gapWorld.tree.isFile gapCall.path = .ok true := by decide +kernel
  have hloads : ((process {} [] gapCall.path "./main.py").start gapWorld).1.toOption.map (·.2)
      = some ["./gone.py"] := by decide +kernel
  rcases hprocess : (process {} [] gapCall.path "./main.py").start gapWorld
    with ⟨fault | ⟨code, dependencies⟩, processed⟩
  · rw [hprocess] at hloads
    cases hloads
  · rw [hprocess] at hloads
    obtain rfl : dependencies = ["./gone.py"] := Option.some.inj hloads
    refine ⟨_, ⟨"./main.py", hname, .inner hname rfl (Prod.ext (isFile_surroundings.2 hfile) rfl)
      hprocess .first⟩, ?_, rfl⟩
    change Identity.path ⟨.root, []⟩ "./gone.py" = .ofString "/gone.py"
    decide +kernel

theorem failure_of_build_gap :
    (Attempt.start (build ⟨.root, []⟩ {} [] none gapCall.path) ({}, gapWorld)).1
      = .error (.bundle (.unresolved "./gone.py" (some "./main.py"))) := by
  obtain ⟨request, hcomes, hpath, himporter⟩ := comes_gap
  have hname : Identity.ofPath? ⟨.root, []⟩ request.path = some "./gone.py" := by
    rw [hpath]
    decide +kernel
  have hfile : gapWorld.tree.isFile request.path = .ok false := by
    rw [hpath]
    decide +kernel
  rw [← himporter]
  exact (failure_of_build ⟨.root, []⟩ {} [] gapWorld none gapCall.path).1 request _ hcomes hname hfile

/-- A name of one letter and more of them. -/
def lettersName (more : Nat) : Component where
  text := String.ofList (List.replicate (more + 1) 'a')
  isComponent := by simp [isComponent, String.ext_iff, List.replicate_succ]

theorem overlong_lettersName {more : Nat} (hmore : FileTree.nameLimit < (lettersName more).text.utf8ByteSize)
    (tree : FileTree) : tree.Overlong ⟨.root, [lettersName more]⟩ := by
  refine ⟨?_, .inr ⟨[], lettersName more, [], [], rfl, ?_, hmore⟩⟩
  · simp [FilePath.hasNull, lettersName]
  · rw [FileTree.follow, FileTree.node?, if_pos rfl]

/-- A call for a path with too long a name fails otherwise than in a fault of bundling. -/
theorem failure_of_build_overlong :
    (Attempt.start (build ⟨.root, []⟩ {} [] none ⟨.root, [lettersName 255]⟩) ({}, gapWorld)).1
        = .error (.path (.system .nameTooLong ⟨.root, [lettersName 255]⟩)) ∧
      ¬ Failure.IsBundle (.path (.system .nameTooLong ⟨.root, [lettersName 255]⟩)) := by
  have hlong : gapWorld.tree.Overlong ⟨.root, [lettersName 255]⟩ :=
    overlong_lettersName (by decide +kernel) gapWorld.tree
  have hcomes : Comes ⟨.root, []⟩ {} [] gapWorld none ⟨.root, [lettersName 255]⟩
      ⟨3, none, ⟨.root, [lettersName 255]⟩, ({}, gapWorld)⟩ := ⟨_, rfl, .first⟩
  obtain ⟨hfinds, hfailure⟩ := hcomes.finds_iff.2 (.overlong hlong)
  exact ⟨hcomes.error hfinds, hfailure⟩

end Processing
end Bundler
