import Bundler.Proofs.Agreement
import Bundler.Proofs.Graph.Verdict
import Bundler.Proofs.Processing.Calls

/-!
# What a call gives after other calls

Where the files stay the same and all transforms are functions, a call gives after other calls what it
gives in an empty graph, unless it leads to a module that one of these calls left in progress; then it
ends with a fault that no call in an empty graph ends with (`outcomeAfter_eq_or`). Modules are left in
progress by calls that fail, so a call that failed ends with that fault when it is made again.
-/

namespace Bundler

open Relation

variable {σ ε φ α β ω : Type}

/-! ### Faults that attempts end with -/

/-- Whatever fault the attempt ends with has this property. -/
def Attempt.FaultsBy (reason : ε → Prop) (attempt : Attempt σ ε α) : Prop :=
  ∀ state fault, (attempt.start state).1 = .error fault → reason fault

namespace Attempt

variable {reason : ε → Prop} {attempt : Attempt σ ε α}
  {next : α → Attempt σ ε β}

theorem FaultsBy.bind (hattempt : attempt.FaultsBy reason)
    (hnext : ∀ value, (next value).FaultsBy reason) : (attempt >>= next).FaultsBy reason := by
  intro state fault h
  have hfirst := hattempt state
  rw [start_bind] at h
  rcases hstart : attempt.start state with ⟨other | value, after⟩
  · rw [hstart, andThen_error] at h
    rw [hstart] at hfirst
    cases h
    exact hfirst fault rfl
  · rw [hstart, andThen_ok] at h
    exact hnext value after fault h

theorem faultsBy_pure (value : α) : (pure value : Attempt σ ε α).FaultsBy reason := by
  intro state fault h
  cases h

theorem faultsBy_mapFault {attempt : Attempt σ φ α} {f : φ → ε} (hf : ∀ fault, reason (f fault)) :
    (attempt.mapFault f).FaultsBy reason := by
  intro state fault h
  rw [start_mapFault] at h
  cases hresult : (attempt.start state).1 with
  | ok value =>
    rw [hresult] at h
    cases h
  | error other =>
    rw [hresult] at h
    cases h
    exact hf other

end Attempt

/-! ### Pure transforms -/

namespace Pipeline

variable {pipeline : Pipeline ω}

theorem keeps_transform (hpure : pipeline.Pure) (path : FilePath) (text : String) :
    (pipeline.transform path text).Keeps (World.Agrees (· = ·)) := by
  refine keeps_transform_of (fun _ => World.keeps_log _ _) (fun rule hrule text world => ?_) text
  rw [unchanged_applyRule (hpure rule hrule)]
  exact Std.Refl.refl world

theorem keeps_load (hpure : pipeline.Pure) (path : FilePath) :
    (pipeline.load path).Keeps (World.Agrees (· = ·)) :=
  Attempt.Keeps.bind (fun world => Std.Refl.refl world) (keeps_transform hpure path)

end Pipeline

namespace Processing

/-- No step of a build but the exploration itself finds a module that is in progress and not on the
stack. -/
def Known (fault : Failure) : Prop := ∀ identity, fault ≠ .notOnStack identity

/-- The exploration of a graph does not end with this failure by itself. -/
def Foreign (failure : Failure) : Prop := ∀ fault, failure ≠ graphFailure fault

theorem Foreign.known {failure : Failure} (h : Foreign failure) : Known failure :=
  fun identity => h (.notOnStack identity)

variable {root : FilePath} {naming : Naming} {pipeline : Pipeline ω}

theorem foreign_path (fault : PathFault) : Foreign (.path fault) := by
  intro other heq
  cases other <;> cases heq

theorem faultsBy_log (level : Level) (message : String) :
    (World.log level message : Act ω Unit).FaultsBy Foreign := by
  intro world fault h
  simp only [Attempt.start, World.log] at h
  split at h
  · cases h
  · cases h
    intro other heq
    cases other <;> cases heq

theorem faultsBy_files {reason : Failure → Prop} {f : FileTree → Except Failure α}
    (hf : ∀ tree fault, f tree = .error fault → reason fault) :
    (World.files f : Act ω α).FaultsBy reason :=
  fun world fault h => hf world.tree fault h

theorem faultsBy_transform (path : FilePath) (text : String) :
    (pipeline.transform path text).FaultsBy Foreign := by
  induction pipeline generalizing text with
  | nil => exact Attempt.faultsBy_pure text
  | cons rule rest ih =>
    have hrule : (Pipeline.applyRule path rule text).FaultsBy Foreign := by
      refine Attempt.faultsBy_mapFault fun raised other heq => ?_
      cases other <;> cases heq
    rw [Pipeline.transform]
    split
    · exact (faultsBy_log _ _).bind fun _ => hrule.bind ih
    · exact ih text

theorem foreign_read (path : FilePath) (reason : ReadReason) : Foreign (.bundle (.read path reason)) := by
  intro other heq
  cases other <;> cases heq

theorem foreign_of_readText {tree : FileTree} {path : FilePath} {failure : Failure}
    (h : Pipeline.readText tree path = .error failure) : Foreign failure := by
  rw [Pipeline.readText] at h
  split at h
  · cases h
    exact foreign_path _
  · cases h
    exact foreign_read path _
  · split at h
    · cases h
    · cases h
      exact foreign_read path _

theorem foreign_retargetFailure (identity : Identity) (fault : RetargetFault) :
    Foreign (retargetFailure identity fault) := by
  intro other heq
  unfold retargetFailure at heq
  split at heq <;> cases other <;> cases heq

theorem faultsBy_process (path : FilePath) (identity : Identity) :
    (process naming pipeline path identity).FaultsBy Foreign := by
  have hload : (pipeline.load path).FaultsBy Foreign :=
    (faultsBy_files fun tree fault h => foreign_of_readText h).bind fun text => faultsBy_transform path text
  refine hload.bind fun text => ?_
  refine Attempt.FaultsBy.bind ?_ fun answer => ?_
  · intro world fault h
    rw [Attempt.start_ofExcept] at h
    cases hretarget : Load.retargetText naming identity.directory text with
    | ok answer =>
      rw [hretarget] at h
      cases h
    | error fault =>
      rw [hretarget] at h
      cases h
      exact foreign_retargetFailure identity fault
  · exact (faultsBy_log _ _).bind fun _ => Attempt.faultsBy_pure _

theorem foreign_of_isFile {path : FilePath} {failure : Failure} (world : World ω)
    (h : (((surroundings root naming pipeline).isFile path).start world).1 = .error failure) :
    Foreign failure := by
  have hisFile : (world.tree.isFile path).mapError Failure.path = .error failure := h
  obtain ⟨fault, -, rfl⟩ := mapError_eq_error_iff.1 hisFile
  exact foreign_path fault

/-! ### Calls -/

theorem keeps_process (hpure : pipeline.Pure) (path : FilePath) (identity : Identity) :
    (process naming pipeline path identity).Keeps (World.Agrees (· = ·)) := by
  refine (pipeline.keeps_load hpure path).bind fun text => ?_
  refine Attempt.Keeps.bind (fun world => Std.Refl.refl world) fun answer => ?_
  exact (World.keeps_log _ _).bind fun _ => Attempt.keeps_pure _

theorem settled_surroundings (hpure : pipeline.Pure) (world : World ω) :
    (surroundings root naming pipeline).Settled world (world.Agrees (· = ·)) where
  isFile path other h :=
    ⟨congrArg (fun tree => (tree.isFile path).mapError Failure.path) h.tree.symm, h⟩
  process path identity other h := by
    have hrespects : (surroundings root naming pipeline).Respects (World.Agrees (· = ·)) :=
      respects_surroundings pipeline.respects_eq
    obtain ⟨hresult, hafter⟩ := hrespects.process path identity world other h
    exact ⟨hresult.symm, Trans.trans (keeps_process hpure path identity world) hafter⟩

/-- The module lies below the root, without a step upwards. -/
def Below (identity : Identity) : Prop :=
  ∃ parts, identity = .ofParts parts ∧ Component.parent ∉ parts

theorem below_of_loads {world : World ω} {path : FilePath} {identity other : Identity}
    (hname : Identity.ofPath? root path = some identity)
    (hloads : (surroundings root naming pipeline).Loads world identity other) : Below other := by
  obtain ⟨parts, -, rfl⟩ := Identity.ofPath?_eq_some_iff.1 hname
  obtain ⟨code, dependencies, houtcome, hmem⟩ := hloads
  obtain ⟨text, htext⟩ := exists_text_of_process (Prod.ext houtcome rfl)
  exact Load.exists_parts_of_retargetText htext other hmem

/-- The outermost module in progress alone can be named with steps upwards. -/
theorem length_le_of_below {world : World ω} {identities : List Identity} (hnodup : identities.Nodup)
    (hfile : ∀ identity ∈ identities, (((surroundings root naming pipeline).isFile
      (identity.path (surroundings root naming pipeline).root)).start world).1 = .ok true)
    (hbelow : ∀ identity ∈ identities.dropLast, Below identity) :
    identities.length ≤ world.tree.nodes.length + 1 := by
  have hinner : identities.dropLast.length ≤ world.tree.nodes.length := by
    have hnodup' : identities.dropLast.Nodup := hnodup.sublist (List.dropLast_sublist _)
    exact FileTree.length_le_of_isFile_path hnodup' hbelow fun identity hmem =>
      isFile_surroundings.1 (hfile identity ((List.dropLast_sublist _).subset hmem))
  rw [List.length_dropLast] at hinner
  omega

/-- Between calls: the modules done can be built, the modules in progress cannot, and the world is the
one in which the calls began but for what the console shows. -/
structure Between (root : FilePath) (naming : Naming) (pipeline : Pipeline ω) (world : World ω)
    (state : Graph × World ω) : Prop where
  consistent : state.1.Consistent
  stack_eq : state.1.stack = []
  agrees : world.Agrees (· = ·) state.2
  done : ∀ identity, state.1.visit identity = .done →
    (surroundings root naming pipeline).Buildable world identity
  inProgress : ∀ identity, state.1.visit identity = .inProgress →
    ¬ (surroundings root naming pipeline).Buildable world identity

section Calls

variable {world : World ω} {state : Graph × World ω} {call : Call ω} {identity : Identity}

theorem Between.empty (world : World ω) : Between root naming pipeline world ({}, world) :=
  ⟨.empty, rfl, Std.Refl.refl world, by simp [Graph.visit, Data.fieldOf?], by simp [Graph.visit, Data.fieldOf?]⟩

theorem Call.start_eq (hcall : call.change = id)
    (hname : Identity.ofPath? root call.path = some identity) :
    call.start root naming pipeline state
      = ((Attempt.start (Build.module (surroundings root naming pipeline)
            (state.2.tree.nodes.length + 2) call.path)
            (Build.named call.entry identity state.1, state.2)).1.map fun _ => identity,
        (Attempt.start (Build.module (surroundings root naming pipeline)
            (state.2.tree.nodes.length + 2) call.path)
            (Build.named call.entry identity state.1, state.2)).2) := by
  obtain ⟨graph, before⟩ := state
  rw [Call.start, hcall, start_build]
  rw [Build.start_start (surroundings root naming pipeline) graph _ hname, Attempt.andThen_pure]
  rfl

theorem Call.start_eq_none (hcall : call.change = id)
    (hname : Identity.ofPath? root call.path = none) :
    call.start root naming pipeline state
      = (.error (graphFailure (.outside call.path root)), state) := by
  obtain ⟨graph, before⟩ := state
  rw [Call.start, hcall, start_build]
  exact Build.start_start_none (surroundings root naming pipeline) graph before hname

theorem Between.verdict (hpure : pipeline.Pure) (h : Between root naming pipeline world state)
    (hcall : call.change = id) (hname : Identity.ofPath? root call.path = some identity) :
    ∃ result, (surroundings root naming pipeline).Verdict world
        (fun other => state.1.visit other = .inProgress) [] [call.path] result ∧
      (call.start root naming pipeline state).1 = result.map (fun _ => identity) ∧
      Between root naming pipeline world (call.start root naming pipeline state).2 := by
  obtain ⟨graph, before⟩ := state
  have hnamed : (Build.named call.entry identity graph).visit = graph.visit
      ∧ (Build.named call.entry identity graph).stack = [] := by
    cases call.entry <;> exact ⟨rfl, h.stack_eq⟩
  have hunderway : Build.Underway (surroundings root naming pipeline) world Below
      (fun other => graph.visit other = .inProgress) (Build.named call.entry identity graph)
      [call.path] := by
    refine ⟨?_, ?_, ?_, ?_, ?_, ?_⟩
    · rw [hnamed.1]
      exact h.done
    all_goals simp [hnamed.1, hnamed.2]
  have hexplores := Build.explores_module (surroundings root naming pipeline)
    (before.tree.nodes.length + 2) call.path (Build.named call.entry identity graph, before)
  have hnodes : before.tree.nodes.length = world.tree.nodes.length := by rw [h.agrees.tree]
  obtain ⟨hverdict, hagrees, hremains⟩ := hexplores.verdict (settled_surroundings hpure world)
    namesModules_surroundings (fun path identity hname other => below_of_loads hname)
    (fun identities => length_le_of_below) h.inProgress h.agrees (h.consistent.named call.entry)
    hunderway (by omega)
  have hconsistent : (call.start root naming pipeline (graph, before)).2.1.Consistent :=
    (call.consistent_start h.consistent).1
  have hstack : (call.start root naming pipeline (graph, before)).2.1.stack = graph.stack :=
    (call.consistent_start h.consistent).2.2.1
  simp only [hnamed.2] at hverdict
  refine ⟨_, hverdict, by rw [Call.start_eq hcall hname], hconsistent, hstack.trans h.stack_eq, ?_, ?_, ?_⟩
  · rw [Call.start_eq hcall hname]
    exact hagrees
  · rw [Call.start_eq hcall hname]
    exact hremains.done
  · intro other hother
    rw [Call.start_eq hcall hname] at hother
    rcases hremains.inProgress other hother with hbefore | hnot
    · exact h.inProgress other (hnamed.1 ▸ hbefore)
    · exact hnot

theorem Call.error_of_inProgress (hstack : state.1.stack = [])
    (hname : Identity.ofPath? root call.path = some identity)
    (hvisit : state.1.visit identity = .inProgress) :
    (call.start root naming pipeline state).1 = .error (.notOnStack identity) := by
  obtain ⟨graph, before⟩ := state
  have hnamed : (Build.named call.entry identity graph).visit = graph.visit
      ∧ (Build.named call.entry identity graph).stack = [] := by
    cases call.entry <;> exact ⟨rfl, hstack⟩
  have hexplores := Build.explores_module (surroundings root naming pipeline)
    ((call.change before).tree.nodes.length + 2) call.path
    (Build.named call.entry identity graph, call.change before)
  have herror := hexplores.error_of_inProgress (by simp) hname (hnamed.1 ▸ hvisit)
    (by simp [hnamed.2])
  rw [Call.start, start_build, Build.start_start (surroundings root naming pipeline) graph _ hname,
    Attempt.andThen_pure, herror]
  rfl

theorem Between.inProgress_of_error (h : Between root naming pipeline world state)
    (hcall : call.change = id) (hname : Identity.ofPath? root call.path = some identity)
    (hvisit : state.1.visit identity = .unvisited)
    (hfile : world.tree.isFile call.path = .ok true) {fault : Failure}
    (herror : (call.start root naming pipeline state).1 = .error fault) :
    (call.start root naming pipeline state).2.1.visit identity = .inProgress := by
  obtain ⟨graph, before⟩ := state
  have hnamed : (Build.named call.entry identity graph).visit = graph.visit := by
    cases call.entry <;> rfl
  have hexplores := Build.explores_module (surroundings root naming pipeline)
    (before.tree.nodes.length + 2) call.path (Build.named call.entry identity graph, before)
  have htree : before.tree.isFile call.path = .ok true := by
    rw [← h.agrees.tree]
    exact hfile
  rw [Call.start_eq hcall hname] at herror ⊢
  rcases hmodule : Attempt.start (Build.module (surroundings root naming pipeline)
    (before.tree.nodes.length + 2) call.path) (Build.named call.entry identity graph, before)
    with ⟨other | ⟨⟩, after⟩
  · rw [hmodule] at hexplores
    exact hexplores.inProgress_of_error namesModules_surroundings (h.consistent.named call.entry)
      (by simp) hname (hnamed ▸ hvisit) (isFile_surroundings.2 htree)
  · simp only [hmodule] at herror
    cases herror

end Calls

/-! ### Calls after calls -/

/-- What a call gives after other calls that began with an empty graph. -/
def outcomeAfter (root : FilePath) (naming : Naming) (pipeline : Pipeline ω) (world : World ω)
    (calls : List (Call ω)) (call : Call ω) : Except Failure Identity :=
  (call.start root naming pipeline (afterCalls root naming pipeline world calls)).1

section After

variable {world : World ω} {calls : List (Call ω)} {call : Call ω} {identity : Identity}

theorem between_afterCalls (hpure : pipeline.Pure) (hcalls : ∀ call ∈ calls, call.change = id) :
    Between root naming pipeline world (afterCalls root naming pipeline world calls) := by
  induction calls using List.reverseRecOn with
  | nil => exact .empty world
  | append_singleton calls call ih =>
    rw [List.forall_mem_append, List.forall_mem_singleton] at hcalls
    rw [afterCalls_append]
    cases hname : Identity.ofPath? root call.path with
    | none =>
      rw [Call.start_eq_none hcalls.2 hname]
      exact ih hcalls.1
    | some identity =>
      obtain ⟨-, -, -, hafter⟩ := (ih hcalls.1).verdict hpure hcalls.2 hname
      exact hafter

/-- A call gives what it gives in an empty graph, unless its file leads to a module left in progress. -/
theorem outcomeAfter_eq_or (hpure : pipeline.Pure) (hcalls : ∀ call ∈ calls, call.change = id)
    (hcall : call.change = id) :
    outcomeAfter root naming pipeline world calls call
        = outcomeAfter root naming pipeline world [] call ∨
      ∃ identity stuck fault, Identity.ofPath? root call.path = some identity ∧
        ReflTransGen ((surroundings root naming pipeline).Loads world) identity stuck ∧
        (afterCalls root naming pipeline world calls).1.visit stuck = .inProgress ∧
        outcomeAfter root naming pipeline world calls call = .error (.notOnStack stuck) ∧
        outcomeAfter root naming pipeline world [] call = .error fault ∧ Known fault := by
  have hbetween : Between root naming pipeline world (afterCalls root naming pipeline world calls) :=
    between_afterCalls hpure hcalls
  have hempty : Between root naming pipeline world (afterCalls root naming pipeline world []) :=
    .empty world
  cases hname : Identity.ofPath? root call.path with
  | none =>
    left
    rw [outcomeAfter, outcomeAfter, Call.start_eq_none hcall hname, Call.start_eq_none hcall hname]
  | some identity =>
    obtain ⟨later, hlater, hlaterEq, -⟩ := hbetween.verdict hpure hcall hname
    obtain ⟨fresh, hfresh, hfreshEq, -⟩ := hempty.verdict hpure hcall hname
    have hnone : (fun other => (afterCalls root naming pipeline world []).1.visit other = .inProgress)
        = fun _ => False := by
      funext other
      simp [Graph.visit, Data.fieldOf?]
    rw [hnone] at hfresh
    rw [outcomeAfter, outcomeAfter, hlaterEq, hfreshEq]
    rcases hlater.eq_or_blocked hbetween.inProgress hfresh with
      rfl | ⟨other, stuck, fault, hother, hleads, hstuck, rfl, rfl, hfails⟩
    · exact .inl rfl
    · obtain rfl := Option.some.inj (hname.symm.trans hother)
      have hknown : Known fault := by
        refine hfails.of_faults (fun path fault h => (foreign_of_isFile world h).known)
          (fun identity fault h => (faultsBy_process _ identity world fault h).known) ?_ ?_
        · intro identities identity heq
          cases heq
        · intro identity importer other heq
          cases heq
      exact .inr ⟨identity, stuck, fault, rfl, hleads, hstuck, rfl, rfl, hknown⟩

theorem visit_afterCalls_append (more : List (Call ω))
    (hvisit : (afterCalls root naming pipeline world calls).1.visit identity = .inProgress) :
    (afterCalls root naming pipeline world (calls ++ more)).1.visit identity = .inProgress := by
  induction more using List.reverseRecOn with
  | nil => simpa using hvisit
  | append_singleton more call ih =>
    rw [← List.append_assoc, afterCalls_append]
    exact (call.consistent_start (consistent_afterCalls world (calls ++ more)).1).2.2.2 identity ih

/-- A call gives after other calls what it gives in an empty graph, unless its file leads to a module
that one of these left in progress. Then it ends with a fault of its own, which no call in an empty graph
ends with. A call that fails on a file that was not built before ends so whenever it is made again. -/
theorem outcomeAfter_calls (hpure : pipeline.Pure) (hcalls : ∀ call ∈ calls, call.change = id)
    (hcall : call.change = id) :
    (outcomeAfter root naming pipeline world calls call
        = outcomeAfter root naming pipeline world [] call ∨
      ∃ identity stuck fault, Identity.ofPath? root call.path = some identity ∧
        ReflTransGen ((surroundings root naming pipeline).Loads world) identity stuck ∧
        (afterCalls root naming pipeline world calls).1.visit stuck = .inProgress ∧
        outcomeAfter root naming pipeline world calls call = .error (.notOnStack stuck) ∧
        outcomeAfter root naming pipeline world [] call = .error fault ∧ Known fault) ∧
    ∀ identity fault more, Identity.ofPath? root call.path = some identity →
      (afterCalls root naming pipeline world calls).1.visit identity = .unvisited →
      world.tree.isFile call.path = .ok true →
      outcomeAfter root naming pipeline world calls call = .error fault →
      outcomeAfter root naming pipeline world (calls ++ [call] ++ more) call
        = .error (.notOnStack identity) := by
  refine ⟨outcomeAfter_eq_or hpure hcalls hcall, fun identity fault more hname hvisit hfile herror => ?_⟩
  have hleft : (afterCalls root naming pipeline world (calls ++ [call])).1.visit identity
      = .inProgress := by
    rw [afterCalls_append]
    exact (between_afterCalls hpure hcalls).inProgress_of_error hcall hname hvisit hfile herror
  exact Call.error_of_inProgress (consistent_afterCalls world _).2 hname
    (visit_afterCalls_append more hleft)

theorem isComponent_main : isComponent "main.py" = true := by decide +kernel

/-- A world whose root directory has a module that loads a missing one. -/
def gapWorld : World Unit where
  tree := ⟨.root, [([⟨"main.py", isComponent_main⟩], .file "require('./gone')\n".toUTF8)]⟩
  console := .start []
  registry := {}
  memory := ()

def gapCall : Call Unit where
  path := ⟨.root, [⟨"main.py", isComponent_main⟩]⟩

/-- The module that is missing and the module that loads it, where a call ends so. -/
def unresolved? : Except Failure Identity → Option (Identity × Option Identity)
  | .error (.bundle (.unresolved identity importer)) => some (identity, importer)
  | _ => none

theorem eq_of_unresolved? {result : Except Failure Identity} {identity : Identity}
    {importer : Option Identity} (h : unresolved? result = some (identity, importer)) :
    result = .error (.bundle (.unresolved identity importer)) := by
  unfold unresolved? at h
  split at h
  · cases h
    rfl
  · cases h

theorem outcomeAfter_gap :
    outcomeAfter ⟨.root, []⟩ {} [] gapWorld [] gapCall
        = .error (.bundle (.unresolved "./gone.py" (some "./main.py"))) ∧
      outcomeAfter ⟨.root, []⟩ {} [] gapWorld [gapCall] gapCall = .error (.notOnStack "./main.py") := by
  have hfirst : outcomeAfter ⟨.root, []⟩ {} [] gapWorld [] gapCall
      = .error (.bundle (.unresolved "./gone.py" (some "./main.py"))) :=
    eq_of_unresolved? (by decide +kernel)
  have hname : Identity.ofPath? ⟨.root, []⟩ gapCall.path = some "./main.py" := by decide +kernel
  have hfile : gapWorld.tree.isFile gapCall.path = .ok true := by decide +kernel
  have hpure : Pipeline.Pure ([] : Pipeline Unit) := by simp [Pipeline.Pure]
  have hcalls : ∀ call ∈ ([] : List (Call Unit)), call.change = id := by simp
  exact ⟨hfirst, (outcomeAfter_calls hpure hcalls rfl).2 "./main.py" _ [] hname rfl hfile hfirst⟩

end After

end Processing
end Bundler
