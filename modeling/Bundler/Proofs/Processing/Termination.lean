import Bundler.Proofs.Graph.Expansions
import Bundler.Proofs.Processing.Evidence
import Bundler.Proofs.Processing.Steps
import Mathlib.Data.List.Dedup

/-!
# Calls come to an end

Which modules a call comes to is written in the files, so that their texts bound neither how many these are
nor how deep they lie inside one another. The files themselves do: the work on a module is begun only where
it was not visited before and is a file, and modules that a call with a plain path comes to are files below
the root, each under one identity. So a call begins the work on no more modules than there are files, and
from a depth above their number on it is the same call at any depth (`finishes_of_calls`).
-/

namespace Bundler

variable {ω : Type}

namespace FileTree

variable {tree : FileTree} {root : FilePath}

def holdsFile (tree : FileTree) (place : Place) : Bool :=
  match tree.node? place with
  | some (.file _) => true
  | _ => false

/-- The places of the files at a directory and below it. -/
def filesUnder (tree : FileTree) (root : FilePath) : List Place :=
  (tree.nodes.map (·.1)).dedup.filter fun place => root.parts.isPrefixOf place && tree.holdsFile place

theorem mem_filesUnder {parts : List Component} (habsolute : root.isAbsolute = true)
    (hdown : Component.parent ∉ root.parts ++ parts)
    (h : tree.isFile ⟨root.anchor, root.parts ++ parts⟩ = .ok true) :
    root.parts ++ parts ∈ tree.filesUnder root := by
  obtain ⟨goal, content, hfollow⟩ := exists_follow_of_isFile h
  have hsame : tree.current.join ⟨root.anchor, root.parts ++ parts⟩
      = ⟨root.anchor, root.parts ++ parts⟩ := FilePath.join_of_isAbsolute habsolute
  rw [hsame] at hfollow
  have hnode := node?_of_follow hfollow
  rw [follow_below hdown hfollow, List.nil_append] at hnode
  have hmem := mem_nodes_of_file hnode
  simp only [filesUnder, holdsFile, hnode, List.mem_filter, List.mem_dedup]
  exact ⟨hmem, by simp⟩

theorem length_filesUnder (tree : FileTree) (root : FilePath) :
    (tree.filesUnder root).length ≤ tree.nodes.length := by
  have hdedup := (List.dedup_sublist (tree.nodes.map (·.1))).length_le
  have hfilter : (tree.filesUnder root).length ≤ (tree.nodes.map (·.1)).dedup.length :=
    List.length_filter_le _ _
  rw [List.length_map] at hdedup
  exact hfilter.trans hdedup

/-- Different modules below the root that are files are no more than the files there. -/
theorem length_le_filesUnder {identities : List Identity} (habsolute : root.isAbsolute = true)
    (hdown : Component.parent ∉ root.parts) (hnodup : identities.Nodup)
    (hfile : ∀ identity ∈ identities,
      Processing.Below identity ∧ tree.isFile (identity.path root) = .ok true) :
    identities.length ≤ (tree.filesUnder root).length := by
  have hbelow : ∀ identity ∈ identities, ∃ parts,
      identity = .ofParts parts ∧ Component.parent ∉ parts := fun identity hmem => (hfile identity hmem).1
  choose! parts hparts using hbelow
  have hplaces : (identities.map fun identity => root.parts ++ parts identity).Nodup := by
    refine hnodup.map_on fun left hleft right hright heq => ?_
    rw [(hparts left hleft).1, (hparts right hright).1, List.append_cancel_left heq]
  have hsubset : (identities.map fun identity => root.parts ++ parts identity) ⊆ tree.filesUnder root := by
    intro place hplace
    obtain ⟨identity, hmem, rfl⟩ := List.mem_map.1 hplace
    obtain ⟨hidentity, hnot⟩ := hparts identity hmem
    have hisFile := (hfile identity hmem).2
    rw [hidentity, Identity.path_ofParts] at hisFile
    exact mem_filesUnder habsolute (by simp [hdown, hnot]) hisFile
  have hle := (List.subperm_of_subset hplaces hsubset).length_le
  rwa [List.length_map] at hle

end FileTree

namespace Processing

variable {root : FilePath} {naming : Naming} {pipeline : Pipeline ω} {state : Graph × World ω}
  {call : Call ω} {depth : Nat} {request : Request (World ω)} {identity : Identity}

/-- The root of a call with a plain path is plain, and so is the way from there to the module. -/
theorem below_of_plain {path : FilePath} (habsolute : path.isAbsolute = true)
    (hdown : Component.parent ∉ path.parts) (hname : Identity.ofPath? root path = some identity) :
    root.isAbsolute = true ∧ Component.parent ∉ root.parts ∧ Below identity := by
  obtain ⟨parts, rfl, rfl⟩ := Identity.ofPath?_eq_some_iff.1 hname
  rw [List.mem_append, not_or] at hdown
  exact ⟨habsolute, hdown.1, parts, rfl, hdown.2⟩

theorem asks_of_below {path : FilePath} (hname : Identity.ofPath? root path = some identity)
    (hbelow : Below identity) : Build.Asks (surroundings root naming pipeline) Below [path] := by
  intro other hother found hfound
  obtain rfl := List.mem_singleton.1 hother
  cases hname.symm.trans hfound
  exact hbelow

/-! ### Calls at any depth -/

/-- What a call gives and leaves if modules in progress may lie this deep inside one another. -/
def Call.startAt (root : FilePath) (naming : Naming) (pipeline : Pipeline ω) (call : Call ω) (depth : Nat)
    (state : Graph × World ω) : Except Failure Identity × (Graph × World ω) :=
  Attempt.start (Build.start (surroundings root naming pipeline) depth call.entry call.path)
    (state.1, call.change state.2)

def Call.Comes (root : FilePath) (naming : Naming) (pipeline : Pipeline ω) (call : Call ω) (depth : Nat)
    (state : Graph × World ω) (request : Request (World ω)) : Prop :=
  ∃ identity, Identity.ofPath? root call.path = some identity ∧
    Build.Requests (surroundings root naming pipeline) depth none [call.path]
      (Build.named call.entry identity state.1, call.change state.2) request

def Call.files (root : FilePath) (call : Call ω) (state : Graph × World ω) : List Place :=
  (call.change state.2).tree.filesUnder root

theorem Call.start_eq_startAt : call.start root naming pipeline state
    = call.startAt root naming pipeline ((call.change state.2).tree.nodes.length + 2) state := by
  rw [Call.start, start_build]
  rfl

section Plain

variable (habsolute : call.path.isAbsolute = true) (hdown : Component.parent ∉ call.path.parts)

include habsolute hdown

/-- All modules that a call visits are files below the root, but for those that were visited before. -/
theorem Call.isFile_of_visited {module : Identity} (hbefore : state.1.visit module = .unvisited)
    (hafter : (call.startAt root naming pipeline depth state).2.1.visit module ≠ .unvisited) :
    root.isAbsolute = true ∧ Component.parent ∉ root.parts ∧ Below module ∧
      (call.change state.2).tree.isFile (module.path root) = .ok true := by
  cases hname : Identity.ofPath? root call.path with
  | none =>
    rw [Call.startAt, Build.start_start_none (surroundings root naming pipeline) _ _ hname] at hafter
    exact absurd hbefore hafter
  | some identity =>
    obtain ⟨hroot, hrootDown, hbelow⟩ := below_of_plain habsolute hdown hname
    have hnamed : (Build.named call.entry identity state.1).visit = state.1.visit := by
      cases call.entry <;> rfl
    have hexplores := Build.explores_module (surroundings root naming pipeline) depth call.path
      (Build.named call.entry identity state.1, call.change state.2)
    rw [Call.startAt, Build.start_start (surroundings root naming pipeline) _ _ hname,
      Attempt.andThen_pure] at hafter
    have hvisited := hexplores.visited (fixed_surroundings (call.change state.2).tree)
      namesModules_surroundings loadsOnly_surroundings rfl (asks_of_below hname hbelow)
      (fun other hother => .inl (hnamed ▸ hother)) module hafter
    obtain hearlier | ⟨hmodule, hfile⟩ := hvisited
    · exact absurd hbefore hearlier
    · exact ⟨hroot, hrootDown, hmodule, mapError_eq_ok_iff.1 hfile⟩

variable (hgraph : state.1.Consistent) (hstack : state.1.stack = [])

include hgraph hstack

/-- With every module in progress the depth that is left becomes less by one, and no more modules are in
progress than there are files. -/
theorem Call.Comes.height (h : call.Comes root naming pipeline depth state request) :
    request.depth + request.state.1.stack.length = depth ∧
      request.state.1.stack.length ≤ (call.files root state).length := by
  obtain ⟨identity, hname, hrequests⟩ := h
  obtain ⟨hroot, hrootDown, hbelow⟩ := below_of_plain habsolute hdown hname
  have hnames : (surroundings root naming pipeline).NamesModules := namesModules_surroundings
  have hnone : (Build.named call.entry identity state.1).stack = [] := by
    cases call.entry <;> exact hstack
  have hconsistent : (Build.named call.entry identity state.1).Consistent := hgraph.named call.entry
  have hheight := hrequests.height hnames hconsistent
  simp only [hnone, List.length_nil, Nat.add_zero] at hheight
  refine ⟨hheight, ?_⟩
  obtain ⟨rest, hlinked⟩ := Build.linked_of_start hnames hgraph hstack hname hrequests
  have hstacked := hrequests.stacked (fixed_surroundings (call.change state.2).tree) hnames
    loadsOnly_surroundings hconsistent rfl (asks_of_below hname hbelow) (by simp [hnone])
  refine FileTree.length_le_filesUnder hroot hrootDown hlinked.nodup fun other hother => ?_
  exact ⟨(hstacked other hother).1, mapError_eq_ok_iff.1 (hstacked other hother).2⟩

/-- From a depth above the number of files on, a call is the same at any depth. -/
theorem Call.startAt_eq (hdepth : (call.files root state).length < depth) :
    call.startAt root naming pipeline depth state
      = call.startAt root naming pipeline ((call.files root state).length + 1) state := by
  obtain ⟨more, rfl⟩ := Nat.exists_eq_add_of_le' (Nat.succ_le_of_lt hdepth)
  cases hname : Identity.ofPath? root call.path with
  | none =>
    rw [Call.startAt, Call.startAt, Build.start_start_none (surroundings root naming pipeline) _ _ hname,
      Build.start_start_none (surroundings root naming pipeline) _ _ hname]
  | some identity =>
    have hexplores := Build.explores_module (surroundings root naming pipeline)
      ((call.files root state).length + 1) call.path
      (Build.named call.entry identity state.1, call.change state.2)
    have hdeeper := hexplores.deeper none (fun request hrequests => ?_) more
    · rw [Call.startAt, Call.startAt, Build.start_start (surroundings root naming pipeline) _ _ hname,
        Build.start_start (surroundings root naming pipeline) _ _ hname]
      exact congrArg _ (Build.start_module_of_explores hdeeper)
    · have hcomes : call.Comes root naming pipeline ((call.files root state).length + 1) state request :=
        ⟨identity, hname, hrequests⟩
      obtain ⟨hheight, hle⟩ := hcomes.height habsolute hdown hgraph hstack
      omega

theorem Call.ne_tooDeep (hdepth : (call.files root state).length < depth) :
    (call.startAt root naming pipeline depth state).1 ≠ .error .tooDeep := by
  intro h
  rcases Build.exists_request_of_start h with hother | ⟨identity, request, hname, hrequests, hfinds⟩
  · cases hother
  · have hcomes : call.Comes root naming pipeline depth state request := ⟨identity, hname, hrequests⟩
    obtain ⟨hheight, hle⟩ := hcomes.height habsolute hdown hgraph hstack
    have hzero := Build.Finds.depth_eq_zero apart_surroundings hfinds
    omega

end Plain

/-! ### The modules that a call begins -/

/-- The modules whose files were read to process them, one after the other. -/
def begun (steps : List (Step ω)) : List Identity :=
  (steps.filter (·.stage = .read)).map (·.identity)

theorem begun_append (steps new : List (Step ω)) : begun (steps ++ new) = begun steps ++ begun new := by
  simp [begun]

theorem count_begun (steps : List (Step ω)) (identity : Identity) :
    (begun steps).count identity = (stepsOf steps identity).countP (·.stage = .read) := by
  rw [begun, stepsOf, List.count_eq_countP, List.countP_map, List.countP_filter, List.countP_filter]
  refine List.countP_congr fun step _ => ?_
  simp [and_comm]

/-- A module is begun at most one time. -/
theorem nodup_begun (world : World ω) (calls : List (Call ω)) :
    (begun (stepsOfCalls root naming pipeline world calls)).Nodup := by
  refine List.nodup_iff_count_le_one.2 fun identity => ?_
  obtain ⟨path, raw, text, read, parsed, hprefix⟩ :
      ∃ path raw text read parsed, stepsOf (stepsOfCalls root naming pipeline world calls) identity
        <+: allSteps path identity raw text read parsed := stepsOf_watchCalls world calls identity
  rw [count_begun]
  refine hprefix.sublist.countP_le.trans ?_
  simp [allSteps]

/-- The modules that one more call begins were not visited before and are visited afterwards. -/
theorem begun_of_call (world : World ω) (calls : List (Call ω)) (call : Call ω) :
    ∃ new, stepsOfCalls root naming pipeline world (calls ++ [call])
        = stepsOfCalls root naming pipeline world calls ++ new ∧
      ∀ identity ∈ begun new,
        (afterCalls root naming pipeline world calls).1.visit identity = .unvisited ∧
        (afterCalls root naming pipeline world (calls ++ [call])).1.visit identity ≠ .unvisited := by
  have hgraph : ∀ calls, (watchCalls root naming pipeline world calls).1
      = (afterCalls root naming pipeline world calls).1 :=
    fun calls => congrArg Prod.fst (watchCalls_eq world calls)
  have htallied : ∀ calls, (afterCalls root naming pipeline world calls).1.Tallied
      (stepsOf (stepsOfCalls root naming pipeline world calls)) (Leads naming pipeline) :=
    fun calls => hgraph calls ▸ tallied_watchCalls world calls
  obtain ⟨new, hnew, hfresh⟩ : ∃ new, stepsOfCalls root naming pipeline world (calls ++ [call])
      = stepsOfCalls root naming pipeline world calls ++ new ∧
        ∀ step ∈ new, (watchCalls root naming pipeline world calls).1.visit step.identity = .unvisited := by
    rw [stepsOfCalls, watchCalls_append]
    refine (call.tallied_watch ?_ ?_).2
    · rw [hgraph]
      exact (consistent_afterCalls world calls).1
    · exact tallied_watchCalls world calls
  refine ⟨new, hnew, fun identity hmem => ?_⟩
  obtain ⟨step, hstep, rfl⟩ := List.mem_map.1 hmem
  have hread := (List.mem_filter.1 hstep).1
  refine ⟨hgraph calls ▸ hfresh step hread, fun hvisit => ?_⟩
  -- a module that was not visited has no steps, but this one has
  have hnone := (htallied (calls ++ [call])).unvisited _ hvisit
  rw [hnew, stepsOf_append, List.append_eq_nil_iff, stepsOf, stepsOf, List.filter_eq_nil_iff,
    List.filter_eq_nil_iff] at hnone
  exact hnone.2 step hread (by simp)

/-! ### The end of calls -/

/-- A call comes to an end. From a depth above the number of files on it is the same call at any depth, and
no request uses up the depth. At a request no more modules are in progress than there are files, each of
which takes one from the depth; the request itself is through at once, or it begins the work on a module
that was not visited and is a file. -/
structure Call.Finishes (root : FilePath) (naming : Naming) (pipeline : Pipeline ω) (call : Call ω)
    (state : Graph × World ω) : Prop where
  startAt_eq : ∀ depth, (call.files root state).length < depth →
    call.startAt root naming pipeline depth state = call.start root naming pipeline state
  ne_tooDeep : (call.start root naming pipeline state).1 ≠ .error .tooDeep
  nests : ∀ depth request, call.Comes root naming pipeline depth state request →
    request.depth + request.state.1.stack.length = depth ∧
      request.state.1.stack.length ≤ (call.files root state).length
  begins : ∀ depth request, (call.files root state).length < depth →
    call.Comes root naming pipeline depth state request →
      (∃ identity, Build.Begins (surroundings root naming pipeline) request identity) ∨
        Build.AtOnce (surroundings root naming pipeline) request

theorem Call.finishes (hgraph : state.1.Consistent) (hstack : state.1.stack = [])
    (habsolute : call.path.isAbsolute = true) (hdown : Component.parent ∉ call.path.parts) :
    call.Finishes root naming pipeline state := by
  have hfiles : (call.files root state).length < (call.change state.2).tree.nodes.length + 2 := by
    have hle : (call.files root state).length ≤ (call.change state.2).tree.nodes.length :=
      FileTree.length_filesUnder _ root
    omega
  refine ⟨fun depth hdepth => ?_, ?_, fun depth request hcomes => ?_, fun depth request hdepth hcomes => ?_⟩
  · rw [Call.start_eq_startAt, Call.startAt_eq habsolute hdown hgraph hstack hdepth,
      Call.startAt_eq habsolute hdown hgraph hstack hfiles]
  · rw [Call.start_eq_startAt]
    exact Call.ne_tooDeep habsolute hdown hgraph hstack hfiles
  · exact hcomes.height habsolute hdown hgraph hstack
  · refine Build.begins_or_atOnce ?_
    obtain ⟨hheight, hle⟩ := hcomes.height habsolute hdown hgraph hstack
    omega

/-- After any calls, a call for a path that is absolute and has no step upwards comes to an end, however
the modules load one another. The modules that it begins the work on are different ones, none of which was
visited before and each of which is a file, so they are no more than there are files under the root. -/
theorem finishes_of_calls (root : FilePath) (naming : Naming) (pipeline : Pipeline ω) (world : World ω)
    (calls : List (Call ω)) (call : Call ω) (habsolute : call.path.isAbsolute = true)
    (hdown : Component.parent ∉ call.path.parts) :
    call.Finishes root naming pipeline (afterCalls root naming pipeline world calls) ∧
      ∃ new, stepsOfCalls root naming pipeline world (calls ++ [call])
          = stepsOfCalls root naming pipeline world calls ++ new ∧
        (begun new).Nodup ∧
        (∀ identity ∈ begun new,
          (afterCalls root naming pipeline world calls).1.visit identity = .unvisited ∧
          (call.change (afterCalls root naming pipeline world calls).2).tree.isFile (identity.path root)
            = .ok true) ∧
        (begun new).length ≤ (call.files root (afterCalls root naming pipeline world calls)).length := by
  obtain ⟨hgraph, hstack⟩ : (afterCalls root naming pipeline world calls).1.Consistent ∧
      (afterCalls root naming pipeline world calls).1.stack = [] := consistent_afterCalls world calls
  have hfinishes : call.Finishes root naming pipeline (afterCalls root naming pipeline world calls) :=
    call.finishes hgraph hstack habsolute hdown
  refine ⟨hfinishes, ?_⟩
  obtain ⟨new, hnew, hbegun⟩ : ∃ new, stepsOfCalls root naming pipeline world (calls ++ [call])
      = stepsOfCalls root naming pipeline world calls ++ new ∧
        ∀ identity ∈ begun new,
          (afterCalls root naming pipeline world calls).1.visit identity = .unvisited ∧
          (afterCalls root naming pipeline world (calls ++ [call])).1.visit identity ≠ .unvisited :=
    begun_of_call world calls call
  have hfile : ∀ identity ∈ begun new, root.isAbsolute = true ∧ Component.parent ∉ root.parts ∧
      Below identity ∧ (call.change (afterCalls root naming pipeline world calls).2).tree.isFile
        (identity.path root) = .ok true := by
    intro identity hmem
    obtain ⟨hbefore, hafter⟩ := hbegun identity hmem
    rw [afterCalls_append, Call.start_eq_startAt] at hafter
    exact Call.isFile_of_visited habsolute hdown hbefore hafter
  have hnodup : (begun new).Nodup := by
    have hall : (begun (stepsOfCalls root naming pipeline world (calls ++ [call]))).Nodup :=
      nodup_begun world (calls ++ [call])
    rw [hnew, begun_append] at hall
    exact (List.nodup_append.1 hall).2.1
  refine ⟨new, hnew, hnodup, fun identity hmem => ⟨(hbegun identity hmem).1, ?_⟩, ?_⟩
  · exact (hfile identity hmem).2.2.2
  · rcases hempty : begun new with _ | ⟨first, rest⟩
    · exact Nat.zero_le _
    · obtain ⟨hroot, hrootDown, -⟩ := hfile first (by simp [hempty])
      rw [← hempty]
      exact FileTree.length_le_filesUnder hroot hrootDown hnodup
        fun identity hmem => (hfile identity hmem).2.2

/-- After a call that failed, one that comes to modules that load each other: it ends with the same cycle at
any depth above the number of files, and has begun the work on no more modules. -/
theorem finishes_of_calls_tangled :
    oddCall.path.isAbsolute = true ∧ Component.parent ∉ oddCall.path.parts ∧
      (oddCall.files ⟨.root, []⟩ (afterCalls ⟨.root, []⟩ {} [] tangledWorld [gapCall])).length = 4 ∧
      (oddCall.startAt ⟨.root, []⟩ {} [] 5 (afterCalls ⟨.root, []⟩ {} [] tangledWorld [gapCall])).1
        = .error (.bundle (.cycle ["./odd.py", "./even.py", "./odd.py"])) ∧
      ∃ new, stepsOfCalls ⟨.root, []⟩ {} [] tangledWorld ([gapCall] ++ [oddCall])
          = stepsOfCalls ⟨.root, []⟩ {} [] tangledWorld [gapCall] ++ new ∧
        (begun new).Nodup ∧ (begun new).length ≤ 4 := by
  have habsolute : oddCall.path.isAbsolute = true := rfl
  have hdown : Component.parent ∉ oddCall.path.parts := by decide +kernel
  have hfiles : (oddCall.files ⟨.root, []⟩
      (afterCalls ⟨.root, []⟩ {} [] tangledWorld [gapCall])).length = 4 := by decide +kernel
  obtain ⟨hfinishes, new, hnew, hnodup, -, hlength⟩ :=
    finishes_of_calls ⟨.root, []⟩ {} [] tangledWorld [gapCall] oddCall habsolute hdown
  have hcycle : outcomeAfter ⟨.root, []⟩ {} [] tangledWorld [gapCall] oddCall
      = .error (.bundle (.cycle ["./odd.py", "./even.py", "./odd.py"])) :=
    eq_of_cycle? (by decide +kernel)
  refine ⟨habsolute, hdown, hfiles, ?_, new, hnew, hnodup, hfiles ▸ hlength⟩
  rw [hfinishes.startAt_eq 5 (by rw [hfiles]; decide)]
  exact hcycle

end Processing
end Bundler
