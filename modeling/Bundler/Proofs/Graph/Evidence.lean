import Bundler.Proofs.Graph.Requests
import Mathlib.Data.List.Chain

/-!
# What the faults of a graph show

On the way to a request the modules in progress on the stack are a simple path: they differ, and each is
loaded by the one that it lies in, whatever calls before left behind (`Linked`). So the cycle that a call
reports is one of modules each of which loads the next (`isLoop_of_start`), and a module reported as
missing is loaded by the module named, after modules that are done (`missing_of_start`).
-/

namespace Bundler

variable {σ ε : Type}

/-- The elements are different but for the last one, which is the first one again, and each is in this
relation to the next. -/
structure IsLoop {α : Type} (step : α → α → Prop) (loop : List α) : Prop where
  two_le_length : 2 ≤ loop.length
  head?_eq_getLast? : loop.head? = loop.getLast?
  nodup_dropLast : loop.dropLast.Nodup
  isChain : loop.IsChain step

namespace Build

/-- Processing a module at a request gives the modules that it loads. -/
inductive Processes (around : Surroundings σ ε) : Request σ → Identity → List Identity → Prop
  | intro {depth importer path graph state identity looked code dependencies processed}
      (hname : Identity.ofPath? around.root path = some identity)
      (hvisit : graph.visit identity = .unvisited)
      (hfile : (around.isFile path).start state = (.ok true, looked))
      (hprocess : (around.process path identity).start looked = (.ok (code, dependencies), processed)) :
      Processes around ⟨depth + 1, importer, path, (graph, state)⟩ identity dependencies

/-- Processing a module inside a call gives the modules that it loads. -/
def Gives (around : Surroundings σ ε) (depth : Nat) (entry : Option String) (path : FilePath)
    (before : Graph × σ) (identity : Identity) (dependencies : List Identity) : Prop :=
  ∃ called request, Identity.ofPath? around.root path = some called ∧
    Requests around depth none [path] (named entry called before.1, before.2) request ∧
    Processes around request identity dependencies

/-- What processing the one module gives has the other one. -/
def Lists (gives : Identity → List Identity → Prop) (outer inner : Identity) : Prop :=
  ∃ dependencies, gives outer dependencies ∧ inner ∈ dependencies

def Named (root : FilePath) (gives : Identity → List Identity → Prop) : Prop :=
  ∀ identity dependencies, gives identity dependencies → ∀ dependency ∈ dependencies,
    Identity.ofPath? root (dependency.path root) = some dependency

/-- The modules in progress are a simple path, each loaded by the one that it lies in. The files asked for
next are those of the modules that the innermost one loads after modules that are done. -/
structure Linked (root : FilePath) (gives : Identity → List Identity → Prop) (graph : Graph)
    (paths : List FilePath) : Prop where
  inProgress : ∀ identity ∈ graph.stack, graph.visit identity = .inProgress
  nodup : graph.stack.Nodup
  isChain : graph.stack.IsChain fun inner outer => Lists gives outer inner
  asked : ∀ loader, graph.stack.head? = some loader → ∃ earlier later,
    gives loader (earlier ++ later) ∧ paths = later.map (Identity.path root) ∧
      ∀ dependency ∈ earlier, graph.visit dependency = .done

section Linked

variable {root : FilePath} {gives : Identity → List Identity → Prop} {graph later : Graph}
  {path : FilePath} {rest : List FilePath} {identity loader : Identity} {dependencies : List Identity}

/-- With nothing on the stack any files may be asked for. -/
theorem Linked.of_stack_eq_nil (hstack : graph.stack = []) (paths : List FilePath) :
    Linked root gives graph paths := by
  refine ⟨?_, ?_, ?_, ?_⟩ <;> simp [hstack]

/-- The module asked for is loaded by the innermost module in progress, after modules that are done. -/
theorem Linked.listed (hnamed : Named root gives) (h : Linked root gives graph (path :: rest))
    (hname : Identity.ofPath? root path = some identity) (hloader : graph.stack.head? = some loader) :
    ∃ earlier later, gives loader (earlier ++ identity :: later) ∧
      rest = later.map (Identity.path root) ∧
      ∀ dependency ∈ earlier, graph.visit dependency = .done := by
  obtain ⟨earlier, later, hgives, hpaths, hdone⟩ := h.asked loader hloader
  cases later with
  | nil => cases hpaths
  | cons dependency later =>
    obtain ⟨rfl, rfl⟩ := List.cons.inj hpaths
    have hdependency := hnamed loader _ hgives dependency (by simp)
    obtain rfl := Option.some.inj (hdependency.symm.trans hname)
    exact ⟨earlier, later, hgives, rfl, hdone⟩

theorem Linked.lists (hnamed : Named root gives) (h : Linked root gives graph (path :: rest))
    (hname : Identity.ofPath? root path = some identity) (hloader : graph.stack.head? = some loader) :
    Lists gives loader identity := by
  obtain ⟨earlier, later, hgives, -⟩ := h.listed hnamed hname hloader
  exact ⟨_, hgives, by simp⟩

/-- Beginning the work on the module asked for makes the path longer by it. -/
theorem Linked.enter (hnamed : Named root gives) (h : Linked root gives graph (path :: rest))
    (hname : Identity.ofPath? root path = some identity) (hvisit : graph.visit identity = .unvisited)
    (hgives : gives identity dependencies) :
    Linked root gives (graph.enter identity) (dependencies.map (Identity.path root)) where
  inProgress other hother := by
    rw [Graph.visit_enter]
    split
    · rfl
    · next hne =>
      rw [Graph.stack_enter, List.mem_cons] at hother
      exact h.inProgress other (hother.resolve_left hne)
  nodup := by
    rw [Graph.stack_enter, List.nodup_cons]
    refine ⟨fun hmem => ?_, h.nodup⟩
    rw [h.inProgress identity hmem] at hvisit
    cases hvisit
  isChain := by
    rw [Graph.stack_enter, List.isChain_cons]
    exact ⟨fun loader hloader => h.lists hnamed hname hloader, h.isChain⟩
  asked loader hloader := by
    obtain rfl := Option.some.inj hloader
    exact ⟨[], dependencies, hgives, rfl, by simp⟩

theorem Linked.next (hnamed : Named root gives) (h : Linked root gives graph (path :: rest))
    (hname : Identity.ofPath? root path = some identity) (hvisit : later.visit identity = .done)
    (hgrows : graph.Grows later)
    (hdone : ∀ other, graph.visit other = .done → later.visit other = .done) :
    Linked root gives later rest where
  inProgress other hother := hgrows.inProgress other (h.inProgress other (hgrows.stack ▸ hother))
  nodup := hgrows.stack ▸ h.nodup
  isChain := hgrows.stack ▸ h.isChain
  asked loader hloader := by
    obtain ⟨earlier, others, hgives, hrest, hearlier⟩ := h.listed hnamed hname (hgrows.stack ▸ hloader)
    refine ⟨earlier ++ [identity], others, by simpa using hgives, hrest, ?_⟩
    rw [List.forall_mem_append, List.forall_mem_singleton]
    exact ⟨fun other hother => hdone other (hearlier other hother), hvisit⟩

/-- A module on the path that is asked for closes a loop: the path from it on, and it again. -/
theorem Linked.isLoop (hnamed : Named root gives) (h : Linked root gives graph (path :: rest))
    (hname : Identity.ofPath? root path = some identity) (hmem : identity ∈ graph.stack) :
    IsLoop (Lists gives) (graph.stack.reverse.dropWhile (· ≠ identity) ++ [identity]) := by
  obtain ⟨inner, outer, hstack⟩ := List.append_of_mem hmem
  have hpath : (inner ++ [identity]) <+: graph.stack := ⟨outer, by simp [hstack]⟩
  have houter : ∀ other ∈ outer.reverse, decide (other ≠ identity) = true := by
    intro other hother
    have hnodup := hstack ▸ h.nodup
    rw [List.nodup_append] at hnodup
    rw [decide_eq_true_eq]
    rintro rfl
    exact (List.nodup_cons.1 hnodup.2.1).1 (List.mem_reverse.1 hother)
  have hfrom : graph.stack.reverse.dropWhile (· ≠ identity) = (inner ++ [identity]).reverse := by
    rw [hstack, List.reverse_append, List.reverse_cons, List.append_assoc,
      List.dropWhile_append_of_pos houter]
    simp
  rw [hfrom]
  refine ⟨by simp, ?_, ?_, ?_⟩
  · rw [List.getLast?_concat, List.reverse_append]
    rfl
  · rw [List.dropLast_concat, List.nodup_reverse]
    exact h.nodup.sublist hpath.sublist
  · have hchain := h.isChain
    rw [hstack, List.append_cons] at hchain
    refine List.isChain_append.2
      ⟨List.isChain_reverse.2 (List.isChain_append.1 hchain).1, .singleton _, ?_⟩
    intro loader hloader last hlast
    obtain rfl : identity = last := by simpa using hlast
    refine h.lists hnamed hname ?_
    rw [List.getLast?_reverse] at hloader
    rw [hstack]
    cases inner with
    | nil => exact hloader
    | cons innermost _ => exact hloader

end Linked

/-! ### Along the calls inside a call -/

variable {around : Surroundings σ ε} {depth : Nat} {importer : Option Identity} {paths : List FilePath}
  {path : FilePath} {before after : Graph × σ} {result : Except ε Unit} {request : Request σ}
  {identity : Identity} {dependencies : List Identity}

theorem named_gives (hnames : around.NamesModules) (entry : Option String) :
    Named around.root (Gives around depth entry path before) := by
  rintro identity dependencies ⟨called, request, -, -, hprocesses⟩ dependency hdependency
  cases hprocesses with
  | intro hname _ _ hprocess => exact hnames _ _ _ _ _ _ hname hprocess dependency hdependency

/-- The stack only becomes longer on the way to a request. -/
theorem Requests.suffix (hnames : around.NamesModules)
    (h : Requests around depth importer paths before request) (hbefore : before.1.Consistent) :
    before.1.stack <:+ request.state.1.stack := by
  induction h with
  | first => exact List.suffix_rfl
  | inner _ hvisit _ _ _ ih => exact (List.suffix_cons _ _).trans (ih (hbefore.enter hvisit))
  | @next depth importer path rest before between request hfirst _ ih =>
    have hexplores := explores_of_module hfirst
    obtain ⟨hbetween, hgrows, -⟩ := hexplores.consistent hnames hbefore
    exact hgrows.stack ▸ ih hbetween

theorem Requests.linked (hnames : around.NamesModules) {gives : Identity → List Identity → Prop}
    (hnamed : Named around.root gives) (h : Requests around depth importer paths before request)
    (hgives : ∀ request identity dependencies, Requests around depth importer paths before request →
      Processes around request identity dependencies → gives identity dependencies)
    (hbefore : before.1.Consistent) (hlinked : Linked around.root gives before.1 paths) :
    ∃ rest, Linked around.root gives request.state.1 (request.path :: rest) := by
  induction h with
  | first => exact ⟨_, hlinked⟩
  | inner hname hvisit hfile hprocess _ ih =>
    have hentered := hlinked.enter hnamed hname hvisit
      (hgives _ _ _ .first (.intro hname hvisit hfile hprocess))
    refine ih (fun request identity dependencies hinner => ?_) (hbefore.enter hvisit) hentered
    exact hgives request identity dependencies (.inner hname hvisit hfile hprocess hinner)
  | @next depth importer path rest before between request hfirst _ ih =>
    have hexplores := explores_of_module hfirst
    obtain ⟨hbetween, hgrows, -⟩ := hexplores.consistent hnames hbefore
    obtain ⟨hdone, hasked⟩ := hexplores.done
    obtain ⟨identity, hname, hvisit⟩ := hasked rfl path List.mem_cons_self
    have hothers := hlinked.next hnamed hname hvisit hgrows hdone
    refine ih (fun request identity dependencies hrest => ?_) hbetween hothers
    exact hgives request identity dependencies (.next hfirst hrest)

theorem Requests.done (h : Requests around depth importer paths before request)
    (hdone : request.state.1.visit identity = .done) :
    (Attempt.start (paths.forM (module around depth)) before).2.1.visit identity = .done := by
  induction h with
  | first => exact (explores_forM around _ _ _).done.1 identity hdone
  | @inner depth importer path rest graph state called looked code dependencies processed request
      hname hvisit hfile hprocess _ ih =>
    have hinner := ih hdone
    rw [Attempt.start_forM_cons, start_module_unvisited hname hvisit,
      start_begin around _ _ hfile hprocess]
    revert hinner
    rcases Attempt.start (List.forM _ _) _ with ⟨fault | ⟨⟩, inner, last⟩
    · exact fun hinner => hinner
    · intro hinner
      refine (explores_forM around _ _ _).done.1 identity ?_
      rw [Graph.visit_record]
      split
      · rfl
      · exact hinner
  | next hfirst _ ih =>
    rw [Attempt.start_forM_cons, hfirst, Attempt.andThen_ok]
    exact ih hdone

/-- Inside a call for one file, a request is the call itself, or the file is there and one of the modules
in progress. -/
theorem Requests.eq_or_isFile (hnames : around.NamesModules) (hbefore : before.1.Consistent)
    (h : Requests around depth importer [path] before request) :
    request = ⟨depth, importer, path, before⟩ ∨
      ((around.isFile path).start before.2).1 = .ok true ∧ request.state.1.stack ≠ [] := by
  cases h with
  | first => exact .inl rfl
  | inner hname hvisit hfile hprocess hinner =>
    have hsuffix := hinner.suffix hnames (hbefore.enter hvisit)
    refine .inr ⟨congrArg Prod.fst hfile, fun hstack => ?_⟩
    rw [hstack, Graph.stack_enter, List.suffix_nil] at hsuffix
    cases hsuffix
  | next _ hrest => cases hrest

end Build

/-! ### The faults of calls -/

/-- The faults of building are not mixed up, neither with one another nor with those that looking at files
and processing modules end with. -/
structure Surroundings.Apart (around : Surroundings σ ε) : Prop where
  injective : Function.Injective around.fault
  isFile : ∀ path state fault, ((around.isFile path).start state).1 ≠ .error (around.fault fault)
  process : ∀ path identity state fault,
    ((around.process path identity).start state).1 ≠ .error (around.fault fault)

namespace Build

variable {around : Surroundings σ ε} {fits : σ → Prop} {answer : FilePath → Except ε Bool} {depth : Nat}
  {entry : Option String} {path : FilePath} {graph : Graph} {state : σ} {request : Request σ}
  {identity : Identity} {importer : Option Identity} {identities : List Identity}

theorem Finds.of_cycle (hapart : around.Apart)
    (h : Finds around request (around.fault (.cycle identities))) :
    ∃ identity, Identity.ofPath? around.root request.path = some identity ∧
      identity ∈ request.state.1.stack ∧
      identities = request.state.1.stack.reverse.dropWhile (· ≠ identity) ++ [identity] := by
  generalize hfault : around.fault (.cycle identities) = fault at h
  cases h with
  | tooDeep | outside | missing => cases hapart.injective hfault
  | @cycle depth importer path graph state identity hname hvisit =>
    have hcycle := hapart.injective hfault
    rw [Graph.cycleAt] at hcycle
    split at hcycle
    · next hmem =>
      cases hcycle
      exact ⟨identity, hname, List.contains_iff_mem.1 hmem, rfl⟩
    · cases hcycle
  | unreadable _ _ hfile => exact absurd (congrArg Prod.fst hfile) (hfault ▸ hapart.isFile _ _ _)
  | unprocessed _ _ _ hprocess =>
    exact absurd (congrArg Prod.fst hprocess) (hfault ▸ hapart.process _ _ _ _)

theorem Finds.of_missing (hapart : around.Apart)
    (h : Finds around request (around.fault (.missing identity importer))) :
    Identity.ofPath? around.root request.path = some identity ∧
      request.state.1.visit identity = .unvisited ∧
      ((around.isFile request.path).start request.state.2).1 = .ok false ∧
      importer = request.state.1.stack.head? := by
  generalize hfault : around.fault (.missing identity importer) = fault at h
  cases h with
  | tooDeep | outside => cases hapart.injective hfault
  | @cycle depth importer path graph state identity hname hvisit =>
    have hcycle := hapart.injective hfault
    rw [Graph.cycleAt] at hcycle
    split at hcycle
    · cases hcycle
    · cases hcycle
  | missing hname hvisit hfile =>
    cases hapart.injective hfault
    exact ⟨hname, hvisit, congrArg Prod.fst hfile, rfl⟩
  | unreadable _ _ hfile => exact absurd (congrArg Prod.fst hfile) (hfault ▸ hapart.isFile _ _ _)
  | unprocessed _ _ _ hprocess =>
    exact absurd (congrArg Prod.fst hprocess) (hfault ▸ hapart.process _ _ _ _)

theorem linked_of_start (hnames : around.NamesModules) (hgraph : graph.Consistent)
    (hstack : graph.stack = []) {called : Identity}
    (hcalled : Identity.ofPath? around.root path = some called)
    (h : Requests around depth none [path] (named entry called graph, state) request) :
    ∃ rest, Linked around.root (Gives around depth entry path (graph, state)) request.state.1
      (request.path :: rest) := by
  have hnone : (named entry called graph).stack = [] := by
    cases entry <;> exact hstack
  refine h.linked hnames (named_gives hnames entry) (fun other identity dependencies hother hgives => ?_)
    (hgraph.named entry) (.of_stack_eq_nil hnone _)
  exact ⟨called, other, hcalled, hother, hgives⟩

theorem isLoop_of_start (hapart : around.Apart) (hnames : around.NamesModules)
    (hgraph : graph.Consistent) (hstack : graph.stack = [])
    (h : (Attempt.start (start around depth entry path) (graph, state)).1
      = .error (around.fault (.cycle identities))) :
    IsLoop (Lists (Gives around depth entry path (graph, state))) identities := by
  rcases exists_request_of_start h with hother | ⟨called, request, hcalled, hrequests, hfinds⟩
  · cases hapart.injective hother
  obtain ⟨identity, hname, hmem, rfl⟩ := hfinds.of_cycle hapart
  obtain ⟨rest, hlinked⟩ := linked_of_start hnames hgraph hstack hcalled hrequests
  exact hlinked.isLoop (named_gives hnames entry) hname hmem

/-- A module that a call reports as missing is no file. No importer is named just when it is the module
called for; an importer loads it, and all modules that it loads before that one are recorded. -/
theorem missing_of_start (hapart : around.Apart) (hnames : around.NamesModules)
    (haround : around.Fixed fits answer) (hgraph : graph.Consistent) (hstack : graph.stack = [])
    (hstate : fits state)
    (h : (Attempt.start (start around depth entry path) (graph, state)).1
      = .error (around.fault (.missing identity importer))) :
    answer (identity.path around.root) = .ok false ∧
      (importer = none ↔ Identity.ofPath? around.root path = some identity) ∧
      ∀ loader, importer = some loader → ∃ earlier later,
        Gives around depth entry path (graph, state) loader (earlier ++ identity :: later) ∧
        identity ∉ earlier ∧ ∀ dependency ∈ earlier,
          dependency ∈ (Attempt.start (start around depth entry path) (graph, state)).2.1.identities := by
  rcases exists_request_of_start h with hother | ⟨called, request, hcalled, hrequests, hfinds⟩
  · cases hapart.injective hother
  obtain ⟨hname, hvisit, hfile, rfl⟩ := hfinds.of_missing hapart
  have hnone : (named entry called graph).stack = [] := by
    cases entry <;> exact hstack
  have hmissing : answer request.path = .ok false :=
    ((haround.isFile request.path _ (hrequests.fits haround hstate)).1).symm.trans hfile
  refine ⟨Identity.path_of_ofPath? hname ▸ hmissing, ?_, fun loader hloader => ?_⟩
  · rcases hrequests.eq_or_isFile hnames (hgraph.named entry) with rfl | ⟨hthere, hne⟩
    · simp [hnone, hname]
    · -- the file called for is there, so that it is not the missing one
      have hanswer : answer path = .ok true := ((haround.isFile path _ hstate).1).symm.trans hthere
      rw [List.head?_eq_none_iff]
      refine iff_of_false hne fun hsame => ?_
      rw [← Identity.path_of_ofPath? hname, Identity.path_of_ofPath? hsame, hanswer] at hmissing
      cases hmissing
  · obtain ⟨rest, hlinked⟩ := linked_of_start hnames hgraph hstack hcalled hrequests
    obtain ⟨earlier, later, hgives, -, hdone⟩ :=
      hlinked.listed (named_gives hnames entry) hname hloader
    refine ⟨earlier, later, hgives, fun hmem => ?_, fun dependency hmem => ?_⟩
    · rw [hdone identity hmem] at hvisit
      cases hvisit
    · have hafter := (explores_forM around depth [path] (named entry called graph, state)).consistent
        hnames (hgraph.named entry)
      rw [start_start around graph state hcalled, Attempt.andThen_pure, ← start_forM_singleton]
      exact (hafter.1.done_iff dependency).1 (hrequests.done (hdone dependency hmem))

end Build
end Bundler
