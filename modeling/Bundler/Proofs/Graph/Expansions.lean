import Bundler.Proofs.Graph.Evidence
import Bundler.Proofs.Graph.Exploration

/-!
# The modules that a call expands

A request either is through at once or begins the work on a module that was not visited before
(`begins_or_atOnce`). All modules visited are files of the kind that is asked for (`Explores.visited`), and so
are the different ones in progress at a request (`Requests.stacked`). Where the depth is more than there can be
of them, no request uses it up, and a greater one makes no difference (`Explores.deeper`).
-/

namespace Bundler

variable {σ ε : Type}

namespace Build

variable {around : Surroundings σ ε} {fits : σ → Prop} {answer : FilePath → Except ε Bool}
  {below : Identity → Prop} {depth : Nat} {importer : Option Identity} {paths : List FilePath}
  {before after : Graph × σ} {result : Except ε Unit} {request : Request σ} {identity : Identity}

/-! ### The depth -/

/-- As long as no request uses up the depth, a greater one makes no difference. -/
theorem Explores.deeper (h : Explores around depth paths before result after) (importer : Option Identity)
    (hdepth : ∀ request, Requests around depth importer paths before request → request.depth ≠ 0)
    (more : Nat) : Explores around (more + depth) paths before result after := by
  induction h generalizing importer with
  | nothing => exact .nothing _ _
  | tooDeep => exact absurd rfl (hdepth _ .first)
  | outside hname => exact .outside hname
  | known hname hvisit _ ih =>
    refine .known hname hvisit (ih importer fun request hrequest => ?_)
    exact hdepth request (.next (start_module_done hname hvisit) hrequest)
  | cycle hname hvisit => exact .cycle hname hvisit
  | unreadable hname hvisit hfile => exact .unreadable hname hvisit hfile
  | missing hname hvisit hfile => exact .missing hname hvisit hfile
  | unprocessed hname hvisit hfile hprocess => exact .unprocessed hname hvisit hfile hprocess
  | broken hname hvisit hfile hprocess _ ih =>
    exact .broken hname hvisit hfile hprocess (ih _ fun request hrequest =>
      hdepth request (.inner hname hvisit hfile hprocess hrequest))
  | recorded hname hvisit hfile hprocess hinner _ ihInner ihRest =>
    have hfirst := start_module_of_explores (.recorded hname hvisit hfile hprocess hinner (.nothing _ _))
    have hinner := ihInner _ fun request hrequest =>
      hdepth request (.inner hname hvisit hfile hprocess hrequest)
    have hrest := ihRest importer fun request hrequest => hdepth request (.next hfirst hrequest)
    exact .recorded hname hvisit hfile hprocess hinner hrest

/-- Nothing but a request that uses up the depth ends with the fault that it is used up. -/
theorem Finds.depth_eq_zero (hapart : around.Apart) (h : Finds around request (around.fault .tooDeep)) :
    request.depth = 0 := by
  generalize hfault : around.fault .tooDeep = fault at h
  cases h with
  | tooDeep => rfl
  | outside | missing => cases hapart.injective hfault
  | @cycle depth importer path graph state identity hname hvisit =>
    have hcycle := hapart.injective hfault
    rw [Graph.cycleAt] at hcycle
    split at hcycle <;> cases hcycle
  | unreadable _ _ hfile => exact absurd (congrArg Prod.fst hfile) (hfault ▸ hapart.isFile _ _ _)
  | unprocessed _ _ _ hprocess =>
    exact absurd (congrArg Prod.fst hprocess) (hfault ▸ hapart.process _ _ _ _)

/-- With every module in progress the depth that is left becomes less by one. -/
theorem Requests.height (hnames : around.NamesModules)
    (h : Requests around depth importer paths before request) (hbefore : before.1.Consistent) :
    request.depth + request.state.1.stack.length = depth + before.1.stack.length := by
  induction h with
  | first => rfl
  | inner _ hvisit _ _ _ ih =>
    rw [ih (hbefore.enter hvisit)]
    simp only [Graph.stack_enter, List.length_cons]
    omega
  | @next depth importer path rest before between request hfirst _ ih =>
    have hexplores := explores_of_module hfirst
    obtain ⟨hbetween, hgrows, -⟩ := hexplores.consistent hnames hbefore
    exact hgrows.stack ▸ ih hbetween

/-! ### The modules that are begun -/

/-- The files asked for are named by modules of a kind, where they are named at all. -/
def Asks (around : Surroundings σ ε) (below : Identity → Prop) (paths : List FilePath) : Prop :=
  ∀ path ∈ paths, ∀ identity, Identity.ofPath? around.root path = some identity → below identity

theorem Asks.rest {path : FilePath} (h : Asks around below (path :: paths)) : Asks around below paths :=
  fun other hother => h other (List.mem_cons_of_mem _ hother)

theorem asks_dependencies (hnames : around.NamesModules) (hbelow : around.LoadsOnly below)
    {path : FilePath} {looked processed : σ} {code : String} {dependencies : List Identity}
    (hname : Identity.ofPath? around.root path = some identity)
    (hprocess : (around.process path identity).start looked = (.ok (code, dependencies), processed)) :
    Asks around below (dependencies.map (Identity.path around.root)) := by
  intro path hpath other hother
  obtain ⟨dependency, hmem, rfl⟩ := List.mem_map.1 hpath
  cases (hnames _ _ _ _ _ _ hname hprocess dependency hmem).symm.trans hother
  exact hbelow _ _ _ _ _ _ hname hprocess other hmem

/-- The modules in progress at a request are files of a kind, if those asked for are of this kind. -/
theorem Requests.stacked (haround : around.Fixed fits answer) (hnames : around.NamesModules)
    (hbelow : around.LoadsOnly below) (h : Requests around depth importer paths before request)
    (hbefore : before.1.Consistent) (hstate : fits before.2) (hpaths : Asks around below paths)
    (hstack : ∀ identity ∈ before.1.stack, below identity ∧ answer (identity.path around.root) = .ok true) :
    ∀ identity ∈ request.state.1.stack, below identity ∧ answer (identity.path around.root) = .ok true := by
  induction h with
  | first => exact hstack
  | @inner depth importer path rest graph state identity looked code dependencies processed request
      hname hvisit hfile hprocess _ ih =>
    obtain ⟨hanswer, hlooked⟩ := haround.isFile_of_start hstate hfile
    refine ih (hbefore.enter hvisit) (haround.fits_of_process hlooked hprocess)
      (asks_dependencies hnames hbelow hname hprocess) ?_
    rw [Graph.stack_enter, List.forall_mem_cons, Identity.path_of_ofPath? hname]
    exact ⟨⟨hpaths path List.mem_cons_self identity hname, hanswer⟩, hstack⟩
  | @next depth importer path rest before between request hfirst _ ih =>
    have hexplores := explores_of_module hfirst
    obtain ⟨hbetween, hgrows, -⟩ := hexplores.consistent hnames hbefore
    exact ih hbetween (hexplores.fits haround hstate) hpaths.rest (hgrows.stack ▸ hstack)

theorem Explores.visited (haround : around.Fixed fits answer) (hnames : around.NamesModules)
    (hbelow : around.LoadsOnly below) (h : Explores around depth paths before result after)
    (hstate : fits before.2) (hpaths : Asks around below paths) {earlier : Identity → Prop}
    (hbefore : ∀ identity, before.1.visit identity ≠ .unvisited →
      earlier identity ∨ below identity ∧ answer (identity.path around.root) = .ok true) :
    ∀ identity, after.1.visit identity ≠ .unvisited →
      earlier identity ∨ below identity ∧ answer (identity.path around.root) = .ok true := by
  have henter : ∀ {path : FilePath} {rest : List FilePath} {identity : Identity} {graph : Graph},
      Asks around below (path :: rest) → Identity.ofPath? around.root path = some identity →
      answer path = .ok true →
      (∀ identity, graph.visit identity ≠ .unvisited →
        earlier identity ∨ below identity ∧ answer (identity.path around.root) = .ok true) →
      ∀ other, (graph.enter identity).visit other ≠ .unvisited →
        earlier other ∨ below other ∧ answer (other.path around.root) = .ok true := by
    intro path rest identity graph hasks hname hanswer hgraph other hvisit
    rw [Graph.visit_enter] at hvisit
    split at hvisit
    · next heq =>
      rw [heq, Identity.path_of_ofPath? hname]
      exact .inr ⟨hasks path List.mem_cons_self identity hname, hanswer⟩
    · exact hgraph other hvisit
  induction h with
  | nothing | tooDeep | outside | cycle | unreadable | missing => exact hbefore
  | known _ _ _ ih => exact ih hstate hpaths.rest hbefore
  | unprocessed hname _ hfile _ =>
    exact henter hpaths hname (haround.isFile_of_start hstate hfile).1 hbefore
  | broken hname _ hfile hprocess _ ih =>
    obtain ⟨hanswer, hlooked⟩ := haround.isFile_of_start hstate hfile
    exact ih (haround.fits_of_process hlooked hprocess) (asks_dependencies hnames hbelow hname hprocess)
      (henter hpaths hname hanswer hbefore)
  | @recorded depth path rest graph state identity looked code dependencies processed inner last result
      after hname _ hfile hprocess hinner _ ihInner ihRest =>
    obtain ⟨hanswer, hlooked⟩ := haround.isFile_of_start hstate hfile
    have hprocessed := haround.fits_of_process hlooked hprocess
    have hentered := henter hpaths hname hanswer hbefore
    have hvisited := ihInner hprocessed (asks_dependencies hnames hbelow hname hprocess) hentered
    refine ihRest (hinner.fits haround hprocessed) hpaths.rest fun other hother => ?_
    rw [Graph.visit_record] at hother
    split at hother
    · next heq => exact hentered other (by simp [Graph.visit_enter, heq])
    · exact hvisited other hother

/-! ### What a request does -/

/-- The work on a module after it is marked. -/
def work (around : Surroundings σ ε) (next : FilePath → Build σ ε Unit) (path : FilePath)
    (identity : Identity) : Build σ ε Unit := do
  let module ← (expand around next path identity).ensuring fun state => (state.1.leave, state.2)
  change (.record module)

/-- The request is for a module that was not visited before and whose file exists. The module is marked as
in progress, and then the work on it is done. -/
structure Begins (around : Surroundings σ ε) (request : Request σ) (identity : Identity) : Prop where
  name : Identity.ofPath? around.root request.path = some identity
  unvisited : request.state.1.visit identity = .unvisited
  isFile : ((around.isFile request.path).start request.state.2).1 = .ok true
  marks : Attempt.start (module around request.depth request.path) request.state
    = Attempt.start (work around (module around (request.depth - 1)) request.path identity)
      (request.state.1.enter identity, ((around.isFile request.path).start request.state.2).2)

/-- The request is through at once: it leaves the graph as it is and makes no other request. -/
structure AtOnce (around : Surroundings σ ε) (request : Request σ) : Prop where
  graph_eq : (Attempt.start (module around request.depth request.path) request.state).2.1 = request.state.1
  alone : ∀ inner, Requests around request.depth request.importer [request.path] request.state inner →
    inner = request

theorem begins_of_isFile {path : FilePath} {graph : Graph} {state : σ}
    (hname : Identity.ofPath? around.root path = some identity) (hvisit : graph.visit identity = .unvisited)
    (hfile : ((around.isFile path).start state).1 = .ok true) :
    Begins around ⟨depth + 1, importer, path, (graph, state)⟩ identity where
  name := hname
  unvisited := hvisit
  isFile := hfile
  marks := by
    rcases hstart : (around.isFile path).start state with ⟨_, looked⟩
    obtain rfl : _ = Except.ok true := hstart ▸ hfile
    rw [start_module_unvisited hname hvisit]
    simp [begin, work, Attempt.start_bind, hstart]

theorem begins_or_atOnce (hdepth : request.depth ≠ 0) :
    (∃ identity, Begins around request identity) ∨ AtOnce around request := by
  obtain ⟨bound, importer, path, graph, state⟩ := request
  obtain ⟨depth, rfl⟩ : ∃ depth, bound = depth + 1 := Nat.exists_eq_add_one_of_ne_zero hdepth
  by_cases hbegins : ∃ identity, Identity.ofPath? around.root path = some identity ∧
      graph.visit identity = .unvisited ∧ ((around.isFile path).start state).1 = .ok true
  · obtain ⟨identity, hname, hvisit, hfile⟩ := hbegins
    exact .inl ⟨identity, begins_of_isFile hname hvisit hfile⟩
  refine .inr ⟨?_, fun inner hinner => ?_⟩
  · have hexplores := explores_module around (depth + 1) path (graph, state)
    generalize Attempt.start (module around (depth + 1) path) (graph, state) = answer at hexplores ⊢
    obtain ⟨result, after⟩ := answer
    cases hexplores with
    | outside | cycle | unreadable | missing => rfl
    | known _ _ hrest =>
      cases hrest
      rfl
    | unprocessed hname hvisit hfile | broken hname hvisit hfile | recorded hname hvisit hfile =>
      exact absurd ⟨_, hname, hvisit, congrArg Prod.fst hfile⟩ hbegins
  · cases hinner with
    | first => rfl
    | inner hname hvisit hfile => exact absurd ⟨_, hname, hvisit, congrArg Prod.fst hfile⟩ hbegins
    | next _ hrest => cases hrest

end Build
end Bundler
