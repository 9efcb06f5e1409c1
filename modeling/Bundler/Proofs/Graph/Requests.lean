import Bundler.Proofs.Graph.Entries

/-!
# The calls inside a call

Building a module builds the modules that it loads, so a call makes calls inside it, at any depth.
`Requests` says which ones they are. A call ends with the fault of any call inside it
(`Requests.error`), and the fault it ends with was found by one of them itself (`exists_request`). On
the way down the modules in progress are different files (`Ongoing`), whatever the surroundings do
otherwise, so the depth suffices and no module is found in progress that is not on the stack.
-/

namespace Bundler

variable {σ ε : Type}

/-- A file that building comes to: how deep modules may lie inside one another from there on, the module
that loads the file, and the state in which its turn comes. -/
structure Request (σ : Type) where
  depth : Nat
  importer : Option Identity
  path : FilePath
  state : Graph × σ

namespace Build

/-- Building files one after the other, which a module loads, comes to a request: for the first of them,
for a file inside the work on it, or for a file after it. -/
inductive Requests (around : Surroundings σ ε) :
    Nat → Option Identity → List FilePath → Graph × σ → Request σ → Prop
  | first {depth importer path rest before} :
      Requests around depth importer (path :: rest) before ⟨depth, importer, path, before⟩
  | inner {depth importer path rest graph state identity looked code dependencies processed request}
      (hname : Identity.ofPath? around.root path = some identity)
      (hvisit : graph.visit identity = .unvisited)
      (hfile : (around.isFile path).start state = (.ok true, looked))
      (hprocess : (around.process path identity).start looked = (.ok (code, dependencies), processed))
      (hinner : Requests around depth (some identity) (dependencies.map (Identity.path around.root))
        (graph.enter identity, processed) request) :
      Requests around (depth + 1) importer (path :: rest) (graph, state) request
  | next {depth importer path rest before after request}
      (hfirst : Attempt.start (module around depth path) before = (.ok (), after))
      (hrest : Requests around depth importer rest after request) :
      Requests around depth importer (path :: rest) before request

/-- A fault that is found at a request itself and not in the work on the modules loaded there. -/
inductive Finds (around : Surroundings σ ε) : Request σ → ε → Prop
  | tooDeep {importer path state} : Finds around ⟨0, importer, path, state⟩ (around.fault .tooDeep)
  | outside {depth importer path state} (hname : Identity.ofPath? around.root path = none) :
      Finds around ⟨depth + 1, importer, path, state⟩ (around.fault (.outside path around.root))
  | cycle {depth importer path graph state identity}
      (hname : Identity.ofPath? around.root path = some identity)
      (hvisit : graph.visit identity = .inProgress) :
      Finds around ⟨depth + 1, importer, path, (graph, state)⟩ (around.fault (graph.cycleAt identity))
  | unreadable {depth importer path graph state identity fault looked}
      (hname : Identity.ofPath? around.root path = some identity)
      (hvisit : graph.visit identity = .unvisited)
      (hfile : (around.isFile path).start state = (.error fault, looked)) :
      Finds around ⟨depth + 1, importer, path, (graph, state)⟩ fault
  | missing {depth importer path graph state identity looked}
      (hname : Identity.ofPath? around.root path = some identity)
      (hvisit : graph.visit identity = .unvisited)
      (hfile : (around.isFile path).start state = (.ok false, looked)) :
      Finds around ⟨depth + 1, importer, path, (graph, state)⟩
        (around.fault (.missing identity graph.stack.head?))
  | unprocessed {depth importer path graph state identity looked fault processed}
      (hname : Identity.ofPath? around.root path = some identity)
      (hvisit : graph.visit identity = .unvisited)
      (hfile : (around.isFile path).start state = (.ok true, looked))
      (hprocess : (around.process path identity).start looked = (.error fault, processed)) :
      Finds around ⟨depth + 1, importer, path, (graph, state)⟩ fault

/-! ### From the relation back to the program -/

variable {around : Surroundings σ ε} {depth : Nat} {paths : List FilePath} {path : FilePath}
  {graph : Graph} {state : σ} {identity : Identity} {before after : Graph × σ}
  {result : Except ε Unit}

theorem start_module_outside (hname : Identity.ofPath? around.root path = none) :
    Attempt.start (module around (depth + 1) path) before
      = (.error (around.fault (.outside path around.root)), before) := by
  obtain ⟨graph, state⟩ := before
  rw [module, Attempt.start_bind, start_identityOf, hname, Attempt.andThen_error]

theorem start_module_done (hname : Identity.ofPath? around.root path = some identity)
    (hvisit : graph.visit identity = .done) :
    Attempt.start (module around (depth + 1) path) (graph, state) = (.ok (), (graph, state)) := by
  simp [module, Attempt.start_bind, start_identityOf, hname, hvisit]

theorem start_module_inProgress (hname : Identity.ofPath? around.root path = some identity)
    (hvisit : graph.visit identity = .inProgress) :
    Attempt.start (module around (depth + 1) path) (graph, state)
      = (.error (around.fault (graph.cycleAt identity)), (graph, state)) := by
  simp [module, Attempt.start_bind, start_identityOf, hname, hvisit]

theorem start_module_unvisited (hname : Identity.ofPath? around.root path = some identity)
    (hvisit : graph.visit identity = .unvisited) :
    Attempt.start (module around (depth + 1) path) (graph, state)
      = Attempt.start (begin around (module around depth) path identity) (graph, state) := by
  simp [module, Attempt.start_bind, start_identityOf, hname, hvisit]

theorem Finds.error {request : Request σ} {fault : ε} (h : Finds around request fault) :
    (Attempt.start (module around request.depth request.path) request.state).1 = .error fault := by
  cases h with
  | tooDeep => rfl
  | outside hname => rw [start_module_outside hname]
  | cycle hname hvisit => rw [start_module_inProgress hname hvisit]
  | unreadable hname hvisit hfile =>
    rw [start_module_unvisited hname hvisit]
    simp [begin, Attempt.start_bind, hfile]
  | missing hname hvisit hfile =>
    rw [start_module_unvisited hname hvisit]
    simp [begin, Attempt.start_bind, hfile]
  | unprocessed hname hvisit hfile hprocess =>
    rw [start_module_unvisited hname hvisit]
    simp [begin, expand, Attempt.start_bind, hfile, hprocess]

theorem start_of_explores (h : Explores around depth paths before result after) :
    Attempt.start (paths.forM (module around depth)) before = (result, after) := by
  induction h with
  | nothing => rfl
  | tooDeep => rw [Attempt.start_forM_cons]; rfl
  | outside hname =>
    rw [Attempt.start_forM_cons, start_module_outside hname, Attempt.andThen_error]
  | known hname hvisit _ ih =>
    rw [Attempt.start_forM_cons, start_module_done hname hvisit, Attempt.andThen_ok, ih]
  | cycle hname hvisit =>
    rw [Attempt.start_forM_cons, start_module_inProgress hname hvisit, Attempt.andThen_error]
  | unreadable hname hvisit hfile =>
    rw [Attempt.start_forM_cons, start_module_unvisited hname hvisit]
    simp [begin, Attempt.start_bind, hfile]
  | missing hname hvisit hfile =>
    rw [Attempt.start_forM_cons, start_module_unvisited hname hvisit]
    simp [begin, Attempt.start_bind, hfile]
  | unprocessed hname hvisit hfile hprocess =>
    rw [Attempt.start_forM_cons, start_module_unvisited hname hvisit]
    simp [begin, expand, Attempt.start_bind, hfile, hprocess]
  | broken hname hvisit hfile hprocess _ ih =>
    rw [Attempt.start_forM_cons, start_module_unvisited hname hvisit,
      start_begin around _ _ hfile hprocess, ih]
    rfl
  | recorded hname hvisit hfile hprocess _ _ ih ihRest =>
    rw [Attempt.start_forM_cons, start_module_unvisited hname hvisit,
      start_begin around _ _ hfile hprocess, ih]
    exact ihRest

theorem start_module_of_explores (h : Explores around depth [path] before result after) :
    Attempt.start (module around depth path) before = (result, after) := by
  rw [← start_forM_singleton, start_of_explores h]

/-- A call succeeds just when its file lies below the root and its module can be built. -/
theorem start_start_eq_ok_iff {entry : Option String} {identity : Identity} {graph : Graph} {state : σ}
    {after : Graph × σ} :
    Attempt.start (start around depth entry path) (graph, state) = (.ok identity, after) ↔
      Identity.ofPath? around.root path = some identity ∧
        Explores around depth [path] (named entry identity graph, state) (.ok ()) after := by
  refine ⟨explores_of_start, ?_⟩
  rintro ⟨hname, hexplores⟩
  rw [start_start around graph state hname, start_module_of_explores hexplores]
  rfl

/-! ### Faults inside a call -/

theorem Requests.error {importer : Option Identity} {request : Request σ} {fault : ε}
    (h : Requests around depth importer paths before request)
    (herror : (Attempt.start (module around request.depth request.path) request.state).1
      = .error fault) :
    (Attempt.start (paths.forM (module around depth)) before).1 = .error fault := by
  induction h with
  | @first depth importer path rest before =>
    rw [Attempt.start_forM_cons]
    rcases hmodule : Attempt.start (module around depth path) before with ⟨_ | ⟨⟩, last⟩
    · rw [hmodule] at herror
      exact herror
    · rw [hmodule] at herror
      cases herror
  | inner hname hvisit hfile hprocess _ ih =>
    have hinner := ih herror
    rw [Attempt.start_forM_cons, start_module_unvisited hname hvisit,
      start_begin around _ _ hfile hprocess]
    revert hinner
    rcases Attempt.start (List.forM _ _) _ with ⟨_ | ⟨⟩, inner, last⟩
    · exact fun hinner => hinner
    · exact nofun
  | next hfirst _ ih => rw [Attempt.start_forM_cons, hfirst, Attempt.andThen_ok, ih herror]

theorem exists_request {fault : ε} (h : Explores around depth paths before result after)
    (herror : result = .error fault) (importer : Option Identity) :
    ∃ request, Requests around depth importer paths before request ∧ Finds around request fault := by
  induction h generalizing importer with
  | nothing => cases herror
  | tooDeep =>
    cases herror
    exact ⟨_, .first, .tooDeep⟩
  | outside hname =>
    cases herror
    exact ⟨_, .first, .outside hname⟩
  | known hname hvisit _ ih =>
    obtain ⟨request, hrequest, hfinds⟩ := ih herror importer
    exact ⟨request, .next (start_module_done hname hvisit) hrequest, hfinds⟩
  | cycle hname hvisit =>
    cases herror
    exact ⟨_, .first, .cycle hname hvisit⟩
  | unreadable hname hvisit hfile =>
    cases herror
    exact ⟨_, .first, .unreadable hname hvisit hfile⟩
  | missing hname hvisit hfile =>
    cases herror
    exact ⟨_, .first, .missing hname hvisit hfile⟩
  | unprocessed hname hvisit hfile hprocess =>
    cases herror
    exact ⟨_, .first, .unprocessed hname hvisit hfile hprocess⟩
  | broken hname hvisit hfile hprocess _ ih =>
    obtain ⟨request, hrequest, hfinds⟩ := ih herror (some _)
    exact ⟨request, .inner hname hvisit hfile hprocess hrequest, hfinds⟩
  | recorded hname hvisit hfile hprocess hinner _ _ ihRest =>
    obtain ⟨request, hrequest, hfinds⟩ := ihRest herror importer
    have hfirst := start_module_of_explores (.recorded hname hvisit hfile hprocess hinner (.nothing _ _))
    exact ⟨request, .next hfirst hrequest, hfinds⟩

/-- A call fails because its file lies outside the root, or with a fault that was found at a request
inside it. -/
theorem exists_request_of_start {entry : Option String} {fault : ε}
    (h : (Attempt.start (start around depth entry path) before).1 = .error fault) :
    fault = around.fault (.outside path around.root) ∨
      ∃ called request, Identity.ofPath? around.root path = some called ∧
        Requests around depth none [path] (named entry called before.1, before.2) request ∧
        Finds around request fault := by
  obtain ⟨graph, state⟩ := before
  cases hname : Identity.ofPath? around.root path with
  | none =>
    rw [start_start_none around graph state hname] at h
    cases h
    exact .inl rfl
  | some called =>
    rw [start_start around graph state hname, Attempt.andThen_pure] at h
    have hexplores := explores_module around depth path (named entry called graph, state)
    rcases hmodule : Attempt.start (module around depth path) (named entry called graph, state)
      with ⟨other | ⟨⟩, after⟩
    · rw [hmodule] at h hexplores
      cases h
      obtain ⟨request, hrequests, hfinds⟩ := exists_request hexplores rfl none
      exact .inr ⟨called, request, rfl, hrequests, hfinds⟩
    · rw [hmodule] at h
      cases h

end Build

/-! ### The way down -/

/-- Where a state fits, whether a path names a file is settled, and looking at files and processing modules
leave states that fit. -/
structure Surroundings.Fixed (around : Surroundings σ ε) (fits : σ → Prop)
    (answer : FilePath → Except ε Bool) : Prop where
  isFile : ∀ path state, fits state → ((around.isFile path).start state).1 = answer path ∧
    fits ((around.isFile path).start state).2
  process : ∀ path identity state, fits state → fits ((around.process path identity).start state).2

theorem Surroundings.Fixed.isFile_of_start {around : Surroundings σ ε} {fits : σ → Prop}
    {answer : FilePath → Except ε Bool} (haround : around.Fixed fits answer) {path : FilePath}
    {state looked : σ} {found : Except ε Bool} (hstate : fits state)
    (hfile : (around.isFile path).start state = (found, looked)) :
    answer path = found ∧ fits looked := by
  obtain ⟨hanswer, hlooked⟩ := haround.isFile path state hstate
  rw [hfile] at hanswer hlooked
  exact ⟨hanswer.symm, hlooked⟩

theorem Surroundings.Fixed.fits_of_process {around : Surroundings σ ε} {fits : σ → Prop}
    {answer : FilePath → Except ε Bool} (haround : around.Fixed fits answer) {path : FilePath}
    {identity : Identity} {looked processed : σ} {outcome : Except ε (String × List Identity)} (hlooked : fits looked)
    (hprocess : (around.process path identity).start looked = (outcome, processed)) :
    fits processed := by
  have hafter := haround.process path identity looked hlooked
  rwa [hprocess] at hafter

theorem Build.Explores.fits {around : Surroundings σ ε} {fits : σ → Prop}
    {answer : FilePath → Except ε Bool} (haround : around.Fixed fits answer) {depth : Nat}
    {paths : List FilePath} {before after : Graph × σ} {result : Except ε Unit}
    (h : Explores around depth paths before result after) (hstate : fits before.2) : fits after.2 := by
  induction h with
  | nothing | tooDeep | outside | cycle => exact hstate
  | known _ _ _ ih => exact ih hstate
  | unreadable _ _ hfile | missing _ _ hfile => exact (haround.isFile_of_start hstate hfile).2
  | unprocessed _ _ hfile hprocess =>
    exact haround.fits_of_process (haround.isFile_of_start hstate hfile).2 hprocess
  | broken _ _ hfile hprocess _ ih =>
    exact ih (haround.fits_of_process (haround.isFile_of_start hstate hfile).2 hprocess)
  | recorded _ _ hfile hprocess _ _ ihInner ihRest =>
    exact ihRest (ihInner (haround.fits_of_process (haround.isFile_of_start hstate hfile).2 hprocess))

theorem Build.Requests.fits {around : Surroundings σ ε} {fits : σ → Prop}
    {answer : FilePath → Except ε Bool} (haround : around.Fixed fits answer) {depth : Nat}
    {importer : Option Identity} {paths : List FilePath} {before : Graph × σ} {request : Request σ}
    (h : Requests around depth importer paths before request) (hstate : fits before.2) :
    fits request.state.2 := by
  induction h with
  | first => exact hstate
  | inner _ _ hfile hprocess _ ih =>
    exact ih (haround.fits_of_process (haround.isFile_of_start hstate hfile).2 hprocess)
  | @next depth importer path rest before between request hfirst _ ih =>
    have hexplores := explores_of_module hfirst
    exact ih (hexplores.fits haround hstate)

/-- Every module that a module of the root loads is of a kind. -/
def Surroundings.LoadsOnly (around : Surroundings σ ε) (below : Identity → Prop) : Prop :=
  ∀ path identity state code dependencies after,
    Identity.ofPath? around.root path = some identity →
    (around.process path identity).start state = (.ok (code, dependencies), after) →
    ∀ dependency ∈ dependencies, below dependency

namespace Build

/-- A graph on the way down. The modules in progress are those on the stack, which differ from one
another; all modules visited are files; and what modules load, as are the files that are asked for next
and all modules in progress but the outermost, is of a kind. -/
structure Ongoing (around : Surroundings σ ε) (answer : FilePath → Except ε Bool)
    (below : Identity → Prop) (graph : Graph) (paths : List FilePath) : Prop where
  consistent : graph.Consistent
  inProgress_iff : ∀ identity, graph.visit identity = .inProgress ↔ identity ∈ graph.stack
  nodup : graph.stack.Nodup
  isFile : ∀ identity, graph.visit identity ≠ .unvisited →
    answer (identity.path around.root) = .ok true
  loaded : ∀ identity ∈ graph.stack.dropLast, below identity
  named : ∀ path ∈ paths, ∃ identity, Identity.ofPath? around.root path = some identity ∧
    (graph.stack ≠ [] → below identity)

variable {around : Surroundings σ ε} {fits : σ → Prop} {answer : FilePath → Except ε Bool}
  {below : Identity → Prop} {depth : Nat} {path : FilePath} {paths others : List FilePath}
  {graph inner : Graph} {identity : Identity} {code : String} {dependencies : List Identity}
  {before after : Graph × σ} {result : Except ε Unit}

theorem Ongoing.empty (entry : Option String)
    (hname : Identity.ofPath? around.root path = some identity) :
    Ongoing around answer below (Build.named entry identity {}) [path] := by
  have hvisit : ∀ other, (Build.named entry identity {}).visit other = .unvisited := by
    cases entry <;> exact fun other => rfl
  have hstack : (Build.named entry identity {}).stack = [] := by
    cases entry <;> rfl
  refine ⟨Graph.Consistent.empty.named entry, ?_, ?_, ?_, ?_, ?_⟩
  · simp [hvisit, hstack]
  · simp [hstack]
  · simp [hvisit]
  · simp [hstack]
  · simpa [hstack] using ⟨identity, hname⟩

theorem Ongoing.rest (h : Ongoing around answer below graph (path :: others)) :
    Ongoing around answer below graph others :=
  { h with named := fun path hpath => h.named path (List.mem_cons_of_mem _ hpath) }

theorem Ongoing.first (h : Ongoing around answer below graph (path :: others)) :
    Ongoing around answer below graph [path] :=
  { h with named := by simpa using h.named path List.mem_cons_self }

theorem Ongoing.notMem_stack (h : Ongoing around answer below graph paths)
    (hvisit : graph.visit identity = .unvisited) : identity ∉ graph.stack := by
  intro hmem
  have hprogress := (h.inProgress_iff identity).2 hmem
  rw [hvisit] at hprogress
  cases hprogress

theorem Ongoing.enter (h : Ongoing around answer below graph (path :: others))
    (hname : Identity.ofPath? around.root path = some identity)
    (hvisit : graph.visit identity = .unvisited) (hfile : answer path = .ok true)
    (hnames : ∀ dependency ∈ dependencies,
      Identity.ofPath? around.root (dependency.path around.root) = some dependency)
    (hbelow : ∀ dependency ∈ dependencies, below dependency) :
    Ongoing around answer below (graph.enter identity)
      (dependencies.map (Identity.path around.root)) := by
  refine ⟨h.consistent.enter hvisit, fun other => ?_, ?_, fun other hother => ?_, ?_, ?_⟩
  · rw [Graph.visit_enter, Graph.stack_enter, List.mem_cons]
    split
    · next heq => simp [heq]
    · next hne => simp [hne, h.inProgress_iff other]
  · exact List.nodup_cons.2 ⟨h.notMem_stack hvisit, h.nodup⟩
  · rw [Graph.visit_enter] at hother
    split at hother
    · next heq => rwa [heq, Identity.path_of_ofPath? hname]
    · exact h.isFile other hother
  · obtain ⟨other, hother, hloaded⟩ := h.named path List.mem_cons_self
    obtain rfl := Option.some.inj (hname.symm.trans hother)
    rw [Graph.stack_enter]
    cases hstack : graph.stack with
    | nil => simp
    | cons last outer =>
      have houter := h.loaded
      rw [hstack] at houter
      rw [List.dropLast_cons_cons]
      exact List.forall_mem_cons.2 ⟨hloaded (by simp [hstack]), houter⟩
  · intro path hpath
    obtain ⟨dependency, hmem, rfl⟩ := List.mem_map.1 hpath
    exact ⟨dependency, hnames dependency hmem, fun _ => hbelow dependency hmem⟩

theorem Ongoing.record (h : Ongoing around answer below graph (path :: others))
    (hvisit : graph.visit identity = .unvisited)
    (hgrows : (graph.enter identity).Grows inner)
    (hinner : Ongoing around answer below inner paths)
    (hrecord : (inner.leave.record ⟨identity, path, code, dependencies⟩).Consistent) :
    Ongoing around answer below (inner.leave.record ⟨identity, path, code, dependencies⟩) others := by
  have hstack : (inner.leave.record ⟨identity, path, code, dependencies⟩).stack = graph.stack :=
    (Graph.Grows.of_enter hgrows).stack
  refine ⟨hrecord, fun other => ?_, hstack ▸ h.nodup, fun other hother => ?_, hstack ▸ h.loaded,
    hstack ▸ h.rest.named⟩
  · have hsame : inner.visit other = .inProgress ↔ (graph.enter identity).visit other = .inProgress := by
      rw [hinner.inProgress_iff, hgrows.stack, Graph.visit_enter, Graph.stack_enter, List.mem_cons]
      split
      · next heq => simp [heq]
      · next hne => simp [hne, h.inProgress_iff other]
    rw [hstack, ← h.inProgress_iff]
    exact Graph.visit_record_of_enter hvisit hsame
  · refine hinner.isFile other ?_
    rw [Graph.visit_record] at hother
    split at hother
    · next heq =>
      have hprogress := hgrows.inProgress identity (by rw [Graph.visit_enter, if_pos rfl])
      rw [heq]
      simp [hprogress]
    · exact hother

theorem Explores.ongoing (haround : around.Fixed fits answer) (hnames : around.NamesModules)
    (hbelow : around.LoadsOnly below) (h : Explores around depth paths before result after)
    (hok : result = .ok ()) (hbefore : Ongoing around answer below before.1 paths)
    (hstate : fits before.2) :
    Ongoing around answer below after.1 [] ∧ fits after.2 := by
  induction h with
  | nothing => exact ⟨hbefore, hstate⟩
  | known _ _ _ ih => exact ih hok hbefore.rest hstate
  | recorded hname hvisit hfile hprocess hinner _ ihInner ihRest =>
    obtain ⟨hanswer, hlooked⟩ := haround.isFile_of_start hstate hfile
    have hprocessed := haround.fits_of_process hlooked hprocess
    have hentered := hbefore.enter hname hvisit hanswer (hnames _ _ _ _ _ _ hname hprocess)
      (hbelow _ _ _ _ _ _ hname hprocess)
    obtain ⟨hinnerOngoing, hlast⟩ := ihInner rfl hentered hprocessed
    have hgrows := (hinner.consistent hnames hentered.consistent).2.1
    have hrecord := (hinner.recordable hnames hname hprocess hbefore.consistent hvisit).1
    exact ihRest hok (hbefore.record hvisit hgrows hinnerOngoing hrecord) hlast
  | _ => cases hok

theorem Requests.ongoing (haround : around.Fixed fits answer) (hnames : around.NamesModules)
    (hbelow : around.LoadsOnly below) {importer : Option Identity} {request : Request σ}
    (h : Requests around depth importer paths before request)
    (hbefore : Ongoing around answer below before.1 paths) (hstate : fits before.2)
    (himporter : importer = before.1.stack.head?) :
    Ongoing around answer below request.state.1 [request.path] ∧ fits request.state.2 ∧
      request.importer = request.state.1.stack.head? ∧
      request.depth + request.state.1.stack.length = depth + before.1.stack.length := by
  induction h with
  | first => exact ⟨hbefore.first, hstate, himporter, rfl⟩
  | inner hname hvisit hfile hprocess _ ih =>
    obtain ⟨hanswer, hlooked⟩ := haround.isFile_of_start hstate hfile
    have hentered := hbefore.enter hname hvisit hanswer (hnames _ _ _ _ _ _ hname hprocess)
      (hbelow _ _ _ _ _ _ hname hprocess)
    obtain ⟨hongoing, hfits, hloader, hdepth⟩ := ih hentered (haround.fits_of_process hlooked hprocess) rfl
    refine ⟨hongoing, hfits, hloader, ?_⟩
    simp only [Graph.stack_enter, List.length_cons] at hdepth ⊢
    omega
  | @next depth importer path rest before between request hfirst _ ih =>
    have hexplores := explores_of_module hfirst
    obtain ⟨hbetween, hfits⟩ := hexplores.ongoing haround hnames hbelow rfl hbefore.first hstate
    have hstack := (hexplores.consistent hnames hbefore.consistent).2.1.stack
    have hothers : Ongoing around answer below between.1 rest :=
      { hbetween with named := hstack ▸ hbefore.rest.named }
    rw [← hstack]
    exact ih hothers hfits (hstack ▸ himporter)

end Build
end Bundler
