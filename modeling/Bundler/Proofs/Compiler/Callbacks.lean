import Bundler.Proofs.Compiler.Frame

/-!
# The graph of a run and the graph of a build

A run calls callbacks before it builds its graph, a build calls none. Where the callbacks leave alone
what the graph is built from, a build comes to the same end as the graph of a run and builds the same
graph (`graph_of_build`). A callback that adds an entry makes a difference (`addingHost`).
-/

namespace Bundler

variable {π κ ω : Type}

namespace Job

/-- A run up to the place where it builds its graph: the entries that it builds the graph of. -/
def beforeGraph (host : Host π κ ω) : Job π κ ω (List (String × FilePath)) := do
  phase host .run [runStatus]
  let entries ← runEntries host
  phase host .beforeCompile
  return entries

/-- A run from the place on where its graph is built. -/
def afterGraph (host : Host π κ ω) (entries : List (String × FilePath)) : Job π κ ω BundleResult := do
  phase host .afterCompile
  outside (World.log .info (builtNotice (← compiler).graph.modules.length entries.length))
  runEmit host
  phase host .done [doneStatus]
  return (← compiler).result

theorem run_eq (host : Host π κ ω) :
    run host = (do
      let entries ← beforeGraph host
      compile entries
      afterGraph host entries) := by
  simp only [run, runCompile, beforeGraph, afterGraph, bind_assoc, pure_bind]

/-- The same root, names, rules and graph, and worlds that agree: what a graph is built from. -/
structure Agrees (like : ω → ω → Prop) (state other : Compiler π κ ω × World ω) : Prop where
  root : state.1.root = other.1.root
  naming : state.1.naming = other.1.naming
  pipeline : state.1.pipeline = other.1.pipeline
  graph : state.1.graph = other.1.graph
  world : state.2.Agrees like other.2

variable {like : ω → ω → Prop}

theorem agrees_buildEntry {state other : Compiler π κ ω × World ω}
    (hpipeline : state.1.pipeline.Respects like) (h : Agrees like state other) (name : String)
    (path : FilePath) :
    ((buildEntry name path).start state).1 = ((buildEntry name path).start other).1 ∧
      Agrees like ((buildEntry name path).start state).2 ((buildEntry name path).start other).2 ∧
      ((buildEntry name path).start state).2.1.pipeline = state.1.pipeline := by
  obtain ⟨compiler, world⟩ := state
  obtain ⟨compiler', world'⟩ := other
  have hbuild : (Processing.build compiler.root compiler.naming compiler.pipeline (some name)
      path).Respects (Build.Agrees (World.Agrees like)) := Processing.respects_build hpipeline _ _
  obtain ⟨hresult, hgraph, hworld⟩ := hbuild (compiler.graph, world) (compiler'.graph, world')
    ⟨h.graph, h.world⟩
  have hroot : compiler'.root = compiler.root := h.root.symm
  have hnaming : compiler'.naming = compiler.naming := h.naming.symm
  have hsame : compiler'.pipeline = compiler.pipeline := h.pipeline.symm
  rw [start_buildEntry, start_buildEntry, hroot, hnaming, hsame]
  exact ⟨hresult, ⟨rfl, rfl, rfl, hgraph, hworld⟩, rfl⟩

theorem agrees_compile {state other : Compiler π κ ω × World ω}
    (hpipeline : state.1.pipeline.Respects like) (h : Agrees like state other)
    (entries : List (String × FilePath)) :
    ((compile entries).start state).1 = ((compile entries).start other).1 ∧
      Agrees like ((compile entries).start state).2 ((compile entries).start other).2 := by
  induction entries generalizing state other with
  | nil => exact ⟨rfl, h⟩
  | cons entry rest ih =>
    obtain ⟨name, path⟩ := entry
    obtain ⟨hresult, hagrees, hsame⟩ := agrees_buildEntry hpipeline h name path
    rw [start_compile_entry, start_compile_entry]
    generalize (buildEntry name path).start state = answer at hresult hagrees hsame ⊢
    generalize (buildEntry name path).start other = answer' at hresult hagrees ⊢
    obtain ⟨result, after⟩ := answer
    obtain ⟨result', after'⟩ := answer'
    obtain rfl : result = result' := hresult
    cases result with
    | error fault => exact ⟨rfl, hagrees⟩
    | ok identity =>
      have hafter : after.1.pipeline = state.1.pipeline := hsame
      exact ih (hafter ▸ hpipeline) hagrees

/-! ### Callbacks that leave the graph alone -/

def Tame (safe : Callback κ → Prop) (compiler : Compiler π κ ω) : Prop :=
  ∀ phase, ∀ tap ∈ (compiler.hooks phase).taps, safe tap.callback

/-- From hooks that hold only safe callbacks: they still do, the entries are the same, and the graph is
built from the same. -/
def Undisturbed (safe : Callback κ → Prop) (like : ω → ω → Prop)
    (state later : Compiler π κ ω × World ω) : Prop :=
  Tame safe state.1 → Tame safe later.1 ∧ later.1.config.entries = state.1.config.entries ∧
    Agrees like state later

/-- Safe callbacks of plugins from outside disturb nothing that a graph is built from. -/
def Harmless (safe : Callback κ → Prop) (like : ω → ω → Prop) (host : Host π κ ω) : Prop :=
  ∀ callback arguments, safe (.foreign callback) →
    (host.perform callback arguments).Keeps (Undisturbed safe like)

section Undisturbed

variable {safe : Callback κ → Prop} {host : Host π κ ω} [Std.Refl like] [IsTrans ω like]

instance : Std.Refl (Undisturbed (π := π) safe like) :=
  ⟨fun _ htame => ⟨htame, rfl, rfl, rfl, rfl, rfl, Std.Refl.refl _⟩⟩

instance : IsTrans (Compiler π κ ω × World ω) (Undisturbed safe like) where
  trans first second third h h' htame := by
    obtain ⟨hsecond, hentries, hagrees⟩ := h htame
    obtain ⟨hthird, hentries', hagrees'⟩ := h' hsecond
    refine ⟨hthird, hentries'.trans hentries, ?_⟩
    exact ⟨hagrees.root.trans hagrees'.root, hagrees.naming.trans hagrees'.naming,
      hagrees.pipeline.trans hagrees'.pipeline, hagrees.graph.trans hagrees'.graph,
      Trans.trans hagrees.world hagrees'.world⟩

omit [Std.Refl like] [IsTrans ω like] in
theorem keeps_outside {act : Act ω Unit} (hact : act.Keeps (World.Agrees like)) :
    (outside act : Job π κ ω Unit).Keeps (Undisturbed safe like) :=
  fun state htame => ⟨htame, rfl, rfl, rfl, rfl, rfl, hact state.2⟩

theorem keeps_doDuty (place : Nat) (arguments : List String) (duty : Duty) :
    (doDuty place arguments duty : Job π κ ω Unit).Keeps (Undisturbed safe like) := by
  refine keeps_doDuty_of (fun f => ?_) (fun level message => ?_) arguments duty
  · exact fun state htame => ⟨htame, rfl, rfl, rfl, rfl, rfl, Std.Refl.refl _⟩
  · exact keeps_outside (World.keeps_log level message)

theorem keeps_phase (hharmless : Harmless safe like host) (event : Phase) (arguments : List String) :
    (phase host event arguments).Keeps (Undisturbed safe like) := by
  intro state htame
  rw [phase, Attempt.start_bind, Job.compiler, Attempt.start_look, Attempt.andThen_ok, Hook.call]
  split
  · exact Std.Refl.refl (r := Undisturbed safe like) state htame
  · have htaps : Attempt.Keeps (Undisturbed safe like)
        ((state.1.hooks event).taps.forM fun tap => perform host tap.callback arguments) := by
      refine Attempt.keeps_forM fun tap hmem => ?_
      have hsafe : safe tap.callback := htame event tap hmem
      cases hcallback : tap.callback with
      | stats place duty => exact keeps_doDuty place arguments duty
      | foreign callback => exact hharmless callback arguments (hcallback ▸ hsafe)
    exact htaps state htame

omit [Std.Refl like] [IsTrans ω like] in
theorem start_resolveEntries (state : Compiler π κ ω × World ω) :
    resolveEntries.start state = (state.1.entryPaths, state) := by
  rw [resolveEntries, Attempt.start_bind, Job.compiler, Attempt.start_look, Attempt.andThen_ok,
    Attempt.start_ofExcept]

theorem entryPaths_eq {compiler other : Compiler π κ ω} (hroot : compiler.root = other.root)
    (hentries : compiler.config.entries = other.config.entries) :
    compiler.entryPaths = other.entryPaths := by
  rw [Compiler.entryPaths, Compiler.entryPaths, hroot, hentries]

/-- Before the graph of a run, safe callbacks disturb nothing, and the entries are those of the
configuration. -/
theorem undisturbed_beforeGraph (hharmless : Harmless safe like host)
    {state later : Compiler π κ ω × World ω} (htame : Tame safe state.1)
    {entries : List (String × FilePath)}
    (h : (beforeGraph host).start state = (.ok entries, later)) :
    state.1.entryPaths = .ok entries ∧ Agrees like state later := by
  have hphase : ∀ event arguments (first second : Compiler π κ ω × World ω),
      (phase host event arguments).start first = (.ok (), second) →
      Undisturbed safe like first second :=
    fun event arguments _ _ => (keeps_phase hharmless event arguments).of_start
  rw [beforeGraph] at h
  obtain ⟨⟨⟩, started, hrun, h⟩ := Attempt.start_bind_eq_ok_iff.1 h
  obtain ⟨resolved, told, hentries, h⟩ := Attempt.start_bind_eq_ok_iff.1 h
  obtain ⟨⟨⟩, last, hlast, h⟩ := Attempt.start_bind_eq_ok_iff.1 h
  cases h
  rw [runEntries] at hentries
  obtain ⟨⟨⟩, asked, hask, hentries⟩ := Attempt.start_bind_eq_ok_iff.1 hentries
  obtain ⟨found, same, hresolve, hentries⟩ := Attempt.start_bind_eq_ok_iff.1 hentries
  obtain ⟨⟨⟩, after, htell, hentries⟩ := Attempt.start_bind_eq_ok_iff.1 hentries
  cases hentries
  rw [start_resolveEntries] at hresolve
  obtain ⟨hfound, rfl⟩ := Prod.mk.inj hresolve
  have hasked : Undisturbed safe like state asked :=
    Trans.trans (hphase _ _ _ _ hrun) (hphase _ _ _ _ hask)
  have hlater : Undisturbed safe like state later :=
    Trans.trans hasked (Trans.trans (hphase _ _ _ _ htell) (hphase _ _ _ _ hlast))
  obtain ⟨-, hsame, hagrees⟩ := hasked htame
  refine ⟨?_, (hlater htame).2.2⟩
  rw [← hfound]
  exact entryPaths_eq hagrees.root hsame.symm

/-- Where safe callbacks alone are called, a build comes to the same end as the graph of a run, with the
same graph: the run goes on with its graph from where it has its entries. -/
theorem graph_of_build (hharmless : Harmless safe like host) {compiler : Compiler π κ ω}
    {made : World ω} (htame : Tame safe compiler) (hpipeline : compiler.pipeline.Respects like)
    {entries : List (String × FilePath)} {prepared : Compiler π κ ω × World ω}
    (hbefore : (beforeGraph host).start (compiler, made) = (.ok entries, prepared)) :
    (run host).start (compiler, made) = (compile entries >>= fun _ => afterGraph host entries).start prepared ∧
      (build.start (compiler, made)).1 = ((compile entries).start prepared).1 ∧
      (build.start (compiler, made)).2.1.graph = ((compile entries).start prepared).2.1.graph := by
  obtain ⟨hentries, hagrees⟩ := undisturbed_beforeGraph hharmless htame hbefore
  obtain ⟨hresult, hafter⟩ := agrees_compile hpipeline hagrees entries
  refine ⟨?_, ?_⟩
  · rw [run_eq, Attempt.start_bind, hbefore, Attempt.andThen_ok]
  · rw [start_build_ok hentries]
    exact ⟨hresult, hafter.graph⟩

end Undisturbed

def idleHost : Host Unit Unit Unit where
  library := []
  shown _ := ""
  install _ := pure ()
  perform _ _ := pure ()

/-- A compiler for the modules of the world with a pair, with the bundler's own plugin. -/
def countingCompiler : Compiler Unit Unit Unit :=
  { Compiler.pairCompiler with
    hooks := Stats.duties.foldl
      (fun hooks duty => hooks.tap duty.1 Stats.label (.stats 0 duty.2)) Hooks.empty
    plugins := [.stats {}] }

theorem graph_of_build_pair :
    ∃ entries prepared, (beforeGraph idleHost).start (countingCompiler, Compiler.pairWorld)
        = (.ok entries, prepared) ∧
      (build.start (countingCompiler, Compiler.pairWorld)).2.1.graph
        = ((compile entries).start prepared).2.1.graph ∧
      (build.start (countingCompiler, Compiler.pairWorld)).2.1.graph.identities
        = ["./lib.py", "./main.py"] := by
  have hok : ((beforeGraph idleHost).start (countingCompiler, Compiler.pairWorld)).1.toBool = true := by
    decide +kernel
  have hharmless : Harmless (fun _ => True) (· = ·) idleHost :=
    fun callback arguments _ => Attempt.keeps_pure ()
  rcases hbefore : (beforeGraph idleHost).start (countingCompiler, Compiler.pairWorld) with
    ⟨fault | entries, prepared⟩
  · rw [hbefore] at hok
    cases hok
  · refine ⟨entries, prepared, rfl, ?_, by decide +kernel⟩
    exact (graph_of_build hharmless (fun _ _ _ => trivial) (Pipeline.respects_eq _) hbefore).2.2

/-- A host whose callbacks add an entry. -/
def addingHost : Host Unit Unit Unit :=
  { idleHost with
    perform := fun _ _ => change fun compiler =>
      { compiler with config := { compiler.config with
          entries := Data.setField "main" (.ofString "main.py") compiler.config.entries } } }

/-- A compiler for one module of the world with a pair; a callback makes the other one an entry. -/
def addingCompiler : Compiler Unit Unit Unit :=
  { Compiler.pairCompiler with
    config := { Compiler.pairCompiler.config with entries := [("lib", .ofString "lib.py")] }
    hooks := Hooks.empty.tap .beforeEntryOptions "add" (.foreign ()) }

/-- A callback that adds an entry makes a difference between a run and a build. -/
theorem graph_of_run_adding :
    ((run addingHost).start (addingCompiler, Compiler.pairWorld)).2.1.graph.identities
        = ["./lib.py", "./main.py"] ∧
      (build.start (addingCompiler, Compiler.pairWorld)).1.toBool = true ∧
      (build.start (addingCompiler, Compiler.pairWorld)).2.1.graph.identities = ["./lib.py"] := by
  decide +kernel

end Job
end Bundler
