import Bundler.Graph.Basic
import Bundler.Proofs.Attempt
import Bundler.Proofs.Path.Written

/-!
# How a graph is explored

`Explores` says what building a list of files one after the other does, one constructor for each thing
that can happen at the first file. It is the program without its control flow (`explores_forM`), and it
is what facts about building are proved on, by one induction each. The files that a module loads are a
list again, so one relation covers both a module and the modules it loads.

Surroundings that keep a record beside their state build the same graph as surroundings without one,
and end in the same way (`projects_start`).
-/

namespace Bundler.Build

variable {σ ε α : Type}

/-- Building files one after the other, at a depth, from a state: what it gives and the state left. -/
inductive Explores (around : Surroundings σ ε) :
    Nat → List FilePath → Graph × σ → Except ε Unit → Graph × σ → Prop
  | nothing (depth state) : Explores around depth [] state (.ok ()) state
  | tooDeep (path rest state) :
      Explores around 0 (path :: rest) state (.error (around.fault .tooDeep)) state
  | outside {depth path rest state} (hname : Identity.ofPath? around.root path = none) :
      Explores around (depth + 1) (path :: rest) state
        (.error (around.fault (.outside path around.root))) state
  | known {depth path rest graph state identity result after}
      (hname : Identity.ofPath? around.root path = some identity)
      (hvisit : graph.visit identity = .done)
      (hrest : Explores around (depth + 1) rest (graph, state) result after) :
      Explores around (depth + 1) (path :: rest) (graph, state) result after
  | cycle {depth path rest graph state identity}
      (hname : Identity.ofPath? around.root path = some identity)
      (hvisit : graph.visit identity = .inProgress) :
      Explores around (depth + 1) (path :: rest) (graph, state)
        (.error (around.fault (graph.cycleAt identity))) (graph, state)
  | unreadable {depth path rest graph state identity fault looked}
      (hname : Identity.ofPath? around.root path = some identity)
      (hvisit : graph.visit identity = .unvisited)
      (hfile : (around.isFile path).start state = (.error fault, looked)) :
      Explores around (depth + 1) (path :: rest) (graph, state) (.error fault) (graph, looked)
  | missing {depth path rest graph state identity looked}
      (hname : Identity.ofPath? around.root path = some identity)
      (hvisit : graph.visit identity = .unvisited)
      (hfile : (around.isFile path).start state = (.ok false, looked)) :
      Explores around (depth + 1) (path :: rest) (graph, state)
        (.error (around.fault (.missing identity graph.stack.head?))) (graph, looked)
  | unprocessed {depth path rest graph state identity looked fault processed}
      (hname : Identity.ofPath? around.root path = some identity)
      (hvisit : graph.visit identity = .unvisited)
      (hfile : (around.isFile path).start state = (.ok true, looked))
      (hprocess : (around.process path identity).start looked = (.error fault, processed)) :
      Explores around (depth + 1) (path :: rest) (graph, state) (.error fault)
        ((graph.enter identity).leave, processed)
  | broken {depth path rest graph state identity looked code dependencies processed fault inner last}
      (hname : Identity.ofPath? around.root path = some identity)
      (hvisit : graph.visit identity = .unvisited)
      (hfile : (around.isFile path).start state = (.ok true, looked))
      (hprocess : (around.process path identity).start looked = (.ok (code, dependencies), processed))
      (hinner : Explores around depth (dependencies.map (Identity.path around.root))
        (graph.enter identity, processed) (.error fault) (inner, last)) :
      Explores around (depth + 1) (path :: rest) (graph, state) (.error fault) (inner.leave, last)
  | recorded {depth path rest graph state identity looked code dependencies processed inner last
        result after}
      (hname : Identity.ofPath? around.root path = some identity)
      (hvisit : graph.visit identity = .unvisited)
      (hfile : (around.isFile path).start state = (.ok true, looked))
      (hprocess : (around.process path identity).start looked = (.ok (code, dependencies), processed))
      (hinner : Explores around depth (dependencies.map (Identity.path around.root))
        (graph.enter identity, processed) (.ok ()) (inner, last))
      (hrest : Explores around (depth + 1) rest
        (inner.leave.record ⟨identity, path, code, dependencies⟩, last) result after) :
      Explores around (depth + 1) (path :: rest) (graph, state) result after

/-! ### The program as a relation -/

variable (around : Surroundings σ ε) (graph : Graph) (state : σ)

@[simp] theorem start_outside (attempt : Attempt σ ε α) :
    Attempt.start (outside attempt) (graph, state)
      = ((attempt.start state).1, (graph, (attempt.start state).2)) := rfl

@[simp] theorem start_graph :
    Attempt.start (Build.graph : Build σ ε Graph) (graph, state) = (.ok graph, (graph, state)) := rfl

@[simp] theorem start_change (f : Graph → Graph) :
    Attempt.start (change f : Build σ ε Unit) (graph, state) = (.ok (), (f graph, state)) := rfl

theorem start_identityOf (path : FilePath) :
    Attempt.start (identityOf around path) (graph, state)
      = (match Identity.ofPath? around.root path with
          | some identity => .ok identity
          | none => .error (around.fault (.outside path around.root)), (graph, state)) := by
  unfold identityOf
  cases Identity.ofPath? around.root path <;> rfl

/-- What the work on a module is left with when the modules it loads are through. -/
def finish (path : FilePath) (identity : Identity) (code : String) (dependencies : List Identity) :
    Except ε Unit × Graph × σ → Except ε Unit × Graph × σ
  | (.ok (), inner, last) =>
    (.ok (), inner.leave.record ⟨identity, path, code, dependencies⟩, last)
  | (.error fault, inner, last) => (.error fault, inner.leave, last)

theorem start_begin {next : FilePath → Build σ ε Unit} {path : FilePath} {identity : Identity}
    {looked processed : σ} {code : String} {dependencies : List Identity}
    (hfile : (around.isFile path).start state = (.ok true, looked))
    (hprocess : (around.process path identity).start looked = (.ok (code, dependencies), processed)) :
    Attempt.start (begin around next path identity) (graph, state)
      = finish path identity code dependencies
          (Attempt.start ((dependencies.map (Identity.path around.root)).forM next)
            (graph.enter identity, processed)) := by
  have hforM : dependencies.forM (fun dependency => next (around.root.join (.ofString dependency)))
      = (dependencies.map (Identity.path around.root)).forM next := by
    simp [List.forM_eq_forM, List.forM_map, Identity.path]
  simp only [begin, expand, Attempt.start_bind, start_graph, Attempt.andThen_ok, start_outside, hfile,
    if_true, start_change, Attempt.start_ensuring, hprocess, hforM]
  rcases Attempt.start ((dependencies.map (Identity.path around.root)).forM next)
    (graph.enter identity, processed) with ⟨_ | _, _, _⟩
  · rfl
  · rfl

theorem explores_forM (depth : Nat) (paths : List FilePath) (before : Graph × σ) :
    Explores around depth paths before (Attempt.start (paths.forM (module around depth)) before).1
      (Attempt.start (paths.forM (module around depth)) before).2 := by
  induction depth generalizing paths before with
  | zero =>
    cases paths with
    | nil => exact .nothing _ _
    | cons path rest => exact .tooDeep path rest before
  | succ depth ihDepth =>
    induction paths generalizing before with
    | nil => exact .nothing _ _
    | cons path rest ih =>
      obtain ⟨graph, state⟩ := before
      rw [Attempt.start_forM_cons, module, Attempt.start_bind, start_identityOf]
      cases hname : Identity.ofPath? around.root path with
      | none => exact .outside hname
      | some identity =>
        simp only [Attempt.andThen_ok, Attempt.start_bind, start_graph]
        cases hvisit : graph.visit identity with
        | done => exact .known hname hvisit (ih (graph, state))
        | inProgress => exact .cycle hname hvisit
        | unvisited =>
          rcases hfile : (around.isFile path).start state with ⟨fault | _ | _, looked⟩
          · have hstart : Attempt.start (begin around (module around depth) path identity) (graph, state)
                = (.error fault, (graph, looked)) := by
              simp [begin, Attempt.start_bind, hfile]
            simp only [hstart]
            exact .unreadable hname hvisit hfile
          · have hstart : Attempt.start (begin around (module around depth) path identity) (graph, state)
                = (.error (around.fault (.missing identity graph.stack.head?)), (graph, looked)) := by
              simp [begin, Attempt.start_bind, hfile]
            simp only [hstart]
            exact .missing hname hvisit hfile
          rcases hprocess : (around.process path identity).start looked
            with ⟨fault | ⟨code, dependencies⟩, processed⟩
          · have hstart : Attempt.start (begin around (module around depth) path identity) (graph, state)
                = (.error fault, ((graph.enter identity).leave, processed)) := by
              simp [begin, expand, Attempt.start_bind, hfile, hprocess]
            simp only [hstart]
            exact .unprocessed hname hvisit hfile hprocess
          simp only [start_begin around graph state hfile hprocess]
          have hinner := ihDepth (dependencies.map (Identity.path around.root))
            (graph.enter identity, processed)
          rcases hforM : Attempt.start ((dependencies.map (Identity.path around.root)).forM
            (module around depth)) (graph.enter identity, processed) with ⟨fault | ⟨⟩, inner, last⟩
          · rw [hforM] at hinner
            exact .broken hname hvisit hfile hprocess hinner
          · rw [hforM] at hinner
            exact .recorded hname hvisit hfile hprocess hinner (ih _)

variable {around} in
theorem start_forM_singleton (depth : Nat) (path : FilePath) (before : Graph × σ) :
    Attempt.start ([path].forM (module around depth)) before
      = Attempt.start (module around depth path) before := by
  rw [Attempt.start_forM_cons]
  rcases Attempt.start (module around depth path) before with ⟨_ | ⟨⟩, after⟩
  · rfl
  · rfl

theorem explores_module (depth : Nat) (path : FilePath) (before : Graph × σ) :
    Explores around depth [path] before (Attempt.start (module around depth path) before).1
      (Attempt.start (module around depth path) before).2 := by
  rw [← start_forM_singleton]
  exact explores_forM around depth [path] before

variable {around} in
theorem explores_of_module {depth : Nat} {path : FilePath} {before after : Graph × σ}
    {result : Except ε Unit} (h : Attempt.start (module around depth path) before = (result, after)) :
    Explores around depth [path] before result after := by
  have hexplores := explores_module around depth path before
  rwa [h] at hexplores

/-- The graph in which a module is looked for, perhaps as an entry. -/
def named (entry : Option String) (identity : Identity) (graph : Graph) : Graph :=
  match entry with
  | some name => graph.addEntry name identity
  | none => graph

theorem start_start_none {depth : Nat} {entry : Option String} {path : FilePath}
    (hname : Identity.ofPath? around.root path = none) :
    Attempt.start (start around depth entry path) (graph, state)
      = (.error (around.fault (.outside path around.root)), (graph, state)) := by
  rw [start, Attempt.start_bind, start_identityOf, hname, Attempt.andThen_error]

theorem start_start {depth : Nat} {entry : Option String} {path : FilePath} {identity : Identity}
    (hname : Identity.ofPath? around.root path = some identity) :
    Attempt.start (start around depth entry path) (graph, state)
      = Attempt.andThen (fun _ => pure identity)
          (Attempt.start (module around depth path) (named entry identity graph, state)) := by
  rw [start, Attempt.start_bind, start_identityOf, hname]
  cases entry with
  | none => simp only [Attempt.andThen_ok, Attempt.start_bind, named]
  | some name => simp only [Attempt.andThen_ok, Attempt.start_bind, start_change, named]

variable {around graph state} in
theorem explores_of_start {depth : Nat} {entry : Option String} {path : FilePath} {identity : Identity}
    {after : Graph × σ}
    (h : Attempt.start (start around depth entry path) (graph, state) = (.ok identity, after)) :
    Identity.ofPath? around.root path = some identity ∧
      Explores around depth [path] (named entry identity graph, state) (.ok ()) after := by
  cases hname : Identity.ofPath? around.root path with
  | none =>
    rw [start_start_none around graph state hname] at h
    cases h
  | some found =>
    rw [start_start around graph state hname] at h
    have hexplores := explores_module around depth path (named entry found graph, state)
    rcases hmodule : Attempt.start (module around depth path) (named entry found graph, state)
      with ⟨fault | ⟨⟩, ended⟩
    · rw [hmodule] at h
      cases h
    · rw [hmodule] at h hexplores
      cases h
      exact ⟨rfl, hexplores⟩

end Bundler.Build

/-! ### Building under watch -/

namespace Bundler

variable {σ τ ε α : Type}

/-- On a part of their state, surroundings do what other surroundings do. -/
structure Surroundings.Projects (part : τ → σ) (watched : Surroundings τ ε)
    (around : Surroundings σ ε) : Prop where
  root : watched.root = around.root
  fault : watched.fault = around.fault
  isFile : ∀ path, Attempt.Projects part (watched.isFile path) (around.isFile path)
  process : ∀ path identity,
    Attempt.Projects part (watched.process path identity) (around.process path identity)

namespace Build

variable {part : τ → σ} {watched : Surroundings τ ε} {around : Surroundings σ ε}

theorem projects_outside {whole : Attempt τ ε α} {attempt : Attempt σ ε α}
    (h : Attempt.Projects part whole attempt) :
    Attempt.Projects (Prod.map id part) (outside whole) (outside attempt) := by
  rintro ⟨graph, state⟩
  simp only [start_outside, Prod.map_apply, id, ← h state]

theorem projects_graph : Attempt.Projects (Prod.map id part) (graph : Build τ ε Graph) graph :=
  fun _ => rfl

theorem projects_change (f : Graph → Graph) :
    Attempt.Projects (Prod.map id part) (change f : Build τ ε Unit) (change f) :=
  fun _ => rfl

theorem projects_identityOf (h : watched.Projects part around) (path : FilePath) :
    Attempt.Projects (Prod.map id part) (identityOf watched path) (identityOf around path) := by
  rw [identityOf, identityOf, h.root, h.fault]
  cases Identity.ofPath? around.root path with
  | none => exact Attempt.projects_throw _
  | some identity => exact Attempt.projects_pure identity

theorem projects_begin (h : watched.Projects part around) {next : FilePath → Build τ ε Unit}
    {next' : FilePath → Build σ ε Unit}
    (hnext : ∀ path, Attempt.Projects (Prod.map id part) (next path) (next' path)) (path : FilePath)
    (identity : Identity) :
    Attempt.Projects (Prod.map id part) (begin watched next path identity)
      (begin around next' path identity) := by
  have hexpand : Attempt.Projects (Prod.map id part) (expand watched next path identity)
      (expand around next' path identity) := by
    refine (projects_outside (h.process path identity)).bind fun answer => ?_
    rw [h.root]
    exact (Attempt.projects_forM (fun dependency => hnext _) answer.2).bind fun _ =>
      Attempt.projects_pure _
  refine projects_graph.bind fun graph => ?_
  refine (projects_outside (h.isFile path)).bind fun isFile => ?_
  cases isFile with
  | false =>
    rw [h.fault]
    exact Attempt.projects_throw _
  | true =>
    refine (projects_change _).bind fun _ => ?_
    exact (hexpand.ensuring fun _ => rfl).bind fun module => projects_change _

theorem projects_module (h : watched.Projects part around) (depth : Nat) (path : FilePath) :
    Attempt.Projects (Prod.map id part) (module watched depth path) (module around depth path) := by
  induction depth generalizing path with
  | zero =>
    rw [module, module, h.fault]
    exact Attempt.projects_throw _
  | succ depth ih =>
    refine (projects_identityOf h path).bind fun identity => ?_
    refine projects_graph.bind fun graph => ?_
    cases graph.visit identity with
    | unvisited => exact projects_begin h ih path identity
    | inProgress =>
      rw [h.fault]
      exact Attempt.projects_throw _
    | done => exact Attempt.projects_pure ()

theorem projects_start (h : watched.Projects part around) (depth : Nat) (entry : Option String)
    (path : FilePath) :
    Attempt.Projects (Prod.map id part) (start watched depth entry path)
      (start around depth entry path) := by
  refine (projects_identityOf h path).bind fun identity => ?_
  have hpure : Attempt.Projects (Prod.map id part) (pure identity : Build τ ε Identity)
      (pure identity) := Attempt.projects_pure identity
  have hmodule := (projects_module h depth path).bind fun _ => hpure
  cases entry with
  | none => exact (Attempt.projects_pure ()).bind fun _ => hmodule
  | some name => exact (projects_change _).bind fun _ => hmodule

end Build
end Bundler
