import Bundler.Attempt
import Bundler.Data.Value
import Bundler.Identity

/-!
# Module graphs

A graph is found depth first: a module is recorded after all modules it loads. `build` starts at a
file; what it needs of its surroundings, above all how a file is turned into code and a list of loaded
modules, is a parameter. A module that is reached while it is in progress closes a cycle.

How deep an interpreter can call itself is left out: `start` is given a bound on how many modules in
progress can lie inside one another, and callers give one that no graph of the file tree reaches.
-/

namespace Bundler

/-- How far the work on a module is. -/
inductive Visit
  | unvisited
  | inProgress
  | done
  deriving DecidableEq, Repr

structure ModuleRecord where
  identity : Identity
  path : FilePath
  code : String
  dependencies : List Identity
  deriving DecidableEq, Repr

/-- The modules found, the entries, how far the work on each module is, and the modules in progress,
innermost first. -/
structure Graph where
  modules : List (Identity × ModuleRecord) := []
  entries : List (String × Identity) := []
  visits : List (Identity × Visit) := []
  stack : List Identity := []
  deriving DecidableEq, Repr

inductive GraphFault
  | outside (path root : FilePath)
  | missing (identity : Identity) (importer : Option Identity)
  | cycle (identities : List Identity)
  | notOnStack (identity : Identity)
  | tooDeep
  deriving DecidableEq, Repr

namespace Graph

def visit (graph : Graph) (identity : Identity) : Visit :=
  (Data.fieldOf? identity graph.visits).getD .unvisited

def codes (graph : Graph) : List (Identity × String) :=
  graph.modules.map fun (identity, record) => (identity, record.code)

def identities (graph : Graph) : List Identity := graph.modules.map (·.1)

def entry? (graph : Graph) : Option Identity := graph.entries.head?.map (·.2)

def addEntry (name : String) (identity : Identity) (graph : Graph) : Graph :=
  { graph with entries := Data.setField name identity graph.entries }

def enter (identity : Identity) (graph : Graph) : Graph :=
  { graph with
    visits := Data.setField identity .inProgress graph.visits
    stack := identity :: graph.stack }

/-- Leaves the innermost module. -/
def leave (graph : Graph) : Graph := { graph with stack := graph.stack.tail }

def record (module : ModuleRecord) (graph : Graph) : Graph :=
  { graph with
    modules := Data.setField module.identity module graph.modules
    visits := Data.setField module.identity .done graph.visits }

/-- The modules in progress from one of them on, outermost first, and that one again. -/
def cycleAt (graph : Graph) (identity : Identity) : GraphFault :=
  if graph.stack.contains identity then
    .cycle (graph.stack.reverse.dropWhile (· ≠ identity) ++ [identity])
  else .notOnStack identity

end Graph

/-- What building a graph needs of its surroundings. -/
structure Surroundings (σ ε : Type) where
  root : FilePath
  isFile : FilePath → Attempt σ ε Bool
  process : FilePath → Identity → Attempt σ ε (String × List Identity)
  fault : GraphFault → ε

/-- A step of building a graph. -/
abbrev Build (σ ε α : Type) := Attempt (Graph × σ) ε α

namespace Build

variable {σ ε α : Type}

def outside (attempt : Attempt σ ε α) : Build σ ε α :=
  attempt.within (·.2) fun state whole => (whole.1, state)

def graph : Build σ ε Graph := Attempt.look fun state => .ok state.1

def change (f : Graph → Graph) : Build σ ε Unit := Attempt.update fun state => (f state.1, state.2)

def identityOf (around : Surroundings σ ε) (path : FilePath) : Build σ ε Identity :=
  match Identity.ofPath? around.root path with
  | some identity => pure identity
  | none => throw (around.fault (.outside path around.root))

/-- Processes a module and builds the modules it loads. -/
def expand (around : Surroundings σ ε) (next : FilePath → Build σ ε Unit) (path : FilePath)
    (identity : Identity) : Build σ ε ModuleRecord := do
  let (code, dependencies) ← outside (around.process path identity)
  dependencies.forM fun dependency => next (around.root.join (.ofString dependency))
  return { identity, path, code, dependencies }

/-- Does the work on a module that was not begun before. -/
def begin (around : Surroundings σ ε) (next : FilePath → Build σ ε Unit) (path : FilePath)
    (identity : Identity) : Build σ ε Unit := do
  let importer := (← graph).stack.head?
  if ← outside (around.isFile path) then
    change (.enter identity)
    let module ← (expand around next path identity).ensuring fun state => (state.1.leave, state.2)
    change (.record module)
  else throw (around.fault (.missing identity importer))

/-- Builds a module and the modules it loads. The number bounds how deep modules in progress can lie
inside one another. -/
def module (around : Surroundings σ ε) : Nat → FilePath → Build σ ε Unit
  | 0, _ => throw (around.fault .tooDeep)
  | depth + 1, path => do
    let identity ← identityOf around path
    let before ← graph
    match before.visit identity with
    | .done => pure ()
    | .inProgress => throw (around.fault (before.cycleAt identity))
    | .unvisited => begin around (module around depth) path identity

/-- Builds a module and the modules it loads, perhaps as an entry. -/
def start (around : Surroundings σ ε) (depth : Nat) (entry : Option String) (path : FilePath) :
    Build σ ε Identity := do
  let identity ← identityOf around path
  match entry with
  | some name => change (.addEntry name identity)
  | none => pure ()
  module around depth path
  return identity

end Build
end Bundler
