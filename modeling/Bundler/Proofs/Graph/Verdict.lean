import Bundler.Proofs.Graph.Reachability

/-!
# What a module has coming, whatever was built before

Where looking at files and processing modules always gives the same, a module can be built or it fails
for a reason of its own, and both are said without a graph: `Buildable` and `Fails`. Exploring comes to
this verdict from any graph that earlier explorations left, unless it meets a module that one of them
left in progress (`Explores.verdict`). Only modules that cannot be built are left in progress.
-/

namespace Bundler

open Relation

variable {σ ε : Type}

namespace Surroundings

/-- In all states like one, looking at files and processing modules gives the same as in that one, and
leaves a state like it. -/
structure Settled (around : Surroundings σ ε) (state : σ) (like : σ → Prop) : Prop where
  isFile : ∀ path other, like other →
    ((around.isFile path).start other).1 = ((around.isFile path).start state).1
      ∧ like ((around.isFile path).start other).2
  process : ∀ path identity other, like other →
    ((around.process path identity).start other).1 = ((around.process path identity).start state).1
      ∧ like ((around.process path identity).start other).2

variable (around : Surroundings σ ε) (state : σ)

/-- A module can be built: it is a file that can be processed, all modules it loads can be built, and
this comes to an end. -/
inductive Buildable : Identity → Prop
  | intro {identity : Identity} {code : String} {dependencies : List Identity}
    (hfile : ((around.isFile (identity.path around.root)).start state).1 = .ok true)
    (houtcome : around.outcome state identity = .ok (code, dependencies))
    (hloads : ∀ dependency ∈ dependencies, Buildable dependency) : Buildable identity

/-- A module fails for this reason when it is asked for by modules in progress, innermost first. -/
inductive Fails : List Identity → Identity → ε → Prop
  | cycle {stack : List Identity} {identity : Identity} (hmem : identity ∈ stack) :
    Fails stack identity
      (around.fault (.cycle (stack.reverse.dropWhile (· ≠ identity) ++ [identity])))
  | unreadable {stack : List Identity} {identity : Identity} {fault : ε} (hnot : identity ∉ stack)
    (hfile : ((around.isFile (identity.path around.root)).start state).1 = .error fault) :
    Fails stack identity fault
  | missing {stack : List Identity} {identity : Identity} (hnot : identity ∉ stack)
    (hfile : ((around.isFile (identity.path around.root)).start state).1 = .ok false) :
    Fails stack identity (around.fault (.missing identity stack.head?))
  | unprocessed {stack : List Identity} {identity : Identity} {fault : ε} (hnot : identity ∉ stack)
    (hfile : ((around.isFile (identity.path around.root)).start state).1 = .ok true)
    (houtcome : around.outcome state identity = .error fault) : Fails stack identity fault
  | inner {stack : List Identity} {identity dependency : Identity} {code : String}
    {before after : List Identity} {fault : ε} (hnot : identity ∉ stack)
    (hfile : ((around.isFile (identity.path around.root)).start state).1 = .ok true)
    (houtcome : around.outcome state identity = .ok (code, before ++ dependency :: after))
    (hbefore : ∀ other ∈ before, Buildable around state other)
    (hfails : Fails (identity :: stack) dependency fault) : Fails stack identity fault

/-- What building files one after the other comes to, when they are asked for by modules in progress
and others were left in progress before: the first file that cannot be built decides. -/
inductive Verdict (left : Identity → Prop) (stack : List Identity) :
    List FilePath → Except ε Unit → Prop
  | nothing : Verdict left stack [] (.ok ())
  | next {path : FilePath} {rest : List FilePath} {identity : Identity} {result : Except ε Unit}
    (hname : Identity.ofPath? around.root path = some identity)
    (hbuildable : Buildable around state identity) (hrest : Verdict left stack rest result) :
    Verdict left stack (path :: rest) result
  | outside {path : FilePath} {rest : List FilePath}
    (hname : Identity.ofPath? around.root path = none) :
    Verdict left stack (path :: rest) (.error (around.fault (.outside path around.root)))
  | fails {path : FilePath} {rest : List FilePath} {identity : Identity} {fault : ε}
    (hname : Identity.ofPath? around.root path = some identity)
    (hfails : Fails around state stack identity fault) :
    Verdict left stack (path :: rest) (.error fault)
  | blocked {path : FilePath} {rest : List FilePath} {identity stuck : Identity}
    (hname : Identity.ofPath? around.root path = some identity)
    (hleads : ReflTransGen (around.Loads state) identity stuck) (hleft : left stuck) :
    Verdict left stack (path :: rest) (.error (around.fault (.notOnStack stuck)))

variable {around state} {stack : List Identity} {identity other : Identity} {fault fault' : ε}

theorem Settled.isFile_of_start {like : σ → Prop} (hsettled : around.Settled state like)
    {path : FilePath} {answer : Except ε Bool} {start looked : σ} (hlike : like start)
    (hname : Identity.ofPath? around.root path = some identity)
    (hfile : (around.isFile path).start start = (answer, looked)) :
    like looked ∧ ((around.isFile (identity.path around.root)).start state).1 = answer := by
  obtain ⟨hanswer, hlooked⟩ := hsettled.isFile path start hlike
  rw [hfile] at hanswer hlooked
  rw [Identity.path_of_ofPath? hname]
  exact ⟨hlooked, hanswer.symm⟩

theorem Settled.outcome_of_process {like : σ → Prop} (hsettled : around.Settled state like)
    {path : FilePath} {answer : Except ε (String × List Identity)} {start processed : σ}
    (hlike : like start) (hname : Identity.ofPath? around.root path = some identity)
    (hprocess : (around.process path identity).start start = (answer, processed)) :
    like processed ∧ around.outcome state identity = answer := by
  obtain ⟨hanswer, hprocessed⟩ := hsettled.process path identity start hlike
  rw [hprocess] at hanswer hprocessed
  rw [outcome, Identity.path_of_ofPath? hname]
  exact ⟨hprocessed, hanswer.symm⟩

/-! ### The verdict is unique -/

theorem Buildable.of_loads (h : around.Buildable state identity)
    (hloads : around.Loads state identity other) : around.Buildable state other := by
  obtain ⟨code, dependencies, houtcome, hmem⟩ := hloads
  cases h with
  | intro hfile houtcome' hall =>
    rw [houtcome'] at houtcome
    cases houtcome
    exact hall other hmem

theorem Buildable.of_leads (h : around.Buildable state identity)
    (hleads : ReflTransGen (around.Loads state) identity other) : around.Buildable state other := by
  induction hleads with
  | refl => exact h
  | tail _ hloads ih => exact ih.of_loads hloads

theorem Buildable.not_transGen (h : around.Buildable state identity) :
    ¬ TransGen (around.Loads state) identity identity := by
  induction h with
  | @intro identity code dependencies hfile houtcome hall ih =>
    intro hcycle
    obtain ⟨next, hnext, hback⟩ := TransGen.head'_iff.1 hcycle
    obtain ⟨code', dependencies', houtcome', hmem⟩ := hnext
    rw [houtcome] at houtcome'
    cases houtcome'
    exact ih next hmem (.tail' hback ⟨code, dependencies, houtcome, hmem⟩)

theorem Fails.not_buildable (h : around.Fails state stack identity fault)
    (hchain : ∀ outer ∈ stack, TransGen (around.Loads state) outer identity) :
    ¬ around.Buildable state identity := by
  induction h with
  | cycle hmem => exact fun hbuildable => hbuildable.not_transGen (hchain _ hmem)
  | unreadable hnot hfile =>
    rintro ⟨hfile', -, -⟩
    rw [hfile] at hfile'
    cases hfile'
  | missing hnot hfile =>
    rintro ⟨hfile', -, -⟩
    rw [hfile] at hfile'
    cases hfile'
  | unprocessed hnot hfile houtcome =>
    rintro ⟨-, houtcome', -⟩
    rw [houtcome] at houtcome'
    cases houtcome'
  | @inner stack identity dependency code before after fault hnot hfile houtcome hbefore hfails ih =>
    intro hbuildable
    have hloads : around.Loads state identity dependency := ⟨code, _, houtcome, by simp⟩
    refine ih (List.forall_mem_cons.2 ⟨.single hloads, ?_⟩) (hbuildable.of_loads hloads)
    exact fun outer houter => (hchain outer houter).tail hloads

/-- The first element without a property is the same in all ways to take a list apart. -/
theorem eq_of_append_cons {α : Type} {p : α → Prop} {before before' after after' : List α} {x x' : α}
    (h : before ++ x :: after = before' ++ x' :: after') (hbefore : ∀ y ∈ before, p y) (hx : ¬ p x)
    (hbefore' : ∀ y ∈ before', p y) (hx' : ¬ p x') : before = before' ∧ x = x' := by
  induction before generalizing before' with
  | nil =>
    cases before' with
    | nil => exact ⟨rfl, (List.cons.inj h).1⟩
    | cons y rest => exact absurd (hbefore' x ((List.cons.inj h).1 ▸ List.mem_cons_self)) hx
  | cons y rest ih =>
    rw [List.forall_mem_cons] at hbefore
    cases before' with
    | nil => exact absurd ((List.cons.inj h).1 ▸ hbefore.1) hx'
    | cons y' rest' =>
      rw [List.forall_mem_cons] at hbefore'
      obtain ⟨rfl, hrest⟩ := List.cons.inj h
      obtain ⟨rfl, hsame⟩ := ih hrest hbefore.2 hbefore'.2
      exact ⟨rfl, hsame⟩

theorem Fails.unique (h : around.Fails state stack identity fault)
    (h' : around.Fails state stack identity fault')
    (hchain : ∀ outer ∈ stack, TransGen (around.Loads state) outer identity) : fault = fault' := by
  induction h with
  | cycle hmem =>
    cases h' with
    | cycle => rfl
    | _ => contradiction
  | unreadable hnot hfile => cases h' <;> simp_all
  | missing hnot hfile => cases h' <;> simp_all
  | unprocessed hnot hfile houtcome => cases h' <;> simp_all
  | @inner stack identity dependency code before after fault hnot hfile houtcome hbefore hfails ih =>
    have hchain' : ∀ other, around.Loads state identity other →
        ∀ outer ∈ identity :: stack, TransGen (around.Loads state) outer other := fun other hloads =>
      List.forall_mem_cons.2 ⟨.single hloads, fun outer houter => (hchain outer houter).tail hloads⟩
    cases h' with
    | cycle hmem => exact absurd hmem hnot
    | unreadable _ hfile' => simp_all
    | missing _ hfile' => simp_all
    | unprocessed _ _ houtcome' => simp_all
    | @inner _ _ dependency' code' before' after' _ _ _ houtcome' hbefore' hfails' =>
      have hloads : around.Loads state identity dependency := ⟨code, _, houtcome, by simp⟩
      have hloads' : around.Loads state identity dependency' := ⟨code', _, houtcome', by simp⟩
      rw [houtcome, Except.ok.injEq, Prod.mk.injEq] at houtcome'
      obtain ⟨-, rfl⟩ := eq_of_append_cons houtcome'.2 hbefore
        (hfails.not_buildable (hchain' _ hloads)) hbefore' (hfails'.not_buildable (hchain' _ hloads'))
      exact ih hfails' (hchain' _ hloads)

/-! ### The verdict on the modules that a module loads -/

variable {left : Identity → Prop} {code : String} {dependencies : List Identity}
  {path : FilePath} {rest : List FilePath}

theorem Verdict.all_buildable {paths : List FilePath} {result : Except ε Unit}
    (h : around.Verdict state left stack paths result) (hok : result = .ok ()) :
    ∀ path ∈ paths, ∃ identity, Identity.ofPath? around.root path = some identity ∧
      around.Buildable state identity := by
  induction h with
  | nothing => simp
  | next hname hbuildable hrest ih => exact List.forall_mem_cons.2 ⟨⟨_, hname, hbuildable⟩, ih hok⟩
  | outside hname => cases hok
  | fails hname hfails => cases hok
  | blocked hname hleads hleft => cases hok

theorem Buildable.of_verdict
    (hnames : ∀ dependency ∈ dependencies,
      Identity.ofPath? around.root (dependency.path around.root) = some dependency)
    (hfile : ((around.isFile (identity.path around.root)).start state).1 = .ok true)
    (houtcome : around.outcome state identity = .ok (code, dependencies))
    (h : around.Verdict state left stack (dependencies.map (Identity.path around.root)) (.ok ())) :
    around.Buildable state identity := by
  refine .intro hfile houtcome fun dependency hmem => ?_
  obtain ⟨other, hother, hbuildable⟩ := h.all_buildable rfl _ (List.mem_map_of_mem hmem)
  rw [hnames dependency hmem] at hother
  exact Option.some.inj hother ▸ hbuildable

/-- The verdict on the modules that a module loads, when one of them cannot be built. -/
theorem Verdict.exists_dependency {inner : List Identity}
    (hnames : ∀ dependency ∈ dependencies,
      Identity.ofPath? around.root (dependency.path around.root) = some dependency)
    (h : around.Verdict state left inner (dependencies.map (Identity.path around.root))
      (.error fault)) :
    (∃ before dependency after, dependencies = before ++ dependency :: after ∧
        (∀ other ∈ before, around.Buildable state other) ∧
        around.Fails state inner dependency fault) ∨
      ∃ dependency ∈ dependencies, ∃ stuck, ReflTransGen (around.Loads state) dependency stuck ∧
        left stuck ∧ fault = around.fault (.notOnStack stuck) := by
  induction dependencies with
  | nil => cases h
  | cons dependency rest ih =>
    rw [List.forall_mem_cons] at hnames
    cases h with
    | outside hname =>
      rw [hnames.1] at hname
      cases hname
    | fails hname hfails =>
      obtain rfl := Option.some.inj (hnames.1.symm.trans hname)
      exact .inl ⟨[], dependency, rest, rfl, by simp, hfails⟩
    | blocked hname hleads hleft =>
      obtain rfl := Option.some.inj (hnames.1.symm.trans hname)
      exact .inr ⟨dependency, List.mem_cons_self, _, hleads, hleft, rfl⟩
    | next hname hbuildable hrest =>
      obtain rfl := Option.some.inj (hnames.1.symm.trans hname)
      rcases ih hnames.2 hrest with ⟨before, other, after, rfl, hbefore, hfails⟩ | ⟨other, hmem, hblocked⟩
      · exact .inl ⟨dependency :: before, other, after, rfl,
          List.forall_mem_cons.2 ⟨hbuildable, hbefore⟩, hfails⟩
      · exact .inr ⟨other, List.mem_cons_of_mem _ hmem, hblocked⟩

theorem Verdict.of_dependencies
    (hnames : ∀ dependency ∈ dependencies,
      Identity.ofPath? around.root (dependency.path around.root) = some dependency)
    (hname : Identity.ofPath? around.root path = some identity) (hnot : identity ∉ stack)
    (hfile : ((around.isFile (identity.path around.root)).start state).1 = .ok true)
    (houtcome : around.outcome state identity = .ok (code, dependencies))
    (h : around.Verdict state left (identity :: stack)
      (dependencies.map (Identity.path around.root)) (.error fault)) :
    around.Verdict state left stack (path :: rest) (.error fault) := by
  rcases h.exists_dependency hnames with
    ⟨before, dependency, after, rfl, hbefore, hfails⟩ | ⟨dependency, hmem, stuck, hleads, hleft, rfl⟩
  · exact .fails hname (.inner hnot hfile houtcome hbefore hfails)
  · exact .blocked hname (.head ⟨code, dependencies, houtcome, hmem⟩ hleads) hleft

theorem Verdict.not_buildable (hleft : ∀ other, left other → ¬ around.Buildable state other)
    (hname : Identity.ofPath? around.root path = some identity)
    (hchain : ∀ outer ∈ stack, TransGen (around.Loads state) outer identity)
    (h : around.Verdict state left stack [path] (.error fault)) : ¬ around.Buildable state identity := by
  cases h with
  | next hother hbuildable hrest => cases hrest
  | outside hother =>
    rw [hname] at hother
    cases hother
  | fails hother hfails =>
    obtain rfl := Option.some.inj (hname.symm.trans hother)
    exact hfails.not_buildable hchain
  | blocked hother hleads hstuck =>
    obtain rfl := Option.some.inj (hname.symm.trans hother)
    exact fun hbuildable => hleft _ hstuck (hbuildable.of_leads hleads)

/-- Where modules were left in progress the verdict on a file is the same as where none were, unless the
file leads to one of these. -/
theorem Verdict.eq_or_blocked (hleft : ∀ other, left other → ¬ around.Buildable state other)
    {later fresh : Except ε Unit} (h : around.Verdict state left [] [path] later)
    (hfresh : around.Verdict state (fun _ => False) [] [path] fresh) :
    later = fresh ∨ ∃ identity stuck fault, Identity.ofPath? around.root path = some identity ∧
      ReflTransGen (around.Loads state) identity stuck ∧ left stuck ∧
      later = .error (around.fault (.notOnStack stuck)) ∧ fresh = .error fault ∧
      around.Fails state [] identity fault := by
  have hchain : ∀ identity, ∀ outer ∈ ([] : List Identity),
      TransGen (around.Loads state) outer identity := by simp
  cases hfresh with
  | outside hname =>
    have hlater : later = .error (around.fault (.outside path around.root)) := by
      cases h with
      | outside => rfl
      | next hother => exact absurd (hname.symm.trans hother) nofun
      | fails hother => exact absurd (hname.symm.trans hother) nofun
      | blocked hother => exact absurd (hname.symm.trans hother) nofun
    exact .inl hlater
  | blocked hname hleads hnone => exact hnone.elim
  | next hname hbuildable hnothing =>
    cases hnothing
    cases later with
    | ok => exact .inl rfl
    | error fault => exact absurd hbuildable (h.not_buildable hleft hname (hchain _))
  | @fails path rest identity fault hname hfails =>
    cases h with
    | outside hother => exact absurd (hname.symm.trans hother) nofun
    | next hother hbuildable =>
      obtain rfl := Option.some.inj (hname.symm.trans hother)
      exact absurd hbuildable (hfails.not_buildable (hchain _))
    | fails hother hfails' =>
      obtain rfl := Option.some.inj (hname.symm.trans hother)
      exact .inl (congrArg Except.error (hfails'.unique hfails (hchain _)))
    | @blocked path rest other stuck hother hleads hstuck =>
      obtain rfl := Option.some.inj (hname.symm.trans hother)
      exact .inr ⟨identity, stuck, fault, hname, hleads, hstuck, rfl, rfl, hfails⟩

/-- A module fails for a reason that is a fault of a file or of processing it, or is found by the
exploration itself. -/
theorem Fails.of_faults {reason : ε → Prop} (h : around.Fails state stack identity fault)
    (hfile : ∀ path fault, ((around.isFile path).start state).1 = .error fault → reason fault)
    (hprocess : ∀ identity fault, around.outcome state identity = .error fault → reason fault)
    (hcycle : ∀ identities, reason (around.fault (.cycle identities)))
    (hmissing : ∀ identity importer, reason (around.fault (.missing identity importer))) :
    reason fault := by
  induction h with
  | cycle hmem => exact hcycle _
  | unreadable hnot hfault => exact hfile _ _ hfault
  | missing hnot hnone => exact hmissing _ _
  | unprocessed hnot htrue houtcome => exact hprocess _ _ houtcome
  | inner hnot htrue houtcome hbefore hfails ih => exact ih

end Surroundings

namespace Build

/-- A graph whose modules done can all be built, in which the modules in progress are those on the stack
and those left by earlier explorations. The modules on the stack are different files from one another
and each of them leads to every module asked for; all but the outermost were loaded by a module. -/
structure Underway (around : Surroundings σ ε) (state : σ) (below left : Identity → Prop)
    (graph : Graph) (paths : List FilePath) : Prop where
  done : ∀ identity, graph.visit identity = .done → around.Buildable state identity
  inProgress_iff : ∀ identity,
    graph.visit identity = .inProgress ↔ identity ∈ graph.stack ∨ left identity
  nodup : graph.stack.Nodup
  isFile : ∀ identity ∈ graph.stack,
    ((around.isFile (identity.path around.root)).start state).1 = .ok true
  loaded : ∀ identity ∈ graph.stack.dropLast, below identity
  leads : ∀ path ∈ paths, ∀ identity, Identity.ofPath? around.root path = some identity →
    (∀ outer ∈ graph.stack, TransGen (around.Loads state) outer identity) ∧
      (graph.stack ≠ [] → below identity)

section Underway

variable {around : Surroundings σ ε} {state : σ} {below left : Identity → Prop} {graph inner : Graph}
  {path : FilePath} {others : List FilePath} {identity : Identity} {code : String}
  {dependencies : List Identity}

theorem Underway.rest (h : Underway around state below left graph (path :: others)) :
    Underway around state below left graph others :=
  { h with leads := fun path hpath => h.leads path (List.mem_cons_of_mem _ hpath) }

theorem Underway.notMem_stack (h : Underway around state below left graph (path :: others))
    (hvisit : graph.visit identity = .unvisited) : identity ∉ graph.stack := by
  intro hmem
  have hprogress := (h.inProgress_iff identity).2 (.inl hmem)
  rw [hvisit] at hprogress
  cases hprogress

theorem Underway.done_enter (h : Underway around state below left graph (path :: others)) (other : Identity)
    (hdone : (graph.enter identity).visit other = .done) : around.Buildable state other := by
  rw [Graph.visit_enter] at hdone
  split at hdone
  · cases hdone
  · exact h.done other hdone

theorem Underway.enter (h : Underway around state below left graph (path :: others))
    (hname : Identity.ofPath? around.root path = some identity)
    (hvisit : graph.visit identity = .unvisited)
    (hfile : ((around.isFile (identity.path around.root)).start state).1 = .ok true)
    (hnames : ∀ dependency ∈ dependencies,
      Identity.ofPath? around.root (dependency.path around.root) = some dependency)
    (houtcome : around.outcome state identity = .ok (code, dependencies))
    (hbelow : ∀ other, around.Loads state identity other → below other) :
    Underway around state below left (graph.enter identity)
      (dependencies.map (Identity.path around.root)) := by
  obtain ⟨hchain, hloaded⟩ := h.leads path List.mem_cons_self identity hname
  have hloads : ∀ dependency ∈ dependencies, around.Loads state identity dependency :=
    fun dependency hmem => ⟨code, dependencies, houtcome, hmem⟩
  refine ⟨h.done_enter, ?_, ?_, ?_, ?_, ?_⟩
  · intro other
    rw [Graph.visit_enter, Graph.stack_enter, List.mem_cons]
    split
    · next heq => simp [heq]
    · next hne => simp [hne, h.inProgress_iff other]
  · exact List.nodup_cons.2 ⟨h.notMem_stack hvisit, h.nodup⟩
  · exact List.forall_mem_cons.2 ⟨hfile, h.isFile⟩
  · rw [Graph.stack_enter]
    cases hstack : graph.stack with
    | nil => simp
    | cons last outer =>
      have hinner := h.loaded
      rw [hstack] at hinner
      rw [List.dropLast_cons_cons]
      exact List.forall_mem_cons.2 ⟨hloaded (by simp [hstack]), hinner⟩
  · intro path hpath other hother
    obtain ⟨dependency, hmem, rfl⟩ := List.mem_map.1 hpath
    obtain rfl := Option.some.inj ((hnames dependency hmem).symm.trans hother)
    refine ⟨List.forall_mem_cons.2 ⟨.single (hloads _ hmem), ?_⟩, fun _ => hbelow _ (hloads _ hmem)⟩
    exact fun outer houter => (hchain outer houter).tail (hloads _ hmem)

theorem Underway.record (h : Underway around state below left graph (path :: others))
    (hvisit : graph.visit identity = .unvisited) (hbuildable : around.Buildable state identity)
    (hgrows : (graph.enter identity).Grows inner)
    (hdone : ∀ other, inner.visit other = .done → around.Buildable state other)
    (hinner : ∀ other, inner.visit other = .inProgress
      ↔ (graph.enter identity).visit other = .inProgress) :
    Underway around state below left (inner.leave.record ⟨identity, path, code, dependencies⟩)
      others := by
  have hstack : (inner.leave.record ⟨identity, path, code, dependencies⟩).stack = graph.stack :=
    (Graph.Grows.of_enter hgrows).stack
  refine ⟨?_, ?_, hstack ▸ h.nodup, hstack ▸ h.isFile, hstack ▸ h.loaded, hstack ▸ h.rest.leads⟩
  · intro other hother
    rw [Graph.visit_record] at hother
    split at hother
    · next heq => exact heq ▸ hbuildable
    · exact hdone other hother
  · intro other
    rw [hstack, ← h.inProgress_iff]
    exact Graph.visit_record_of_enter hvisit (hinner other)

end Underway

/-- What an exploration leaves: the modules done can be built, and the modules newly in progress after a
failure cannot. -/
structure Remains (around : Surroundings σ ε) (state : σ) (before after : Graph) : Prop where
  done : ∀ identity, after.visit identity = .done → around.Buildable state identity
  inProgress : ∀ identity, after.visit identity = .inProgress →
    before.visit identity = .inProgress ∨ ¬ around.Buildable state identity

theorem Remains.of_visit {around : Surroundings σ ε} {state : σ} {before after : Graph}
    (hdone : ∀ identity, before.visit identity = .done → around.Buildable state identity)
    (hvisit : ∀ identity, after.visit identity = before.visit identity) :
    Remains around state before after :=
  ⟨fun identity h => hdone identity (hvisit identity ▸ h), fun identity h => .inl (hvisit identity ▸ h)⟩

/-- A module that was entered and failed is left in progress. -/
theorem Remains.of_enter {around : Surroundings σ ε} {state : σ} {graph inner : Graph}
    {identity : Identity} (hfails : ¬ around.Buildable state identity)
    (hinner : Remains around state (graph.enter identity) inner) :
    Remains around state graph inner.leave := by
  refine ⟨hinner.done, fun other hvisit => ?_⟩
  rcases hinner.inProgress other hvisit with hbefore | hnot
  · rw [Graph.visit_enter] at hbefore
    split at hbefore
    · next heq => exact .inr (heq ▸ hfails)
    · exact .inl hbefore
  · exact .inr hnot

variable {around : Surroundings σ ε} {state : σ} {like : σ → Prop} {below left : Identity → Prop}
  {depth : Nat} {paths : List FilePath} {before after : Graph × σ} {result : Except ε Unit}

theorem Explores.verdict (hsettled : around.Settled state like) (hnames : around.NamesModules)
    (hbelow : ∀ path identity, Identity.ofPath? around.root path = some identity →
      ∀ other, around.Loads state identity other → below other)
    {bound : Nat} (hbound : ∀ identities : List Identity, identities.Nodup →
      (∀ identity ∈ identities,
        ((around.isFile (identity.path around.root)).start state).1 = .ok true) →
      (∀ identity ∈ identities.dropLast, below identity) → identities.length ≤ bound)
    (hleft : ∀ identity, left identity → ¬ around.Buildable state identity)
    (h : Explores around depth paths before result after) (hlike : like before.2)
    (hbefore : before.1.Consistent) (hunderway : Underway around state below left before.1 paths)
    (hdepth : bound < depth + before.1.stack.length) :
    around.Verdict state left before.1.stack paths result ∧ like after.2 ∧
      Remains around state before.1 after.1 := by
  induction h with
  | nothing depth start => exact ⟨.nothing, hlike, .of_visit hunderway.done fun _ => rfl⟩
  | tooDeep path rest start =>
    have hlength := hbound _ hunderway.nodup hunderway.isFile hunderway.loaded
    omega
  | outside hname => exact ⟨.outside hname, hlike, .of_visit hunderway.done fun _ => rfl⟩
  | known hname hvisit hrest ih =>
    obtain ⟨hverdict, hafter, hremains⟩ := ih hlike hbefore hunderway.rest hdepth
    exact ⟨.next hname (hunderway.done _ hvisit) hverdict, hafter, hremains⟩
  | @cycle depth path rest graph start identity hname hvisit =>
    refine ⟨?_, hlike, .of_visit hunderway.done fun _ => rfl⟩
    by_cases hmem : identity ∈ graph.stack
    · rw [Graph.cycleAt, if_pos (by simpa using hmem)]
      exact .fails hname (.cycle hmem)
    · rw [Graph.cycleAt, if_neg (by simpa using hmem)]
      exact .blocked hname .refl (((hunderway.inProgress_iff identity).1 hvisit).resolve_left hmem)
  | unreadable hname hvisit hfile =>
    obtain ⟨hlooked, hanswer⟩ := hsettled.isFile_of_start hlike hname hfile
    refine ⟨.fails hname (.unreadable (hunderway.notMem_stack hvisit) hanswer), hlooked, ?_⟩
    exact .of_visit hunderway.done fun _ => rfl
  | missing hname hvisit hfile =>
    obtain ⟨hlooked, hanswer⟩ := hsettled.isFile_of_start hlike hname hfile
    refine ⟨.fails hname (.missing (hunderway.notMem_stack hvisit) hanswer), hlooked, ?_⟩
    exact .of_visit hunderway.done fun _ => rfl
  | unprocessed hname hvisit hfile hprocess =>
    obtain ⟨hlooked, hanswer⟩ := hsettled.isFile_of_start hlike hname hfile
    obtain ⟨hprocessed, houtcome⟩ := hsettled.outcome_of_process hlooked hname hprocess
    have hfails := Surroundings.Fails.unprocessed (hunderway.notMem_stack hvisit) hanswer houtcome
    have hchain := (hunderway.leads _ List.mem_cons_self _ hname).1
    refine ⟨.fails hname hfails, hprocessed, .of_enter (hfails.not_buildable hchain) ?_⟩
    exact .of_visit hunderway.done_enter fun _ => rfl
  | @broken depth path rest graph start identity looked code dependencies processed fault inner last
      hname hvisit hfile hprocess hinner ih =>
    obtain ⟨hlooked, hanswer⟩ := hsettled.isFile_of_start hlike hname hfile
    obtain ⟨hprocessed, houtcome⟩ := hsettled.outcome_of_process hlooked hname hprocess
    have hdependencies := hnames _ _ _ _ _ _ hname hprocess
    have hentered := hunderway.enter hname hvisit hanswer hdependencies houtcome
      (hbelow path identity hname)
    obtain ⟨hverdict, hlast, hremains⟩ := ih hprocessed (hbefore.enter hvisit) hentered
      (by simp only [Graph.stack_enter, List.length_cons] at hdepth ⊢; omega)
    have hchain := (hunderway.leads _ List.mem_cons_self _ hname).1
    have hdecides : ∀ others, around.Verdict state left graph.stack (path :: others) (.error fault) :=
      fun others => hverdict.of_dependencies hdependencies hname (hunderway.notMem_stack hvisit) hanswer
        houtcome
    exact ⟨hdecides rest, hlast, .of_enter ((hdecides []).not_buildable hleft hname hchain) hremains⟩
  | @recorded depth path rest graph start identity looked code dependencies processed inner last result
      after hname hvisit hfile hprocess hinner hrest ihInner ihRest =>
    obtain ⟨hlooked, hanswer⟩ := hsettled.isFile_of_start hlike hname hfile
    obtain ⟨hprocessed, houtcome⟩ := hsettled.outcome_of_process hlooked hname hprocess
    have hdependencies := hnames _ _ _ _ _ _ hname hprocess
    have hentered := hunderway.enter hname hvisit hanswer hdependencies houtcome
      (hbelow path identity hname)
    obtain ⟨hverdict, hlast, hremains⟩ := ihInner hprocessed (hbefore.enter hvisit) hentered
      (by simp only [Graph.stack_enter, List.length_cons] at hdepth ⊢; omega)
    have hbuildable := Surroundings.Buildable.of_verdict hdependencies hanswer houtcome hverdict
    have hgrows := (hinner.consistent hnames (hbefore.enter hvisit)).2.1
    have hsame := hinner.inProgress_iff hnames rfl (hbefore.enter hvisit)
    have hrecord := (hinner.recordable hnames hname hprocess hbefore hvisit).1
    have hstack : (inner.leave.record ⟨identity, path, code, dependencies⟩).stack = graph.stack :=
      (Graph.Grows.of_enter hgrows).stack
    have hothers : Underway around state below left
        (inner.leave.record ⟨identity, path, code, dependencies⟩) rest :=
      hunderway.record hvisit hbuildable hgrows hremains.done hsame
    obtain ⟨hverdict', hafter, hremains'⟩ := ihRest hlast hrecord hothers (hstack ▸ hdepth)
    refine ⟨.next hname hbuildable (hstack ▸ hverdict'), hafter, hremains'.done, fun other hother => ?_⟩
    refine (hremains'.inProgress other hother).imp_left fun h => ?_
    exact (Graph.visit_record_of_enter hvisit (hsame other)).1 h

theorem Explores.inProgress_of_error (hnames : around.NamesModules) {path : FilePath} {graph : Graph}
    {start : σ} {identity : Identity} {fault : ε}
    (h : Explores around depth [path] (graph, start) (.error fault) after)
    (hgraph : graph.Consistent) (hdepth : depth ≠ 0)
    (hname : Identity.ofPath? around.root path = some identity)
    (hvisit : graph.visit identity = .unvisited)
    (hfile : ((around.isFile path).start start).1 = .ok true) : after.1.visit identity = .inProgress := by
  have hentered : (graph.enter identity).visit identity = .inProgress := by
    rw [Graph.visit_enter, if_pos rfl]
  cases h with
  | tooDeep => exact absurd rfl hdepth
  | outside hother =>
    rw [hname] at hother
    cases hother
  | known hother hdone =>
    obtain rfl := Option.some.inj (hname.symm.trans hother)
    rw [hvisit] at hdone
    cases hdone
  | cycle hother hprogress =>
    obtain rfl := Option.some.inj (hname.symm.trans hother)
    rw [hvisit] at hprogress
    cases hprogress
  | unreadable _ _ hfault =>
    rw [hfault] at hfile
    cases hfile
  | missing _ _ hnone =>
    rw [hnone] at hfile
    cases hfile
  | unprocessed hother =>
    obtain rfl := Option.some.inj (hname.symm.trans hother)
    exact hentered
  | broken hother _ _ _ hinner =>
    obtain rfl := Option.some.inj (hname.symm.trans hother)
    exact (hinner.consistent hnames (hgraph.enter hvisit)).2.1.inProgress identity hentered
  | recorded _ _ _ _ _ hrest => cases hrest

/-- A module in progress that is not on the stack is not built again. -/
theorem Explores.error_of_inProgress {path : FilePath} {graph : Graph} {start : σ} {identity : Identity}
    (h : Explores around depth [path] (graph, start) result after) (hdepth : depth ≠ 0)
    (hname : Identity.ofPath? around.root path = some identity)
    (hvisit : graph.visit identity = .inProgress) (hnot : identity ∉ graph.stack) :
    result = .error (around.fault (.notOnStack identity)) := by
  cases h with
  | tooDeep => exact absurd rfl hdepth
  | outside hother =>
    rw [hname] at hother
    cases hother
  | cycle hother =>
    obtain rfl := Option.some.inj (hname.symm.trans hother)
    rw [Graph.cycleAt, if_neg (by simpa using hnot)]
  | _ hother hvisit' =>
    obtain rfl := Option.some.inj (hname.symm.trans hother)
    rw [hvisit] at hvisit'
    cases hvisit'

end Build
end Bundler
