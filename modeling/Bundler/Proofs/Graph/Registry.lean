import Bundler.Proofs.Graph.Exploration
import Mathlib.Data.List.Nodup

/-!
# The registry of a graph

`Graph.Consistent` is what the registry keeps to whatever happens: the modules done are the modules
recorded, each under its own identity, each after the modules it loads. Building keeps it and only adds
to the registry (`Explores.consistent`), also when it fails.
-/

namespace Bundler

namespace Data

variable {α : Type} {key other : String} {value : α} {fields : List (String × α)}

theorem fieldOf?_setField :
    fieldOf? other (setField key value fields)
      = if other = key then some value else fieldOf? other fields := by
  induction fields with
  | nil =>
    by_cases h : other = key
    · simp [setField, fieldOf?, h]
    · simp [setField, fieldOf?, h, Ne.symm h]
  | cons field rest ih =>
    simp only [fieldOf?] at ih ⊢
    rw [setField]
    split
    · next hfield =>
      by_cases h : other = key
      · simp [h]
      · simp [h, Ne.symm h, hfield]
    · next hfield =>
      by_cases hother : field.1 = other
      · have h : other ≠ key := fun h => hfield (hother.trans h)
        simp [hother, h]
      · simpa [hother] using ih

theorem setField_eq_append (h : key ∉ fields.map (·.1)) :
    setField key value fields = fields ++ [(key, value)] := by
  induction fields with
  | nil => rfl
  | cons field rest ih =>
    rw [List.map_cons, List.mem_cons, not_or] at h
    rw [setField, if_neg (Ne.symm h.1), ih h.2, List.cons_append]

/-- A value that a key has already changes nothing. -/
theorem setField_eq_self (h : fieldOf? key fields = some value) : setField key value fields = fields := by
  induction fields with
  | nil => cases h
  | cons field rest ih =>
    by_cases hkey : field.1 = key
    · rw [fieldOf?, List.find?_cons_of_pos (by simp [hkey])] at h
      rw [setField, if_pos hkey, ← hkey, ← Option.some.inj h]
    · rw [fieldOf?, List.find?_cons_of_neg (by simp [hkey])] at h
      rw [setField, if_neg hkey, ih h]

end Data

namespace Graph

variable {graph : Graph} {identity other : Identity}

theorem visit_enter :
    (graph.enter identity).visit other
      = if other = identity then .inProgress else graph.visit other := by
  simp only [visit, enter, Data.fieldOf?_setField]
  split <;> rfl

@[simp] theorem visit_leave : graph.leave.visit other = graph.visit other := rfl

theorem visit_record {module : ModuleRecord} :
    (graph.record module).visit other
      = if other = module.identity then .done else graph.visit other := by
  simp only [visit, record, Data.fieldOf?_setField]
  split <;> rfl

@[simp] theorem modules_enter : (graph.enter identity).modules = graph.modules := rfl

@[simp] theorem modules_leave : graph.leave.modules = graph.modules := rfl

@[simp] theorem stack_enter : (graph.enter identity).stack = identity :: graph.stack := rfl

@[simp] theorem entries_enter : (graph.enter identity).entries = graph.entries := rfl

@[simp] theorem entries_leave : graph.leave.entries = graph.entries := rfl

@[simp] theorem entries_record {module : ModuleRecord} :
    (graph.record module).entries = graph.entries := rfl

@[simp] theorem stack_record {module : ModuleRecord} : (graph.record module).stack = graph.stack := rfl

/-- The modules done are the modules recorded, each under its own identity and after the modules it
loads. -/
structure Consistent (graph : Graph) : Prop where
  nodup : graph.identities.Nodup
  done_iff : ∀ identity, graph.visit identity = .done ↔ identity ∈ graph.identities
  identity_eq : ∀ entry ∈ graph.modules, entry.2.identity = entry.1
  ordered : ∀ before entry after, graph.modules = before ++ entry :: after →
    ∀ dependency ∈ entry.2.dependencies, dependency ∈ before.map (·.1)

/-- A later graph has all modules of an earlier one in their places, the same modules in progress and
the same entries. -/
structure Grows (graph later : Graph) : Prop where
  modules : graph.modules <+: later.modules
  stack : later.stack = graph.stack
  entries : later.entries = graph.entries
  inProgress : ∀ identity, graph.visit identity = .inProgress → later.visit identity = .inProgress

theorem Grows.refl (graph : Graph) : graph.Grows graph :=
  ⟨List.prefix_rfl, rfl, rfl, fun _ h => h⟩

theorem Grows.trans {first second third : Graph} (h : first.Grows second) (h' : second.Grows third) :
    first.Grows third :=
  ⟨h.modules.trans h'.modules, h'.stack.trans h.stack, h'.entries.trans h.entries,
    fun identity hvisit => h'.inProgress identity (h.inProgress identity hvisit)⟩

theorem Grows.done (hgrows : graph.Grows later) (hgraph : graph.Consistent)
    (hlater : later.Consistent) (hvisit : graph.visit identity = .done) :
    later.visit identity = .done :=
  (hlater.done_iff identity).2
    ((hgrows.modules.map (·.1)).subset ((hgraph.done_iff identity).1 hvisit))

theorem Consistent.empty : ({} : Graph).Consistent where
  nodup := List.nodup_nil
  done_iff identity := by simp [visit, Data.fieldOf?, identities]
  identity_eq := by simp
  ordered before entry after h := by simp at h

theorem Consistent.enter (hgraph : graph.Consistent) (hvisit : graph.visit identity = .unvisited) :
    (graph.enter identity).Consistent where
  nodup := hgraph.nodup
  done_iff other := by
    rw [visit_enter]
    split
    · next h =>
      subst h
      have hnot : other ∉ graph.identities := by
        rw [← hgraph.done_iff, hvisit]
        simp
      simpa [identities] using hnot
    · exact hgraph.done_iff other
  identity_eq := hgraph.identity_eq
  ordered := hgraph.ordered

theorem Consistent.leave (hgraph : graph.Consistent) : graph.leave.Consistent :=
  ⟨hgraph.nodup, hgraph.done_iff, hgraph.identity_eq, hgraph.ordered⟩

theorem modules_record {module : ModuleRecord} (hgraph : graph.Consistent)
    (hvisit : graph.visit module.identity ≠ .done) :
    (graph.record module).modules = graph.modules ++ [(module.identity, module)] :=
  Data.setField_eq_append fun h => hvisit ((hgraph.done_iff _).2 h)

theorem Consistent.record {module : ModuleRecord} (hgraph : graph.Consistent)
    (hvisit : graph.visit module.identity ≠ .done)
    (hdone : ∀ dependency ∈ module.dependencies, graph.visit dependency = .done) :
    (graph.record module).Consistent := by
  have hmodules := modules_record hgraph hvisit
  have hidentities : (graph.record module).identities = graph.identities ++ [module.identity] := by
    simp [identities, hmodules]
  have hnot : module.identity ∉ graph.identities := fun h => hvisit ((hgraph.done_iff _).2 h)
  refine ⟨?_, ?_, ?_, ?_⟩
  · rw [hidentities]
    refine List.nodup_append.2 ⟨hgraph.nodup, List.nodup_singleton _, ?_⟩
    intro other hother last hlast h
    rw [List.mem_singleton] at hlast
    exact hnot (hlast ▸ h ▸ hother)
  · intro other
    rw [visit_record, hidentities, List.mem_append, List.mem_singleton, ← hgraph.done_iff]
    split
    · next h => simp [h]
    · next h => simp [h]
  · intro entry hentry
    rw [hmodules, List.mem_append, List.mem_singleton] at hentry
    rcases hentry with hentry | rfl
    · exact hgraph.identity_eq entry hentry
    · rfl
  · intro before entry after hsplit dependency hdependency
    rw [hmodules] at hsplit
    rcases List.eq_nil_or_concat after with rfl | ⟨others, last, rfl⟩
    · -- the new record, whose dependencies are all done
      obtain ⟨rfl, hlast⟩ := List.append_inj' hsplit rfl
      rw [List.cons.injEq] at hlast
      obtain ⟨rfl, -⟩ := hlast
      exact (hgraph.done_iff dependency).1 (hdone dependency hdependency)
    · rw [List.concat_eq_append, ← List.cons_append, ← List.append_assoc] at hsplit
      exact hgraph.ordered before entry others (List.append_inj' hsplit rfl).1 dependency hdependency

theorem Grows.of_enter {inner : Graph} (hinner : (graph.enter identity).Grows inner) :
    graph.Grows inner.leave where
  modules := hinner.modules
  stack := by rw [Graph.leave, hinner.stack, stack_enter, List.tail_cons]
  entries := hinner.entries
  inProgress other h := by
    refine hinner.inProgress other ?_
    rw [visit_enter]
    split
    · rfl
    · exact h

theorem Grows.not_done_of_enter {inner : Graph} (hinner : (graph.enter identity).Grows inner) :
    inner.leave.visit identity ≠ .done := by
  have hprogress : inner.leave.visit identity = .inProgress :=
    hinner.inProgress identity (by rw [visit_enter, if_pos rfl])
  simp [hprogress]

theorem Grows.record {later : Graph} {module : ModuleRecord} (hgrows : graph.Grows later)
    (hlater : later.Consistent) (hnew : graph.visit module.identity = .unvisited)
    (hvisit : later.visit module.identity ≠ .done) : graph.Grows (later.record module) where
  modules := by
    rw [modules_record hlater hvisit]
    exact hgrows.modules.trans (List.prefix_append _ _)
  stack := hgrows.stack
  entries := hgrows.entries
  inProgress other h := by
    have hother : other ≠ module.identity := by
      rintro rfl
      rw [hnew] at h
      cases h
    rw [visit_record, if_neg hother]
    exact hgrows.inProgress other h

/-- A module that was entered and is recorded is the only one whose work went further, if that of the
others did not. -/
theorem visit_record_of_enter {inner : Graph} {module : ModuleRecord}
    (hnew : graph.visit module.identity = .unvisited)
    (hinner : inner.visit other = .inProgress
      ↔ (graph.enter module.identity).visit other = .inProgress) :
    (inner.leave.record module).visit other = .inProgress ↔ graph.visit other = .inProgress := by
  rw [visit_record]
  rw [visit_enter] at hinner
  split
  · next heq => simp [heq, hnew]
  · next hne =>
    rw [if_neg hne] at hinner
    exact hinner

/-- Only the modules on the stack are in progress. -/
def Clean (graph : Graph) : Prop :=
  ∀ identity, graph.visit identity = .inProgress → identity ∈ graph.stack

theorem Clean.enter (hgraph : graph.Clean) : (graph.enter identity).Clean := by
  intro other hvisit
  rw [visit_enter] at hvisit
  split at hvisit
  · next heq => exact heq ▸ List.mem_cons_self
  · exact List.mem_cons_of_mem _ (hgraph other hvisit)

theorem Grows.clean_record {inner : Graph} {module : ModuleRecord}
    (hinner : (graph.enter module.identity).Grows inner) (hclean : inner.Clean) :
    (inner.leave.record module).Clean := by
  intro other hvisit
  rw [visit_record] at hvisit
  split at hvisit
  · cases hvisit
  next hne =>
  have hmem := hclean other hvisit
  rw [hinner.stack, stack_enter, List.mem_cons] at hmem
  rw [stack_record, (Grows.of_enter hinner).stack]
  exact hmem.resolve_left hne

end Graph

/-- Every module that a module of the root loads is named by an identity of the root. -/
def Surroundings.NamesModules {σ ε : Type} (around : Surroundings σ ε) : Prop :=
  ∀ path identity state code dependencies after,
    Identity.ofPath? around.root path = some identity →
    (around.process path identity).start state = (.ok (code, dependencies), after) →
    ∀ dependency ∈ dependencies,
      Identity.ofPath? around.root (dependency.path around.root) = some dependency

namespace Build

variable {σ ε : Type} {around : Surroundings σ ε} {depth : Nat} {paths : List FilePath}
  {before after : Graph × σ} {result : Except ε Unit}

/-- Modules that were built by their paths are done under their identities. -/
theorem dependencies_done (hnames : around.NamesModules) {path : FilePath} {identity : Identity}
    {code : String} {dependencies : List Identity} {looked processed : σ} {inner : Graph}
    (hname : Identity.ofPath? around.root path = some identity)
    (hprocess : (around.process path identity).start looked = (.ok (code, dependencies), processed))
    (hdone : ∀ path ∈ dependencies.map (Identity.path around.root), ∃ identity,
      Identity.ofPath? around.root path = some identity ∧ inner.visit identity = .done) :
    ∀ dependency ∈ dependencies, inner.leave.visit dependency = .done := by
  intro dependency hdependency
  obtain ⟨other, hother, hvisited⟩ :=
    hdone (dependency.path around.root) (List.mem_map_of_mem hdependency)
  rw [hnames path identity _ _ _ _ hname hprocess dependency hdependency] at hother
  obtain rfl := Option.some.inj hother
  exact hvisited

theorem Explores.consistent (hnames : around.NamesModules)
    (h : Explores around depth paths before result after) (hbefore : before.1.Consistent) :
    after.1.Consistent ∧ before.1.Grows after.1 ∧
      (result = .ok () → ∀ path ∈ paths, ∃ identity,
        Identity.ofPath? around.root path = some identity ∧ after.1.visit identity = .done) := by
  induction h with
  | nothing depth state => exact ⟨hbefore, .refl _, by simp⟩
  | tooDeep path rest state => exact ⟨hbefore, .refl _, nofun⟩
  | outside hname => exact ⟨hbefore, .refl _, nofun⟩
  | known hname hvisit hrest ih =>
    obtain ⟨hafter, hgrows, hdone⟩ := ih hbefore
    refine ⟨hafter, hgrows, fun hok => ?_⟩
    rw [List.forall_mem_cons]
    exact ⟨⟨_, hname, hgrows.done hbefore hafter hvisit⟩, hdone hok⟩
  | cycle hname hvisit => exact ⟨hbefore, .refl _, nofun⟩
  | unreadable hname hvisit hfile => exact ⟨hbefore, .refl _, nofun⟩
  | missing hname hvisit hfile => exact ⟨hbefore, .refl _, nofun⟩
  | unprocessed hname hvisit hfile hprocess =>
    exact ⟨(hbefore.enter hvisit).leave, .of_enter (.refl _), nofun⟩
  | broken hname hvisit hfile hprocess hinner ih =>
    obtain ⟨hinner, hgrows, -⟩ := ih (hbefore.enter hvisit)
    exact ⟨hinner.leave, .of_enter hgrows, nofun⟩
  | recorded hname hvisit hfile hprocess hinner hrest ihInner ihRest =>
    rename_i path rest graph state identity looked code dependencies processed inner last result after
    obtain ⟨hconsistent, hgrows, hdone⟩ := ihInner (hbefore.enter hvisit)
    have hdependencies := dependencies_done hnames hname hprocess (hdone rfl)
    have hnot := hgrows.not_done_of_enter
    have hrecord : (inner.leave.record ⟨identity, path, code, dependencies⟩).Consistent :=
      hconsistent.leave.record hnot hdependencies
    have hgrowsRecord : graph.Grows (inner.leave.record ⟨identity, path, code, dependencies⟩) :=
      (Graph.Grows.of_enter hgrows).record hconsistent.leave hvisit hnot
    obtain ⟨hafter, hgrowsRest, hdoneRest⟩ := ihRest hrecord
    refine ⟨hafter, hgrowsRecord.trans hgrowsRest, fun hok => ?_⟩
    rw [List.forall_mem_cons]
    refine ⟨⟨identity, hname, hgrowsRest.done hrecord hafter ?_⟩, hdoneRest hok⟩
    rw [Graph.visit_record, if_pos rfl]

theorem Explores.done (h : Explores around depth paths before result after) :
    (∀ identity, before.1.visit identity = .done → after.1.visit identity = .done) ∧
      (result = .ok () → ∀ path ∈ paths, ∃ identity,
        Identity.ofPath? around.root path = some identity ∧ after.1.visit identity = .done) := by
  have hentered : ∀ {graph inner : Graph} {identity : Identity}, graph.visit identity = .unvisited →
      (∀ other, (graph.enter identity).visit other = .done → inner.visit other = .done) →
      ∀ other, graph.visit other = .done → inner.visit other = .done := by
    intro graph inner identity hvisit hinner other hdone
    refine hinner other ?_
    rw [Graph.visit_enter, if_neg]
    · exact hdone
    · rintro rfl
      rw [hvisit] at hdone
      cases hdone
  induction h with
  | nothing => exact ⟨fun _ h => h, by simp⟩
  | tooDeep | outside | cycle | unreadable | missing => exact ⟨fun _ h => h, nofun⟩
  | known hname hvisit hrest ih =>
    refine ⟨ih.1, fun hok => ?_⟩
    rw [List.forall_mem_cons]
    exact ⟨⟨_, hname, ih.1 _ hvisit⟩, ih.2 hok⟩
  | unprocessed hname hvisit => exact ⟨hentered hvisit fun _ h => h, nofun⟩
  | broken hname hvisit hfile hprocess hinner ih => exact ⟨hentered hvisit ih.1, nofun⟩
  | recorded hname hvisit hfile hprocess hinner hrest ihInner ihRest =>
    rename_i path rest graph state identity looked code dependencies processed inner last result after
    have hrecorded : ∀ other, inner.visit other = .done →
        (inner.leave.record ⟨identity, path, code, dependencies⟩).visit other = .done := by
      intro other hdone
      rw [Graph.visit_record]
      split
      · rfl
      · exact hdone
    refine ⟨fun other hdone => ?_, fun hok => ?_⟩
    · exact ihRest.1 other (hrecorded other (hentered hvisit ihInner.1 other hdone))
    · rw [List.forall_mem_cons]
      refine ⟨⟨identity, hname, ihRest.1 identity ?_⟩, ihRest.2 hok⟩
      rw [Graph.visit_record, if_pos rfl]

/-- When the modules that a module loads are built, it can be recorded. -/
theorem Explores.recordable (hnames : around.NamesModules) {graph inner : Graph} {path : FilePath}
    {identity : Identity} {code : String} {dependencies : List Identity} {looked processed last : σ}
    (hname : Identity.ofPath? around.root path = some identity)
    (hprocess : (around.process path identity).start looked = (.ok (code, dependencies), processed))
    (hinner : Explores around depth (dependencies.map (Identity.path around.root))
      (graph.enter identity, processed) (.ok ()) (inner, last))
    (hgraph : graph.Consistent) (hvisit : graph.visit identity = .unvisited) :
    (inner.leave.record ⟨identity, path, code, dependencies⟩).Consistent ∧
      (inner.leave.record ⟨identity, path, code, dependencies⟩).modules
        = inner.modules ++ [(identity, ⟨identity, path, code, dependencies⟩)] := by
  obtain ⟨hconsistent, hgrows, hdone⟩ := hinner.consistent hnames (hgraph.enter hvisit)
  have hnot := hgrows.not_done_of_enter
  refine ⟨hconsistent.leave.record hnot ?_, Graph.modules_record hconsistent.leave hnot⟩
  exact dependencies_done hnames hname hprocess (hdone rfl)

theorem Explores.inProgress_iff (hnames : around.NamesModules)
    (h : Explores around depth paths before result after) (hok : result = .ok ())
    (hbefore : before.1.Consistent) (identity : Identity) :
    after.1.visit identity = .inProgress ↔ before.1.visit identity = .inProgress := by
  induction h with
  | nothing depth state => exact Iff.rfl
  | tooDeep path rest state => cases hok
  | outside hname => cases hok
  | known hname hvisit hrest ih => exact ih hok hbefore
  | cycle hname hvisit => cases hok
  | unreadable hname hvisit hfile => cases hok
  | missing hname hvisit hfile => cases hok
  | unprocessed hname hvisit hfile hprocess => cases hok
  | broken hname hvisit hfile hprocess hinner ih => cases hok
  | recorded hname hvisit hfile hprocess hinner hrest ihInner ihRest =>
    rw [ihRest hok (hinner.recordable hnames hname hprocess hbefore hvisit).1]
    exact Graph.visit_record_of_enter hvisit (ihInner rfl (hbefore.enter hvisit))

theorem Explores.clean (hnames : around.NamesModules)
    (h : Explores around depth paths before result after) (hok : result = .ok ())
    (hbefore : before.1.Consistent) (hclean : before.1.Clean) : after.1.Clean := by
  intro identity hvisit
  rw [(h.consistent hnames hbefore).2.1.stack]
  exact hclean identity ((h.inProgress_iff hnames hok hbefore identity).1 hvisit)

end Build
end Bundler
