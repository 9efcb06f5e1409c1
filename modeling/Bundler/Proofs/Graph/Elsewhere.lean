import Bundler.Proofs.Graph.Again

/-!
# The same graph below another root

Surroundings mirror others when they answer alike for the same modules below a root of their own. What is
built in them is the same graph with its modules below the other root (`Graph.rebased`), and where
building fails, it fails in both with faults that are alike (`start_elsewhere`). Looking at a file can be
spoilt below one root and not below the other, by the length of its path.
-/

namespace Bundler

variable {σ ε α β : Type}

/-! ### Results that are the same but for faults -/

/-- The same value, or faults that are alike. -/
inductive SameUpTo (alike : ε → ε → Prop) : Except ε α → Except ε α → Prop
  | ok (value : α) : SameUpTo alike (.ok value) (.ok value)
  | error {fault fault'} (h : alike fault fault') : SameUpTo alike (.error fault) (.error fault')

namespace SameUpTo

variable {φ : Type} {alike : ε → ε → Prop}

theorem refl (halike : ∀ fault, alike fault fault) (result : Except ε α) : SameUpTo alike result result := by
  cases result with
  | error fault => exact .error (halike fault)
  | ok value => exact .ok value

theorem bind {first first' : Except ε α} (h : SameUpTo alike first first') {next next' : α → Except ε β}
    (hnext : ∀ value, SameUpTo alike (next value) (next' value)) :
    SameUpTo alike (first >>= next) (first' >>= next') := by
  cases h with
  | ok value => exact hnext value
  | error h => exact .error h

theorem mapError {f f' : φ → ε} (h : ∀ fault, alike (f fault) (f' fault)) (result : Except φ α) :
    SameUpTo alike (result.mapError f) (result.mapError f') := by
  cases result with
  | error fault => exact .error (h fault)
  | ok value => exact .ok value

end SameUpTo

/-! ### Graphs below another root -/

theorem Data.setField_map (f : α → β) (key : String) (value : α) (fields : List (String × α)) :
    Data.setField key (f value) (fields.map fun field => (field.1, f field.2))
      = (Data.setField key value fields).map fun field => (field.1, f field.2) := by
  induction fields with
  | nil => rfl
  | cons field rest ih =>
    rw [List.map_cons, Data.setField, Data.setField, ih]
    split <;> rfl

/-- The record of the module with the same identity below another root. -/
def ModuleRecord.rebased (root : FilePath) (module : ModuleRecord) : ModuleRecord :=
  { module with path := module.identity.path root }

namespace Graph

/-- The graph with its modules below another root. Nothing in it is different but the paths of the
records. -/
def rebased (root : FilePath) (graph : Graph) : Graph :=
  { graph with modules := graph.modules.map fun entry => (entry.1, entry.2.rebased root) }

variable (root : FilePath) (graph : Graph)

@[simp] theorem entries_rebased : (graph.rebased root).entries = graph.entries := rfl

@[simp] theorem codes_rebased : (graph.rebased root).codes = graph.codes := by
  simp [codes, rebased, ModuleRecord.rebased]

@[simp] theorem identities_rebased : (graph.rebased root).identities = graph.identities := by
  simp [identities, rebased]

@[simp] theorem leave_rebased : (graph.rebased root).leave = graph.leave.rebased root := rfl

@[simp] theorem named_rebased (entry : Option String) (identity : Identity) :
    Build.named entry identity (graph.rebased root) = (Build.named entry identity graph).rebased root := by
  cases entry <;> rfl

@[simp] theorem record_rebased (module : ModuleRecord) :
    (graph.rebased root).record (module.rebased root) = (graph.record module).rebased root :=
  congrArg (fun modules => { graph with modules, visits := (graph.record module).visits })
    (Data.setField_map (ModuleRecord.rebased root) module.identity module graph.modules)

end Graph

/-! ### Building below another root -/

/-- In certain states, surroundings with a root of their own answer alike for modules of a kind. Looking
at the file of one can be spoilt in either; processing it gives the same, or faults that are alike. -/
structure Surroundings.Mirrors (around around' : Surroundings σ ε) (state state' : σ)
    (wanted : Identity → Prop) (alike : ε → ε → Prop) (spoilt : ε → Prop) : Prop where
  steady : around.Steady state
  steady' : around'.Steady state'
  named : ∀ identity, wanted identity → ∀ root, Identity.ofPath? root (identity.path root) = some identity
  loads : around.LoadsOnly wanted
  isFile : ∀ identity, wanted identity →
    (∃ fault, ((around.isFile (identity.path around.root)).start state).1 = .error fault ∧ spoilt fault) ∨
    (∃ fault, ((around'.isFile (identity.path around'.root)).start state').1 = .error fault ∧ spoilt fault) ∨
    ∃ answer, ((around.isFile (identity.path around.root)).start state).1 = .ok answer ∧
      ((around'.isFile (identity.path around'.root)).start state').1 = .ok answer
  process : ∀ identity, wanted identity →
    ((around.isFile (identity.path around.root)).start state).1 = .ok true →
    ((around'.isFile (identity.path around'.root)).start state').1 = .ok true →
    SameUpTo alike (around.outcome state identity) (around'.outcome state' identity)
  fault : around'.fault = around.fault
  alike_fault : ∀ fault, alike (around.fault fault) (around.fault fault)

namespace Build

/-- Building below another root ends as it does below the first one, or it is spoilt. -/
inductive Mirrored (root' : FilePath) (state state' : σ) (alike : ε → ε → Prop) (spoilt : ε → Prop) :
    Except ε α × Graph × σ → Except ε α × Graph × σ → Prop
  | spoilt {ended fault after'} (h : spoilt fault) :
      Mirrored root' state state' alike spoilt ended (.error fault, after')
  | same {result result' graph} (h : SameUpTo alike result result') :
      Mirrored root' state state' alike spoilt (result, graph, state)
        (result', graph.rebased root', state')

variable {around around' : Surroundings σ ε} {state state' : σ} {wanted : Identity → Prop}
  {alike : ε → ε → Prop} {spoilt : ε → Prop} {depth : Nat} {paths : List FilePath}
  {identities : List Identity} {before ended : Graph × σ} {result : Except ε Unit}

/-- The first of the files to build is that of a module below both roots. -/
theorem mirrors_first (haround : around.Mirrors around' state state' wanted alike spoilt)
    {path : FilePath} {rest : List FilePath} {identity : Identity}
    (hname : Identity.ofPath? around.root path = some identity)
    (hpaths : path :: rest = identities.map (Identity.path around.root))
    (hwanted : ∀ identity ∈ identities, wanted identity) :
    ∃ others, identities = identity :: others ∧ path = identity.path around.root ∧
      rest = others.map (Identity.path around.root) ∧ wanted identity ∧
      (∀ other ∈ others, wanted other) ∧
      Identity.ofPath? around'.root (identity.path around'.root) = some identity := by
  obtain ⟨found, others, rfl, rfl, rfl⟩ := List.map_eq_cons_iff.1 hpaths.symm
  rw [List.forall_mem_cons] at hwanted
  obtain rfl := Option.some.inj ((haround.named found hwanted.1 around.root).symm.trans hname)
  exact ⟨others, rfl, rfl, rfl, hwanted.1, hwanted.2, haround.named _ hwanted.1 around'.root⟩

/-- Looking at the file of a module below the other root is spoilt, or gives what it gives below the
first one. -/
theorem mirrors_isFile (haround : around.Mirrors around' state state' wanted alike spoilt)
    {identity : Identity} (hwanted : wanted identity) {answer : Except ε Bool} {looked : σ}
    (hfile : (around.isFile (identity.path around.root)).start state = (answer, looked))
    (hanswer : ∀ fault, answer = .error fault → ¬ spoilt fault) :
    looked = state ∧
      ((∃ fault, (around'.isFile (identity.path around'.root)).start state' = (.error fault, state') ∧
          spoilt fault) ∨
        ∃ found, answer = .ok found ∧
          (around'.isFile (identity.path around'.root)).start state' = (.ok found, state')) := by
  obtain ⟨rfl, hanswered⟩ := isFile_of_start haround.steady hfile
  have hsteady := haround.steady'.isFile (identity.path around'.root)
  refine ⟨rfl, ?_⟩
  rcases haround.isFile identity hwanted with ⟨fault, hfault, hspoilt⟩ | ⟨fault, hfault, hspoilt⟩ |
    ⟨found, hfound, hfound'⟩
  · exact absurd hspoilt (hanswer fault (hanswered.symm.trans hfault))
  · exact .inl ⟨fault, Prod.ext hfault hsteady, hspoilt⟩
  · exact .inr ⟨found, hanswered.symm.trans hfound, Prod.ext hfound' hsteady⟩

/-- A module that is a file below the first root is processed below the other one with the same result,
unless looking at its file is spoilt there. -/
theorem mirrors_process (haround : around.Mirrors around' state state' wanted alike spoilt)
    {identity : Identity} (hwanted : wanted identity) {looked processed : σ}
    {answer : Except ε (String × List Identity)}
    (hfile : (around.isFile (identity.path around.root)).start state = (.ok true, looked))
    (hprocess : (around.process (identity.path around.root) identity).start looked = (answer, processed)) :
    processed = state ∧
      ((∃ fault, (around'.isFile (identity.path around'.root)).start state' = (.error fault, state') ∧
          spoilt fault) ∨
        ∃ answer', SameUpTo alike answer answer' ∧
          (around'.isFile (identity.path around'.root)).start state' = (.ok true, state') ∧
          (around'.process (identity.path around'.root) identity).start state' = (answer', state')) := by
  obtain ⟨rfl, hfile'⟩ := mirrors_isFile haround hwanted hfile (by simp)
  obtain ⟨rfl, houtcome⟩ :=
    outcome_of_process haround.steady (haround.named identity hwanted around.root) hprocess
  refine ⟨rfl, ?_⟩
  obtain hspoilt | ⟨found, hfound, hfile'⟩ := hfile'
  · exact .inl hspoilt
  · cases hfound
    refine .inr ⟨_, ?_, hfile', Prod.ext rfl (haround.steady'.process _ identity)⟩
    rw [← houtcome]
    exact haround.process identity hwanted (congrArg Prod.fst hfile) (congrArg Prod.fst hfile')

/-- Building modules one after the other below another root ends as it does below the first one, unless
it is spoilt on the way. -/
theorem Explores.elsewhere (haround : around.Mirrors around' state state' wanted alike spoilt)
    (h : Explores around depth paths before result ended)
    (hresult : ∀ fault, result = .error fault → ¬ spoilt fault)
    (hpaths : paths = identities.map (Identity.path around.root))
    (hwanted : ∀ identity ∈ identities, wanted identity) (hstate : before.2 = state) :
    ∃ result' ended', Explores around' depth (identities.map (Identity.path around'.root))
        (before.1.rebased around'.root, state') result' ended' ∧
      Mirrored around'.root state state' alike spoilt (result, ended) (result', ended') := by
  have halike : ∀ fault, alike (around.fault fault) (around'.fault fault) := fun fault =>
    haround.fault ▸ haround.alike_fault fault
  -- the two go the same way until looking at a file below the other root is spoilt
  induction h generalizing identities with
  | nothing depth before =>
    obtain rfl : identities = [] := List.map_eq_nil_iff.1 hpaths.symm
    obtain ⟨graph, _⟩ := before
    obtain rfl := hstate
    exact ⟨_, _, .nothing _ _, .same (.ok ())⟩
  | tooDeep path rest before =>
    obtain ⟨identity, others, rfl, -⟩ := List.map_eq_cons_iff.1 hpaths.symm
    obtain ⟨graph, _⟩ := before
    obtain rfl := hstate
    exact ⟨_, _, .tooDeep _ _ _, .same (.error (halike _))⟩
  | outside hname =>
    obtain ⟨identity, others, rfl, rfl, -⟩ := List.map_eq_cons_iff.1 hpaths.symm
    cases (haround.named identity (hwanted _ List.mem_cons_self) around.root).symm.trans hname
  | known hname hvisit hrest ih =>
    obtain ⟨others, rfl, rfl, hothers, -, hwanted', hname'⟩ := mirrors_first haround hname hpaths hwanted
    obtain ⟨result', ended', hrest', hmirrored⟩ := ih hresult hothers hwanted' hstate
    exact ⟨result', ended', .known hname' hvisit hrest', hmirrored⟩
  | cycle hname hvisit =>
    obtain ⟨others, rfl, rfl, -, -, -, hname'⟩ := mirrors_first haround hname hpaths hwanted
    obtain rfl := hstate
    exact ⟨_, _, .cycle hname' hvisit, .same (.error (halike _))⟩
  | unreadable hname hvisit hfile =>
    obtain ⟨others, rfl, rfl, -, hfirst, -, hname'⟩ := mirrors_first haround hname hpaths hwanted
    obtain rfl := hstate
    obtain ⟨-, ⟨fault, hfile', hspoilt⟩ | ⟨found, hfound, -⟩⟩ :=
      mirrors_isFile haround hfirst hfile (by simpa using hresult)
    · exact ⟨_, _, .unreadable hname' hvisit hfile', .spoilt hspoilt⟩
    · cases hfound
  | missing hname hvisit hfile =>
    obtain ⟨others, rfl, rfl, -, hfirst, -, hname'⟩ := mirrors_first haround hname hpaths hwanted
    obtain rfl := hstate
    obtain ⟨rfl, ⟨fault, hfile', hspoilt⟩ | ⟨found, hfound, hfile'⟩⟩ :=
      mirrors_isFile haround hfirst hfile (by simp)
    · exact ⟨_, _, .unreadable hname' hvisit hfile', .spoilt hspoilt⟩
    · cases hfound
      exact ⟨_, _, .missing hname' hvisit hfile', .same (.error (halike _))⟩
  | unprocessed hname hvisit hfile hprocess =>
    obtain ⟨others, rfl, rfl, -, hfirst, -, hname'⟩ := mirrors_first haround hname hpaths hwanted
    obtain rfl := hstate
    obtain ⟨rfl, ⟨fault, hfile', hspoilt⟩ | ⟨answer', hanswer, hfile', hprocess'⟩⟩ :=
      mirrors_process haround hfirst hfile hprocess
    · exact ⟨_, _, .unreadable hname' hvisit hfile', .spoilt hspoilt⟩
    cases hanswer with
    | error hfault =>
      exact ⟨_, _, .unprocessed hname' hvisit hfile' hprocess', .same (.error hfault)⟩
  | broken hname hvisit hfile hprocess hinner ih =>
    obtain ⟨others, rfl, rfl, -, hfirst, -, hname'⟩ := mirrors_first haround hname hpaths hwanted
    obtain rfl := hstate
    obtain ⟨rfl, ⟨fault, hfile', hspoilt⟩ | ⟨answer', hanswer, hfile', hprocess'⟩⟩ :=
      mirrors_process haround hfirst hfile hprocess
    · exact ⟨_, _, .unreadable hname' hvisit hfile', .spoilt hspoilt⟩
    cases hanswer
    obtain ⟨result', ⟨inner', last'⟩, hinner', hmirrored⟩ := ih hresult rfl
      (haround.loads _ _ _ _ _ _ hname hprocess) rfl
    cases hmirrored with
    | spoilt hspoilt =>
      exact ⟨_, _, .broken hname' hvisit hfile' hprocess' hinner', .spoilt hspoilt⟩
    | same hsame =>
      cases hsame with
      | error hfault =>
        exact ⟨_, _, .broken hname' hvisit hfile' hprocess' hinner',
          .same (.error hfault)⟩
  | recorded hname hvisit hfile hprocess hinner hrest ihInner ihRest =>
    obtain ⟨others, rfl, rfl, hothers, hfirst, hwanted', hname'⟩ :=
      mirrors_first haround hname hpaths hwanted
    obtain rfl := hstate
    obtain ⟨rfl, ⟨fault, hfile', hspoilt⟩ | ⟨answer', hanswer, hfile', hprocess'⟩⟩ :=
      mirrors_process haround hfirst hfile hprocess
    · exact ⟨_, _, .unreadable hname' hvisit hfile', .spoilt hspoilt⟩
    cases hanswer
    obtain ⟨result', ⟨inner', last'⟩, hinner', hmirrored⟩ := ihInner (by simp) rfl
      (haround.loads _ _ _ _ _ _ hname hprocess) rfl
    cases hmirrored with
    | spoilt hspoilt =>
      exact ⟨_, _, .broken hname' hvisit hfile' hprocess' hinner', .spoilt hspoilt⟩
    | same hsame =>
      cases hsame
      obtain ⟨result', ended', hrest', hmirrored⟩ := ihRest hresult hothers hwanted' rfl
      rw [← Graph.record_rebased, ← Graph.leave_rebased] at hrest'
      exact ⟨result', ended',
        .recorded hname' hvisit hfile' hprocess' hinner' hrest', hmirrored⟩

/-- A call below another root ends as the call for the same module below the first one: with the same
graph but for its root, or with faults that are alike, unless it is spoilt. -/
theorem start_elsewhere (haround : around.Mirrors around' state state' wanted alike spoilt)
    {entry : Option String} {identity : Identity} (hwanted : wanted identity) {graph : Graph}
    {answer : Except ε Identity} {ended : Graph × σ}
    (hstart : Attempt.start (start around depth entry (identity.path around.root)) (graph, state)
      = (answer, ended))
    (hanswer : ∀ fault, answer = .error fault → ¬ spoilt fault) :
    Mirrored around'.root state state' alike spoilt (answer, ended)
      (Attempt.start (start around' depth entry (identity.path around'.root))
        (graph.rebased around'.root, state')) := by
  have hnamed := haround.named identity hwanted
  rw [start_start around graph state (hnamed around.root)] at hstart
  rw [start_start around' _ state' (hnamed around'.root), Graph.named_rebased]
  have hexplores := explores_module around depth (identity.path around.root)
    (named entry identity graph, state)
  rcases hmodule : Attempt.start (module around depth (identity.path around.root))
    (named entry identity graph, state) with ⟨result, left⟩
  rw [hmodule] at hstart hexplores
  have hresult : ∀ fault, result = .error fault → ¬ spoilt fault := by
    rintro fault rfl
    cases hstart
    exact hanswer fault rfl
  have hpaths : [identity.path around.root] = [identity].map (Identity.path around.root) := rfl
  obtain ⟨result', ended', hexplores', hmirrored⟩ :=
    hexplores.elsewhere haround hresult hpaths (by simpa using hwanted) rfl
  rw [start_module_of_explores hexplores']
  cases hmirrored with
  | spoilt hspoilt => exact .spoilt hspoilt
  | same hsame =>
    cases hsame with
    | ok =>
      cases hstart
      exact .same (.ok identity)
    | error hfault =>
      cases hstart
      exact .same (.error hfault)

end Build
end Bundler
