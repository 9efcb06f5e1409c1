import Bundler.Proofs.Artifact.Recovery
import Bundler.Proofs.Processing.History

/-!
# The entries of a graph after calls

A call makes its module an entry before it looks for the file, so the entry stays when the call fails
(`entries_afterCalls_append`). The entries after calls are those of the last calls for their names
(`mem_entries_afterCalls`), and an entry that is not in the registry is stranded: the last call for it
failed. A bundle runs what its entries are, stranded ones among them.
-/

namespace Bundler

variable {σ ε ω : Type}

namespace Data

variable {α : Type} {key : String} {value : α} {field : String × α} {fields : List (String × α)}

theorem keys_setField :
    (setField key value fields).map (·.1)
      = if key ∈ fields.map (·.1) then fields.map (·.1) else fields.map (·.1) ++ [key] := by
  induction fields with
  | nil => rfl
  | cons first rest ih =>
    rw [setField]
    by_cases hfirst : first.1 = key
    · simp [hfirst]
    · rw [if_neg hfirst, List.map_cons, ih]
      by_cases hrest : key ∈ rest.map (·.1)
      · simp [hrest]
      · simp [hrest, Ne.symm hfirst]

theorem nodup_setField (h : (fields.map (·.1)).Nodup) : ((setField key value fields).map (·.1)).Nodup := by
  rw [keys_setField]
  split
  · exact h
  · next hkey => exact h.append (by simp) (by simpa using hkey)

/-- Where no key stands twice, a key that is set has this value alone, and the others keep theirs. -/
theorem mem_setField (h : (fields.map (·.1)).Nodup) :
    field ∈ setField key value fields ↔ field = (key, value) ∨ field ∈ fields ∧ field.1 ≠ key := by
  induction fields with
  | nil => simp [setField]
  | cons first rest ih =>
    obtain ⟨hnew, hrest⟩ := List.nodup_cons.1 h
    rw [setField]
    split
    · next hfirst =>
      have hothers : ∀ other ∈ rest, other.1 ≠ key := by
        intro other hother heq
        exact hnew (List.mem_map.2 ⟨other, hother, heq.trans hfirst.symm⟩)
      rw [List.mem_cons, List.mem_cons]
      constructor
      · rintro (heq | hmem)
        · exact .inl heq
        · exact .inr ⟨.inr hmem, hothers field hmem⟩
      · rintro (heq | ⟨rfl | hmem, hkey⟩)
        · exact .inl heq
        · exact absurd hfirst hkey
        · exact .inr hmem
    · next hfirst =>
      rw [List.mem_cons, ih hrest, List.mem_cons]
      constructor
      · rintro (rfl | heq | ⟨hmem, hkey⟩)
        · exact .inr ⟨.inl rfl, hfirst⟩
        · exact .inl heq
        · exact .inr ⟨.inr hmem, hkey⟩
      · rintro (heq | ⟨rfl | hmem, hkey⟩)
        · exact .inr (.inl heq)
        · exact .inl rfl
        · exact .inr (.inr ⟨hmem, hkey⟩)

end Data

theorem Build.ofPath?_of_start {around : Surroundings σ ε} {graph : Graph} {depth : Nat}
    {entry : Option String} {path : FilePath} {state : σ} {identity : Identity}
    (hok : (Attempt.start (Build.start around depth entry path) (graph, state)).1 = .ok identity) :
    Identity.ofPath? around.root path = some identity :=
  (explores_of_start (Prod.ext hok rfl)).1

theorem Build.entries_start {around : Surroundings σ ε} (hnames : around.NamesModules) {graph : Graph}
    (hgraph : graph.Consistent) (depth : Nat) (entry : Option String) (path : FilePath) (state : σ) :
    (Attempt.start (Build.start around depth entry path) (graph, state)).2.1.entries
      = match Identity.ofPath? around.root path with
        | some identity => (named entry identity graph).entries
        | none => graph.entries := by
  cases hname : Identity.ofPath? around.root path with
  | none => rw [start_start_none around graph state hname]
  | some identity =>
    rw [start_start around graph state hname, Attempt.andThen_pure]
    exact ((explores_module around depth path (named entry identity graph, state)).consistent hnames
      (hgraph.named entry)).2.1.entries

namespace Processing

/-- The call makes the module the entry with the name. -/
def Call.Enters (root : FilePath) (call : Call ω) (entry : String × Identity) : Prop :=
  call.entry = some entry.1 ∧ Identity.ofPath? root call.path = some entry.2

/-- What a call makes of the entries: its name stands for its module, if it has a name and its file lies
under the root. -/
def Call.entriesAfter (root : FilePath) (call : Call ω) (entries : List (String × Identity)) :
    List (String × Identity) :=
  match call.entry, Identity.ofPath? root call.path with
  | some name, some identity => Data.setField name identity entries
  | _, _ => entries

variable {root : FilePath} {naming : Naming} {pipeline : Pipeline ω} {world : World ω}
  {calls : List (Call ω)} {call : Call ω} {entry : String × Identity}
  {entries : List (String × Identity)}

theorem Call.nodup_entriesAfter (h : (entries.map (·.1)).Nodup) :
    ((call.entriesAfter root entries).map (·.1)).Nodup := by
  rw [entriesAfter]
  split
  · exact Data.nodup_setField h
  · exact h

theorem Call.mem_entriesAfter (h : (entries.map (·.1)).Nodup) :
    entry ∈ call.entriesAfter root entries ↔
      call.Enters root entry ∨ entry ∈ entries ∧ ∀ identity, ¬ call.Enters root (entry.1, identity) := by
  rw [entriesAfter]
  split
  · next name identity hentry hname =>
    rw [Data.mem_setField h]
    simp only [Enters, hentry, hname, Option.some.injEq]
    constructor
    · rintro (rfl | ⟨hmem, hkey⟩)
      · exact .inl ⟨rfl, rfl⟩
      · exact .inr ⟨hmem, fun _ heq => hkey heq.1.symm⟩
    · rintro (⟨hkey, hvalue⟩ | ⟨hmem, hother⟩)
      · exact .inl (Prod.ext hkey.symm hvalue.symm)
      · exact .inr ⟨hmem, fun hkey => hother identity ⟨hkey.symm, rfl⟩⟩
  · next hnone =>
    have hnot : ∀ identity, ¬ call.Enters root (entry.1, identity) :=
      fun identity henters => hnone _ _ henters.1 henters.2
    exact ⟨fun hmem => .inr ⟨hmem, hnot⟩,
      fun hmem => hmem.elim (fun henters => absurd henters (hnot entry.2)) And.left⟩

theorem entries_afterCalls_append (world : World ω) (calls : List (Call ω)) (call : Call ω) :
    (afterCalls root naming pipeline world (calls ++ [call])).1.entries
      = call.entriesAfter root (afterCalls root naming pipeline world calls).1.entries := by
  rw [afterCalls_append, Call.start, start_build, Build.entries_start namesModules_surroundings
    (consistent_afterCalls world calls).1, Call.entriesAfter]
  cases call.entry <;> cases hname : Identity.ofPath? root call.path <;>
    simp only [surroundings, hname, Build.named, Graph.addEntry]

theorem nodup_entries_afterCalls (world : World ω) (calls : List (Call ω)) :
    ((afterCalls root naming pipeline world calls).1.entries.map (·.1)).Nodup := by
  induction calls using List.reverseRecOn with
  | nil => exact List.nodup_nil
  | append_singleton calls call ih =>
    rw [entries_afterCalls_append]
    exact Call.nodup_entriesAfter ih

/-- After the calls before it, the call makes the module the entry with the name, and no later call gives
the name to a module. -/
def EntersLast (root : FilePath) (calls : List (Call ω)) (entry : String × Identity)
    (earlier : List (Call ω)) (call : Call ω) : Prop :=
  call.Enters root entry ∧ ∃ later, calls = earlier ++ call :: later ∧
    ∀ other ∈ later, ∀ identity, ¬ other.Enters root (entry.1, identity)

theorem EntersLast.append {earlier : List (Call ω)} {other : Call ω}
    (h : EntersLast root calls entry earlier call)
    (hother : ∀ identity, ¬ other.Enters root (entry.1, identity)) :
    EntersLast root (calls ++ [other]) entry earlier call := by
  obtain ⟨henters, later, rfl, hlater⟩ := h
  refine ⟨henters, later ++ [other], by simp, ?_⟩
  rw [List.forall_mem_append, List.forall_mem_singleton]
  exact ⟨hlater, hother⟩

/-- The entries after calls are those of the last calls for their names. -/
theorem mem_entries_afterCalls :
    entry ∈ (afterCalls root naming pipeline world calls).1.entries ↔
      ∃ earlier call, EntersLast root calls entry earlier call := by
  induction calls using List.reverseRecOn with
  | nil => simp [EntersLast]
  | append_singleton calls last ih =>
    rw [entries_afterCalls_append, Call.mem_entriesAfter (nodup_entries_afterCalls world calls), ih]
    constructor
    · rintro (henters | ⟨⟨earlier, call, hlast⟩, hother⟩)
      · exact ⟨calls, last, henters, [], rfl, by simp⟩
      · exact ⟨earlier, call, hlast.append hother⟩
    · rintro ⟨earlier, call, henters, later, heq, hlater⟩
      induction later using List.reverseRecOn with
      | nil =>
        obtain ⟨-, hsame⟩ := List.append_inj' heq rfl
        obtain rfl : last = call := List.singleton_injective hsame
        exact .inl henters
      | append_singleton later other =>
        rw [← List.cons_append, ← List.append_assoc] at heq
        obtain ⟨rfl, hsame⟩ := List.append_inj' heq rfl
        obtain rfl : last = other := List.singleton_injective hsame
        rw [List.forall_mem_append, List.forall_mem_singleton] at hlater
        exact .inr ⟨⟨earlier, call, henters, later, rfl, hlater.1⟩, hlater.2⟩

theorem identities_afterCalls_append (root : FilePath) (naming : Naming) (pipeline : Pipeline ω)
    (world : World ω) (calls more : List (Call ω)) :
    (afterCalls root naming pipeline world calls).1.identities
      ⊆ (afterCalls root naming pipeline world (calls ++ more)).1.identities := by
  induction more using List.reverseRecOn with
  | nil => simp
  | append_singleton more call ih =>
    rw [← List.append_assoc, afterCalls_append]
    have hgraph : (afterCalls root naming pipeline world (calls ++ more)).1.Consistent :=
      (consistent_afterCalls world (calls ++ more)).1
    obtain ⟨-, hgrows, -⟩ := call.consistent_start hgraph
    intro identity hmem
    exact (hgrows.map Prod.fst).subset (ih hmem)

/-- The last call for the entry failed. -/
def Stranded (root : FilePath) (naming : Naming) (pipeline : Pipeline ω) (world : World ω)
    (calls : List (Call ω)) (entry : String × Identity) : Prop :=
  ∃ earlier call fault, EntersLast root calls entry earlier call ∧
    outcomeAfter root naming pipeline world earlier call = .error fault

/-- An entry whose last call succeeded is in the registry. -/
theorem stranded_of_notMem (hentry : entry ∈ (afterCalls root naming pipeline world calls).1.entries)
    (hmissing : entry.2 ∉ (afterCalls root naming pipeline world calls).1.identities) :
    Stranded root naming pipeline world calls entry := by
  obtain ⟨earlier, call, henters, later, rfl, hlater⟩ := mem_entries_afterCalls.1 hentry
  cases houtcome : outcomeAfter root naming pipeline world earlier call with
  | error fault => exact ⟨earlier, call, fault, ⟨henters, later, rfl, hlater⟩, houtcome⟩
  | ok identity =>
    -- the call leaves its module done, and the registry only grows
    have hstart : (call.start root naming pipeline (afterCalls root naming pipeline world earlier)).1
        = .ok identity := houtcome
    have hidentity : identity = entry.2 := by
      rw [Call.start, start_build] at hstart
      exact Option.some.inj ((Build.ofPath?_of_start hstart).symm.trans henters.2)
    have hdone := call.done_of_start hstart
    rw [← afterCalls_append] at hdone
    have hmem := ((consistent_afterCalls world (earlier ++ [call])).1.done_iff identity).1 hdone
    have hall := identities_afterCalls_append root naming pipeline world (earlier ++ [call]) later hmem
    rw [List.append_assoc, List.singleton_append, hidentity] at hall
    exact absurd hall hmissing

def bundleOf (naming : Naming) (graph : Graph) : Artifact where
  runtime := naming.runtime
  modules := graph.codes
  entries := graph.entries

/-- After any calls, a call that fails leaves the entries as they were, but for its own name, which stands
for its module if the file lies under the root. An entry that is not in the registry is stranded. Where the
template is the standard one and no rule changes it, the bundle holds the registry and the entries as they
are, so that only stranded entries are run without a module. -/
theorem entries_of_calls (root : FilePath) (naming : Naming) (pipeline : Pipeline ω) (world : World ω)
    (calls : List (Call ω)) :
    (∀ call fault, outcomeAfter root naming pipeline world calls call = .error fault →
      (afterCalls root naming pipeline world (calls ++ [call])).1.entries
        = call.entriesAfter root (afterCalls root naming pipeline world calls).1.entries) ∧
    (∀ entry ∈ (afterCalls root naming pipeline world calls).1.entries,
      entry.2 ∉ (afterCalls root naming pipeline world calls).1.identities →
      Stranded root naming pipeline world calls entry) ∧
    ∀ shown : World ω, Pipeline.readText shown.tree templatePath = .ok Artifact.standardTemplate →
      (∀ rule ∈ pipeline, rule.matches templatePath = false) →
      Text.isIdentifier naming.runtime.toList = true →
      (∀ call ∈ calls, ∀ name, call.entry = some name → Config.isEntryName name = true) →
      ∃ text, ((bundleOf naming (afterCalls root naming pipeline world calls).1).render pipeline).start
          shown = (.ok text, shown) ∧
        Artifact.recover text.toList = ((afterCalls root naming pipeline world calls).1.codes,
          (afterCalls root naming pipeline world calls).1.entries) ∧
        ∀ entry ∈ (Artifact.recover text.toList).2,
          entry.2 ∉ (Artifact.recover text.toList).1.map (·.1) →
          Stranded root naming pipeline world calls entry := by
  have hstranded : ∀ entry ∈ (afterCalls root naming pipeline world calls).1.entries,
      entry.2 ∉ (afterCalls root naming pipeline world calls).1.identities →
      Stranded root naming pipeline world calls entry := fun entry => stranded_of_notMem
  refine ⟨fun call fault _ => entries_afterCalls_append world calls call, hstranded, ?_⟩
  intro shown htemplate hrules hruntime hnames
  have hentries : ∀ entry ∈ (afterCalls root naming pipeline world calls).1.entries,
      Config.isEntryName entry.1 = true := by
    intro entry hentry
    obtain ⟨earlier, call, henters, later, rfl, -⟩ := mem_entries_afterCalls.1 hentry
    exact hnames call (by simp) entry.1 henters.1
  refine ⟨_, Artifact.start_render_standard htemplate hrules, ?_⟩
  rw [String.toList_ofList, Artifact.recover_unlines hruntime hentries]
  refine ⟨rfl, fun entry hentry hmissing => hstranded entry hentry fun hmem => hmissing ?_⟩
  simpa [bundleOf, Graph.codes, Graph.identities] using hmem

/-- Building the module that loads a missing one, as the main entry. -/
def gapEntryCall : Call Unit where
  entry := some "main"
  path := gapCall.path

theorem outcomeAfter_gapEntryCall :
    outcomeAfter ⟨.root, []⟩ {} [] gapWorld [] gapEntryCall
      = .error (.bundle (.unresolved "./gone.py" (some "./main.py"))) :=
  eq_of_unresolved? (by decide +kernel)

/-- A call that fails adds an entry, and nothing is in the registry. -/
theorem entries_ne_of_failed_call :
    outcomeAfter ⟨.root, []⟩ {} [] gapWorld [] gapEntryCall
        = .error (.bundle (.unresolved "./gone.py" (some "./main.py"))) ∧
      (afterCalls ⟨.root, []⟩ {} [] gapWorld [gapEntryCall]).1.entries
        ≠ (afterCalls ⟨.root, []⟩ {} [] gapWorld []).1.entries ∧
      ("main", "./main.py") ∈ (afterCalls ⟨.root, []⟩ {} [] gapWorld [gapEntryCall]).1.entries ∧
      "./main.py" ∉ (afterCalls ⟨.root, []⟩ {} [] gapWorld [gapEntryCall]).1.identities :=
  ⟨outcomeAfter_gapEntryCall, by decide +kernel, by decide +kernel, by decide +kernel⟩

/-- The failed call's entry is stranded, and a bundle of the graph runs it. -/
theorem entries_of_calls_gap :
    (afterCalls ⟨.root, []⟩ {} [] gapWorld [gapEntryCall]).1.entries = [("main", "./main.py")] ∧
      Stranded ⟨.root, []⟩ {} [] gapWorld [gapEntryCall] ("main", "./main.py") ∧
      ∃ text, ((bundleOf {} (afterCalls ⟨.root, []⟩ {} [] gapWorld [gapEntryCall]).1).render []).start
          Artifact.templateWorld = (.ok text, Artifact.templateWorld) ∧
        Artifact.recover text.toList = ([], [("main", "./main.py")]) := by
  have hmissing : "./main.py" ∉ (afterCalls ⟨.root, []⟩ {} [] gapWorld [gapEntryCall]).1.identities := by
    decide +kernel
  have hmodules : (afterCalls ⟨.root, []⟩ {} [] gapWorld [gapEntryCall]).1.codes = [] := by
    decide +kernel
  have hread : Pipeline.readText Artifact.templateWorld.tree templatePath = .ok Artifact.standardTemplate :=
    Artifact.readText_of_read (Artifact.read_templateTree _) Artifact.notMem_standardTemplate
  have hname : ∀ call ∈ [gapEntryCall], ∀ name, call.entry = some name →
      Config.isEntryName name = true := by
    intro call hcall name hentry
    obtain rfl := List.mem_singleton.1 hcall
    obtain rfl : "main" = name := Option.some.inj hentry
    decide
  obtain ⟨hfailed, -, -⟩ := entries_of_calls ⟨.root, []⟩ {} [] gapWorld []
  obtain ⟨-, hstranded, hbundle⟩ := entries_of_calls ⟨.root, []⟩ {} [] gapWorld [gapEntryCall]
  have hentered : gapEntryCall.entriesAfter ⟨.root, []⟩ [] = [("main", "./main.py")] := by decide +kernel
  have hentries := hfailed gapEntryCall _ outcomeAfter_gapEntryCall
  rw [List.nil_append, afterCalls_nil, hentered] at hentries
  obtain ⟨text, hrender, hrecover, -⟩ :=
    hbundle Artifact.templateWorld hread (by simp) (by decide +kernel) hname
  rw [hmodules, hentries] at hrecover
  exact ⟨hentries, hstranded _ (by rw [hentries]; exact List.mem_cons_self) hmissing, text, hrender, hrecover⟩

end Processing
end Bundler
