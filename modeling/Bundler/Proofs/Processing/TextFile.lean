import Bundler.Proofs.Files.Writing
import Bundler.Proofs.Graph.Entries
import Bundler.Proofs.Load.Literal
import Bundler.Proofs.Processing.Steps
import Bundler.Proofs.Transform.Holding
import Bundler.Proofs.Transform.Registration

/-!
# Files that become modules of their text

Where the rule for texts alone matches a file, the module of the file holds its text, and loading the file
cannot fail (`text_of_calls`). The text is the one that was read: carriage returns in the file are line
feeds in it.
-/

namespace Bundler

open Transform (textModule textModuleText HoldsData)

variable {π ω : Type}

namespace Pipeline

variable {library : Library π ω} {rules : List (Rule (TransformRef ω))} {registry loaded : Registry ω}
  {pipeline : Pipeline ω} {path : FilePath}

/-- The rule with its references resolved: it matches the same files, and what it uses is found under the
names. -/
structure Resolves (name : String) (transform : Transform ω) (rule : Rule (TransformRef ω))
    (resolved : Rule (Transform ω)) : Prop where
  same : ∀ path, rule.matches path = resolved.matches path
  use : rule.use = [.named name] → resolved.use = [transform]

theorem resolves_of_ofRules {name : String} {transform : Transform ω}
    (hfound : (registry.find? name).1 = some transform)
    (h : (ofRules library rules).start registry = (.ok pipeline, loaded)) :
    List.Forall₂ (Resolves name transform) rules pipeline := by
  have hreference : ∀ reference : TransformRef ω, ∀ (registry : Registry ω) (resolved : Transform ω)
      (after : Registry ω), (registry.find? name).1 = some transform →
      (Registry.resolve library reference).start registry = (.ok resolved, after) →
      (after.find? name).1 = some transform ∧ (reference = .named name → resolved = transform) := by
    intro reference registry resolved after hfound hresolve
    -- the transforms at hand may come in here, but a look-up would have brought them in as well
    have hkept := Registry.find?_resolve library registry reference name
    rw [hresolve, hfound] at hkept
    refine ⟨hkept, ?_⟩
    rintro rfl
    rcases hlook : registry.find? name with ⟨found, later⟩
    rw [hlook] at hfound
    cases hfound
    simp only [Registry.resolve, Attempt.start, hlook] at hresolve
    cases hresolve
    rfl
  have hrule : ∀ rule ∈ rules, ∀ (registry : Registry ω) (resolved : Rule (Transform ω))
      (after : Registry ω), (registry.find? name).1 = some transform →
      (resolveRule library rule).start registry = (.ok resolved, after) →
      (after.find? name).1 = some transform ∧ Resolves name transform rule resolved := by
    intro rule _ registry resolved after hfound hresolve
    obtain ⟨use, between, huse, hreturn⟩ := Attempt.start_bind_eq_ok_iff.1 hresolve
    cases hreturn
    obtain ⟨hafter, hall⟩ := Attempt.of_start_mapM (fun reference _ => hreference reference) hfound huse
    refine ⟨hafter, fun _ => rfl, fun hnamed => ?_⟩
    rw [hnamed] at hall
    cases hall with
    | cons hfirst hrest =>
      cases hrest
      rw [hfirst rfl]
  exact (Attempt.of_start_mapM hrule hfound h).2

/-- Only the rules with a match in the path do something. -/
theorem transform_filter (path : FilePath) (pipeline : Pipeline ω) (text : String) :
    transform path pipeline text = transform path (pipeline.filter (·.matches path)) text := by
  induction pipeline generalizing text with
  | nil => rfl
  | cons rule rest ih =>
    cases hmatch : rule.matches path with
    | false =>
      simp only [List.filter_cons, transform, hmatch, Bool.false_eq_true, if_false]
      exact ih text
    | true => simp only [List.filter_cons, transform, hmatch, if_true, ← ih]

/-- The rules make a pipeline. One of them alone matches the path; it uses the transform for texts, and
that is the one at hand. -/
structure TakesText (library : Library π ω) (rules : List (Rule (TransformRef ω)))
    (registry : Registry ω) (pipeline : Pipeline ω) (path : FilePath) : Prop where
  resolved : ∃ loaded, (ofRules library rules).start registry = (.ok pipeline, loaded)
  atHand : (registry.find? "text").1 = some textModule
  alone : ∃ rule, rules.filter (·.matches path) = [rule] ∧ rule.use = [.named "text"]

theorem TakesText.transform_eq (h : TakesText library rules registry pipeline path) :
    ∃ rule : Rule (Transform ω), ∀ text, (pipeline.transform path text : Act ω String) = do
      World.log .debug (notice rule path)
      return textModuleText text := by
  obtain ⟨loaded, hresolved⟩ := h.resolved
  obtain ⟨rule, halone, huse⟩ := h.alone
  have hfiltered : List.Forall₂ (Resolves "text" textModule) (rules.filter (·.matches path))
      (pipeline.filter (·.matches path)) := by
    refine List.rel_filter (fun rule resolved hresolves => ?_) (resolves_of_ofRules h.atHand hresolved)
    exact iff_of_eq (congrArg (· = true) (hresolves.same path))
  rw [halone] at hfiltered
  generalize hpipeline : pipeline.filter (·.matches path) = matching at hfiltered
  cases hfiltered with
  | @cons _ resolved _ _ hresolves hrest =>
    cases hrest
    have hmatch : resolved.matches path = true := by
      have hmem : resolved ∈ pipeline.filter (·.matches path) := by rw [hpipeline]; exact List.mem_cons_self
      exact (List.mem_filter.1 hmem).2
    refine ⟨resolved, fun text => Attempt.ext fun world => ?_⟩
    rw [transform_filter, hpipeline, transform, if_pos hmatch, Attempt.start_bind, Attempt.start_bind]
    rcases (World.log .debug (notice resolved path)).start world with ⟨fault | ⟨⟩, logged⟩
    · rfl
    · rw [Attempt.andThen_ok, applyRule, hresolves.use huse]
      rfl

/-- A text as it is read from a file. -/
def asRead (text : String) : String := String.ofList (Text.uniformBreaks text.toList)

theorem asRead_eq_iff {text : String} : asRead text = text ↔ '\r' ∉ text.toList := by
  rw [← Load.uniformBreaks_eq_iff]
  constructor
  · intro h
    rw [← String.toList_ofList (l := Text.uniformBreaks text.toList)]
    exact congrArg String.toList h
  · intro h
    rw [asRead, h, String.ofList_toList]

theorem readText_of_toUTF8 {tree : FileTree} {text : String}
    (h : tree.read path = .ok text.toUTF8) : readText tree path = .ok (asRead text) := by
  rw [readText, h]
  simp only [Text.Utf8.decode_toUTF8, asRead]

end Pipeline

namespace Processing

open Pipeline (TakesText asRead)

variable {library : Library π ω} {rules : List (Rule (TransformRef ω))} {registry : Registry ω}
  {root path : FilePath} {naming : Naming} {pipeline : Pipeline ω} {identity : Identity} {text : String}
  {world : World ω}

/-- Processing such a file only tells what is done. -/
theorem start_process_of_takesText (h : TakesText library rules registry pipeline path)
    (hread : world.tree.read path = .ok text.toUTF8) :
    ∃ rule : Rule (Transform ω), (process naming pipeline path identity).start world
      = (do
          World.log .debug (Pipeline.notice rule path)
          World.log .debug (notice identity 0)
          return (textModuleText (asRead text), []) : Act ω (String × List Identity)).start world := by
  obtain ⟨rule, htransform⟩ := h.transform_eq
  have hkept := (Transform.holdsData_textModuleText (asRead text)).kept naming identity.directory
  refine ⟨rule, ?_⟩
  rw [process_eq, Attempt.start_bind, World.files, Attempt.start_look, Pipeline.readText_of_toUTF8 hread,
    Attempt.andThen_ok, htransform]
  simp only [retargeted, bind_assoc, pure_bind, hkept]
  rfl

theorem code_of_takesText (h : TakesText library rules registry pipeline path)
    (hread : world.tree.read path = .ok text.toUTF8) {code : String} {dependencies : List Identity}
    {after : World ω}
    (hprocess : (process naming pipeline path identity).start world = (.ok (code, dependencies), after)) :
    code = textModuleText (asRead text) ∧ dependencies = [] := by
  obtain ⟨rule, hstart⟩ := start_process_of_takesText h hread
  rw [hstart] at hprocess
  obtain ⟨⟨⟩, _, -, hprocess⟩ := Attempt.start_bind_eq_ok_iff.1 hprocess
  obtain ⟨⟨⟩, _, -, hprocess⟩ := Attempt.start_bind_eq_ok_iff.1 hprocess
  cases hprocess
  exact ⟨rfl, rfl⟩

theorem start_process_quiet (h : TakesText library rules registry pipeline path)
    (hread : world.tree.read path = .ok text.toUTF8)
    (hquiet : Level.debug.number < world.console.threshold) :
    (process naming pipeline path identity).start world
      = (.ok (textModuleText (asRead text), []), world) := by
  obtain ⟨rule, hstart⟩ := start_process_of_takesText h hread
  rw [hstart, Attempt.start_bind, World.start_log hquiet, Attempt.andThen_ok, Attempt.start_bind,
    World.start_log hquiet]
  rfl

theorem yields_of_takesText (h : TakesText library rules registry pipeline path)
    (hname : Identity.ofPath? root path = some identity) (text : String) :
    (surroundings root naming pipeline).Yields (fun world => world.tree.read path = .ok text.toUTF8)
      (fun _ => True) fun record => record.identity = identity →
        record.code = textModuleText (asRead text) ∧ record.dependencies = [] where
  isFile _ _ hfits := hfits
  process other name world hfits := by
    have hsame : ((process naming pipeline other name).start world).2.tree = world.tree :=
      (sameFiles_surroundings root naming pipeline).process other name world
    change ((process naming pipeline other name).start world).2.tree.read path = _
    rw [hsame]
    exact hfits
  kind other name world looked code dependencies processed hfits hother _ hfile hprocess := by
    refine ⟨?_, fun _ _ => trivial⟩
    rintro rfl
    obtain rfl : looked = world := (congrArg Prod.snd hfile).symm
    obtain rfl : other = path :=
      (Identity.path_of_ofPath? hother).symm.trans (Identity.path_of_ofPath? hname)
    exact code_of_takesText h hfits hprocess

/-- What happens before the call leaves the bytes of a file alone. -/
def Call.Spares (path : FilePath) (bytes : ByteArray) (call : Call ω) : Prop :=
  ∀ world : World ω, world.tree.read path = .ok bytes → (call.change world).tree.read path = .ok bytes

/-- The file holds the text, and its module is recorded with this text alone. -/
structure HoldsText (path : FilePath) (identity : Identity) (text : String) (state : Graph × World ω) :
    Prop where
  file : state.2.tree.read path = .ok text.toUTF8
  recorded : ∀ entry ∈ state.1.modules, entry.2.identity = identity →
    entry.2.code = textModuleText (asRead text) ∧ entry.2.dependencies = []

theorem Call.holdsText_start (h : TakesText library rules registry pipeline path)
    (hname : Identity.ofPath? root path = some identity) {call : Call ω}
    (hspares : call.Spares path text.toUTF8) {state : Graph × World ω} (hgraph : state.1.Consistent)
    (hstate : HoldsText path identity text state) :
    HoldsText path identity text (call.start root naming pipeline state).2 := by
  obtain ⟨graph, world⟩ := state
  rw [Call.start, start_build]
  obtain ⟨hfile, hrecorded⟩ := Build.yields_start (yields_of_takesText h hname text)
    namesModules_surroundings (fun _ _ => trivial) hgraph (call.change world) (hspares world hstate.file)
    hstate.recorded ((call.change world).tree.nodes.length + 2) call.entry
  exact ⟨hfile, hrecorded⟩

theorem holdsText_afterCalls (h : TakesText library rules registry pipeline path)
    (hname : Identity.ofPath? root path = some identity) (hread : world.tree.read path = .ok text.toUTF8)
    {calls : List (Call ω)} (hcalls : ∀ call ∈ calls, call.Spares path text.toUTF8) :
    HoldsText path identity text (afterCalls root naming pipeline world calls) := by
  induction calls using List.reverseRecOn with
  | nil => exact ⟨hread, by simp⟩
  | append_singleton calls call ih =>
    rw [List.forall_mem_append, List.forall_mem_singleton] at hcalls
    rw [afterCalls_append]
    exact Call.holdsText_start h hname hcalls.2 (consistent_afterCalls world calls).1 (ih hcalls.1)

theorem Call.ok_of_takesText (h : TakesText library rules registry pipeline path)
    (hname : Identity.ofPath? root path = some identity) {call : Call ω} (hpath : call.path = path)
    {state : Graph × World ω} (hread : (call.change state.2).tree.read path = .ok text.toUTF8)
    (hquiet : Level.debug.number < (call.change state.2).console.threshold)
    (hvisit : state.1.visit identity ≠ .inProgress) :
    (call.start root naming pipeline state).1 = .ok identity := by
  obtain ⟨graph, world⟩ := state
  subst hpath
  have hfile : ((surroundings root naming pipeline).isFile call.path).start (call.change world)
      = (.ok true, call.change world) :=
    Prod.ext (isFile_surroundings.2 (FileTree.isFile_of_read hread)) rfl
  have hprocess : ((surroundings root naming pipeline).process call.path identity).start (call.change world)
      = (.ok (textModuleText (asRead text), []), call.change world) :=
    start_process_quiet h hread hquiet
  rw [Call.start, start_build]
  exact Build.ok_of_leaf hname hfile hprocess hvisit _ call.entry

/-- However calls build a graph around a file that the rule for texts alone matches: if the file's module is
recorded, it holds the text as it was read and loads nothing. It is recorded with every module that loads
it; and a call for the file itself cannot fail where no debug message is rendered, unless a call before it
left the module in progress. The text is read as it is where no carriage return is in it, and otherwise
never. -/
theorem text_of_calls (h : TakesText library rules registry pipeline path)
    (hname : Identity.ofPath? root path = some identity) (hread : world.tree.read path = .ok text.toUTF8)
    {calls : List (Call ω)} {call : Call ω} (hcalls : ∀ call ∈ calls, call.Spares path text.toUTF8)
    (hcall : call.Spares path text.toUTF8) :
    let before := afterCalls root naming pipeline world calls
    let answer := call.start root naming pipeline before
    (∀ held, (identity, held) ∈ answer.2.1.modules →
        HoldsData held.code (asRead text) ∧ held.dependencies = []) ∧
      (∀ other, answer.1 = .ok other → other ∈ answer.2.1.identities) ∧
      (∀ entry ∈ answer.2.1.modules, identity ∈ entry.2.dependencies →
        identity ∈ answer.2.1.identities) ∧
      (call.path = path → Level.debug.number < (call.change before.2).console.threshold →
        before.1.visit identity ≠ .inProgress → answer.1 = .ok identity) ∧
      (asRead text = text ↔ '\r' ∉ text.toList) := by
  intro before answer
  have hbefore : before.1.Consistent := (consistent_afterCalls world calls).1
  have hstate : HoldsText path identity text before := holdsText_afterCalls h hname hread hcalls
  have hafter : answer.2.1.Consistent := (call.consistent_start hbefore).1
  have hanswer : HoldsText path identity text answer.2 := Call.holdsText_start h hname hcall hbefore hstate
  refine ⟨fun held hheld => ?_, fun other hok => ?_, fun entry hentry hloads => ?_, ?_, Pipeline.asRead_eq_iff⟩
  · obtain ⟨hcode, hnone⟩ := hanswer.recorded _ hheld (hafter.identity_eq _ hheld)
    rw [hcode]
    exact ⟨Transform.holdsData_textModuleText (asRead text), hnone⟩
  · rw [← hafter.done_iff]
    exact call.done_of_start hok
  · obtain ⟨first, last, hsplit⟩ := List.append_of_mem hentry
    -- a module is recorded behind those that it loads
    have hmem := hafter.ordered _ _ _ hsplit identity hloads
    rw [Graph.identities, hsplit, List.map_append]
    exact List.mem_append_left _ hmem
  · intro hpath hquiet hvisit
    exact Call.ok_of_takesText h hname hpath (hcall _ hstate.file) hquiet hvisit

/-- The only rule is for files whose names end in this way. -/
def notesRules {τ : Type} (use : List τ) : List (Rule τ) :=
  (Regex.parse "\\.txt$").toOption.toList.map fun pattern => ⟨"\\.txt$", pattern, use⟩

def notesPath : FilePath := .ofString "/notes.txt"

/-- A world with notes, where a carriage return stands before a line feed, and a module that loads them. -/
def notesWorld : World Unit where
  tree := ⟨.root, [((FilePath.ofString "/main.py").parts, .file "require('./notes.txt')\n".toUTF8),
    (notesPath.parts, .file "a\x0d\nb\n".toUTF8)]⟩
  console := .start []
  registry := {}
  memory := ()

theorem takesText_notes :
    TakesText ([] : Library Unit Unit) (notesRules [.named "text"]) {} (notesRules [textModule]) notesPath := by
  have hmatches : ∃ pattern, (Regex.parse "\\.txt$").toOption = some pattern ∧
      Regex.search pattern notesPath.toString = true := by
    apply Option.map_eq_some_iff.1
    decide +kernel
  obtain ⟨pattern, hpattern, hmatches⟩ := hmatches
  have hrules : ∀ {τ : Type} (use : List τ), notesRules use = [⟨"\\.txt$", pattern, use⟩] := by
    intro τ use
    simp [notesRules, hpattern]
  simp only [hrules]
  refine ⟨⟨_, rfl⟩, rfl, ⟨"\\.txt$", pattern, [.named "text"]⟩, ?_, rfl⟩
  rw [List.filter_cons, Rule.matches, if_pos hmatches, List.filter_nil]

def notesCall : Call Unit where
  path := .ofString "/main.py"

def notesGraph : Graph :=
  (notesCall.start ⟨.root, []⟩ {} (notesRules [textModule])
    (afterCalls ⟨.root, []⟩ {} (notesRules [textModule]) notesWorld [])).2.1

theorem exists_mem_notesGraph :
    ∃ held, ("./notes.txt", held) ∈ notesGraph.modules ∧ held.code = textModuleText "a\nb\n" := by
  have hcodes : notesGraph.modules.map (fun entry => (entry.1, entry.2.code))
      = [("./notes.txt", textModuleText "a\nb\n"), ("./main.py", "__bundle_require__('./notes.txt')\n")] := by
    decide +kernel
  obtain ⟨⟨_, held⟩, hheld, hcode⟩ := List.mem_map.1 (hcodes ▸ List.mem_cons_self)
  obtain ⟨rfl, hcode⟩ := Prod.mk.inj hcode
  exact ⟨held, hheld, hcode⟩

theorem text_of_calls_notes : ∃ held, ("./notes.txt", held) ∈ notesGraph.modules ∧
    HoldsData held.code (asRead "a\x0d\nb\n") ∧ held.dependencies = [] := by
  have hname : Identity.ofPath? ⟨.root, []⟩ notesPath = some "./notes.txt" := by decide +kernel
  have hread : notesWorld.tree.read notesPath = .ok "a\x0d\nb\n".toUTF8 := rfl
  have hcalls : ∀ call ∈ ([] : List (Call Unit)), call.Spares notesPath "a\x0d\nb\n".toUTF8 := by simp
  have hcall : notesCall.Spares notesPath "a\x0d\nb\n".toUTF8 := fun _ hheld => hheld
  obtain ⟨held, hheld, -⟩ := exists_mem_notesGraph
  refine ⟨held, hheld, ?_⟩
  rw [notesGraph] at hheld
  exact (text_of_calls takesText_notes hname hread hcalls hcall).1 held hheld

/-- The module of the notes does not hold what is in the file. -/
theorem exists_mem_notesGraph_not_holdsData :
    ∃ held, ("./notes.txt", held) ∈ notesGraph.modules ∧ ¬ HoldsData held.code "a\x0d\nb\n" := by
  obtain ⟨held, hheld, hcode⟩ := exists_mem_notesGraph
  refine ⟨held, hheld, fun hholds => ?_⟩
  rw [hcode] at hholds
  exact absurd (hholds.unique (Transform.holdsData_textModuleText "a\nb\n")) (by decide)

end Processing
end Bundler
