import Bundler.Proofs.Artifact.OneLine
import Bundler.Proofs.Attempt
import Bundler.Proofs.Files.Writing
import Bundler.Proofs.Path.Written
import Mathlib.Data.List.TakeDrop

/-!
# What a bundle holds is read back

Cutting the text of a bundle at its line feeds gives its lines back. A line of a module and a line of an
entry are recognised by their shape, which no other line has, and `recover` reads the modules and the
entries off those lines. The main statement is `render_standard`.
-/

namespace Bundler

open Text

namespace Artifact

/-! ### Reading a line -/

def literal? : List Char → Option (String × List Char)
  | [] => none
  | quote :: rest => do
    let (body, left) ← Source.stringRest quote false rest
    match Source.evaluate .standard (quote :: body) with
    | .ok (.text value) => some (String.ofList value, left)
    | _ => none

def moduleOf? (line : List Char) : Option (Identity × String) := do
  let (code, rest) ← literal? (← line.dropPrefix? "  exec(compile(".toList)
  let (identity, rest) ← literal? (← rest.dropPrefix? ", ".toList)
  let _ ← rest.dropPrefix? ", \"exec\"), exports)".toList
  return (identity, code)

def entryOf? (line : List Char) : Option (String × Identity) := do
  let (identity, rest) ← literal? (← (line.dropWhile isIdentifierPart).dropPrefix? ['('])
  let name ← rest.dropPrefix? ", \"__main__\")  # entry: ".toList
  return (String.ofList name, identity)

/-- The modules and the entries that the text of a bundle holds. -/
def recover (text : List Char) : List (Identity × String) × List (String × Identity) :=
  ((pieces '\n' text).filterMap moduleOf?, (pieces '\n' text).filterMap entryOf?)

theorem literal?_quoted (text : String) (rest : List Char) :
    literal? (quoted text.toList ++ rest) = some (text, rest) := by
  have hquoted : quoted text.toList = quoteFor text.toList :: (quoted text.toList).tail := rfl
  rw [hquoted, List.cons_append, literal?, Source.stringRest_quoted]
  simp only [Option.bind_eq_bind, Option.bind_some, ← hquoted, Source.evaluate_quoted,
    String.ofList_toList]

theorem dropPrefix?_append (start rest : List Char) :
    (start ++ rest).dropPrefix? start = some rest :=
  List.dropPrefix?_append_of_beq rest (BEq.rfl)

/-! ### The shape of the lines -/

theorem dropPrefix?_eq_none {start expected : List Char} (rest more : List Char)
    (h : ((start.zip expected).any fun pair => pair.1 != pair.2) = true) :
    (start ++ rest).dropPrefix? (expected ++ more) = none := by
  induction start generalizing expected with
  | nil => cases h
  | cons c start ih =>
    cases expected with
    | nil => cases h
    | cons d expected =>
      rw [List.zip_cons_cons, List.any_cons, Bool.or_eq_true] at h
      rw [List.cons_append, List.cons_append, List.dropPrefix?]
      split
      · next heq =>
        rw [bne, heq] at h
        exact ih (h.resolve_left (by simp))
      · rfl

theorem moduleOf?_append {start : List Char} (rest : List Char)
    (h : ((start.zip [' ', ' ', 'e', 'x', 'e']).any fun pair => pair.1 != pair.2) = true) :
    moduleOf? (start ++ rest) = none := by
  have hexpected : "  exec(compile(".toList = [' ', ' ', 'e', 'x', 'e'] ++ "c(compile(".toList := by
    decide
  rw [moduleOf?, hexpected, dropPrefix?_eq_none rest _ h]
  rfl

/-- A line that starts otherwise compiles no module. For a literal `rfl` decides the condition. -/
theorem moduleOf?_literal (start rest : List Char)
    (h : ((start.zip [' ', ' ', 'e', 'x', 'e']).any fun pair => pair.1 != pair.2) = true) :
    moduleOf? ((String.ofList start).toList ++ rest) = none := by
  rw [String.toList_ofList]
  exact moduleOf?_append rest h

theorem entryOf?_literal (start rest : List Char)
    (h : (start.dropWhile isIdentifierPart).head?.any (· != '(') = true) :
    entryOf? ((String.ofList start).toList ++ rest) = none := by
  rw [String.toList_ofList, entryOf?, List.dropWhile_append]
  cases hstart : start.dropWhile isIdentifierPart with
  | nil =>
    rw [hstart] at h
    cases h
  | cons c more =>
    rw [hstart] at h
    have hc : (c == '(') = false := by simpa using h
    simp [List.dropPrefix?, hc]

theorem moduleOf?_nil : moduleOf? [] = none := rfl

theorem entryOf?_nil : entryOf? [] = none := rfl

theorem unread_line (chars : List Char)
    (hmodule : ((chars.zip [' ', ' ', 'e', 'x', 'e']).any fun pair => pair.1 != pair.2) = true)
    (hentry : (chars.dropWhile isIdentifierPart).head?.any (· != '(') = true) :
    moduleOf? (String.ofList chars).toList = none ∧ entryOf? (String.ofList chars).toList = none := by
  have hline : (String.ofList chars).toList = (String.ofList chars).toList ++ [] :=
    (List.append_nil _).symm
  rw [hline]
  exact ⟨moduleOf?_literal chars [] hmodule, entryOf?_literal chars [] hentry⟩

variable {artifact : Artifact}

theorem moduleOf?_code (module : (Identity × String) × Nat) :
    moduleOf? ("  exec(compile(".toList ++ quoted module.1.2.toList ++ ", ".toList
      ++ quoted module.1.1.toList ++ ", \"exec\"), exports)".toList) = some module.1 := by
  have hend (finish : List Char) : finish.dropPrefix? finish = some [] := by
    simpa using dropPrefix?_append finish []
  rw [moduleOf?, List.append_assoc, List.append_assoc, List.append_assoc, dropPrefix?_append]
  generalize ", \"exec\"), exports)".toList = finish
  simp only [Option.bind_eq_bind, Option.bind_some, literal?_quoted]
  rw [dropPrefix?_append]
  simp only [Option.bind_some, literal?_quoted, hend]
  rfl

theorem entryOf?_call (hruntime : ∀ c ∈ artifact.runtime.toList, isIdentifierPart c = true)
    (entry : String × Identity) :
    entryOf? (artifact.runtime.toList ++ '(' :: quoted entry.2.toList
      ++ ", \"__main__\")  # entry: ".toList ++ entry.1.toList) = some entry := by
  have hcall (rest : List Char) :
      (('(' :: rest).dropWhile isIdentifierPart).dropPrefix? ['('] = some rest := by
    rw [List.dropWhile_cons_of_neg (by decide)]
    exact dropPrefix?_append ['('] rest
  rw [entryOf?, List.append_assoc, List.append_assoc, List.dropWhile_append_of_pos hruntime,
    List.cons_append, hcall]
  simp only [Option.bind_eq_bind, Option.bind_some, literal?_quoted, dropPrefix?_append,
    String.ofList_toList]
  rfl

/-! ### Every line is recognised -/

theorem unread_headerLines :
    ∀ line ∈ artifact.headerLines, moduleOf? line = none ∧ entryOf? line = none := by
  unfold headerLines
  simp only [List.forall_mem_cons, List.not_mem_nil, false_imp_iff, implies_true, and_true,
    List.append_assoc]
  refine ⟨unread_line _ rfl rfl, unread_line _ rfl rfl, ?_, ?_, unread_line _ rfl rfl,
    moduleOf?_nil, entryOf?_nil⟩
  · exact ⟨moduleOf?_literal _ _ rfl, entryOf?_literal _ _ rfl⟩
  · exact ⟨moduleOf?_literal _ _ rfl, entryOf?_literal _ _ rfl⟩

theorem moduleOf?_closureLines (module : (Identity × String) × Nat) :
    (artifact.closureLines module).filterMap moduleOf? = [module.1] := by
  unfold closureLines
  rw [List.filterMap_cons_none moduleOf?_nil, List.filterMap_cons_none, List.filterMap_cons_none,
    List.filterMap_cons_some (moduleOf?_code module), List.filterMap_cons_none moduleOf?_nil,
    List.filterMap_nil]
  · simp only [List.append_assoc]
    exact moduleOf?_literal _ _ rfl
  · simp only [List.append_assoc]
    exact moduleOf?_literal _ _ rfl

theorem entryOf?_closureLines (module : (Identity × String) × Nat) :
    (artifact.closureLines module).filterMap entryOf? = [] := by
  rw [List.filterMap_eq_nil_iff]
  unfold closureLines
  simp only [List.forall_mem_cons, List.not_mem_nil, false_imp_iff, implies_true, and_true,
    List.append_assoc]
  exact ⟨entryOf?_nil, entryOf?_literal _ _ rfl, entryOf?_literal _ _ rfl, entryOf?_literal _ _ rfl,
    entryOf?_nil⟩

theorem moduleOf?_tableLine (module : (Identity × String) × Nat) :
    moduleOf? (tableLine module) = none := by
  obtain ⟨quote, rest, hquote, hquoted⟩ : ∃ quote rest, (quote = '\'' ∨ quote = '"')
      ∧ quoted module.1.1.toList = quote :: rest :=
    ⟨_, _, quoteFor_eq module.1.1.toList, rfl⟩
  have hstart : "  ".toList ++ quote :: rest = [' ', ' ', quote] ++ rest := rfl
  unfold tableLine
  rw [hquoted, hstart]
  simp only [List.append_assoc]
  refine moduleOf?_append _ ?_
  rcases hquote with rfl | rfl <;> rfl

theorem entryOf?_tableLine (module : (Identity × String) × Nat) :
    entryOf? (tableLine module) = none := by
  unfold tableLine
  simp only [List.append_assoc]
  exact entryOf?_literal _ _ rfl

theorem unread_runtimeLines :
    ∀ line ∈ artifact.runtimeLines, moduleOf? line = none ∧ entryOf? line = none := by
  unfold runtimeLines
  simp only [List.forall_mem_cons, List.not_mem_nil, false_imp_iff, implies_true, and_true,
    List.append_assoc]
  have hempty : moduleOf? [] = none ∧ entryOf? [] = none := ⟨moduleOf?_nil, entryOf?_nil⟩
  refine ⟨⟨rfl, rfl⟩, unread_line _ rfl rfl, hempty, hempty, ?_, unread_line _ rfl rfl,
    unread_line _ rfl rfl, unread_line _ rfl rfl, unread_line _ rfl rfl, unread_line _ rfl rfl, ?_,
    unread_line _ rfl rfl, hempty⟩
  · exact ⟨moduleOf?_literal _ _ rfl, entryOf?_literal _ _ rfl⟩
  · exact ⟨moduleOf?_literal _ _ rfl, entryOf?_literal _ _ rfl⟩

theorem unread_tableStart :
    ∀ line ∈ [[], "__bundle_modules__ = \x7b".toList], moduleOf? line = none ∧ entryOf? line = none := by
  rw [List.forall_mem_cons, List.forall_mem_singleton]
  exact ⟨⟨moduleOf?_nil, entryOf?_nil⟩, unread_line _ rfl rfl⟩

section Names

variable (hruntime : isIdentifier artifact.runtime.toList = true)
include hruntime

theorem moduleOf?_bootstrapLines (entry : String × Identity) :
    (artifact.bootstrapLines entry).filterMap moduleOf? = [] := by
  rw [List.filterMap_eq_nil_iff]
  unfold bootstrapLines
  simp only [List.forall_mem_cons, List.not_mem_nil, false_imp_iff, implies_true, and_true]
  refine ⟨moduleOf?_nil, ?_⟩
  have hpart := all_isIdentifierPart hruntime
  cases hchars : artifact.runtime.toList with
  | nil =>
    rw [hchars] at hruntime
    cases hruntime
  | cons c rest =>
    have hne : c ≠ ' ' := by
      rintro rfl
      exact absurd (hpart ' ' (by simp [hchars])) (by decide)
    simp only [List.cons_append]
    rw [← List.singleton_append]
    refine moduleOf?_append _ ?_
    rw [List.zip_cons_cons, List.any_cons, Bool.or_eq_true]
    exact .inl (bne_iff_ne.2 hne)

theorem entryOf?_bootstrapLines (entry : String × Identity) :
    (artifact.bootstrapLines entry).filterMap entryOf? = [entry] := by
  unfold bootstrapLines
  rw [List.filterMap_cons_none entryOf?_nil,
    List.filterMap_cons_some (entryOf?_call (all_isIdentifierPart hruntime) entry), List.filterMap_nil]

theorem filterMap_moduleOf?_lines : artifact.lines.filterMap moduleOf? = artifact.modules := by
  have hheader : artifact.headerLines.filterMap moduleOf? = [] :=
    List.filterMap_eq_nil_iff.2 fun line hline => (unread_headerLines line hline).1
  have hstart : [[], "__bundle_modules__ = \x7b".toList].filterMap moduleOf? = [] :=
    List.filterMap_eq_nil_iff.2 fun line hline => (unread_tableStart line hline).1
  have htable : artifact.modules.zipIdx.filterMap (moduleOf? ∘ tableLine) = [] :=
    List.filterMap_eq_nil_iff.2 fun module _ => moduleOf?_tableLine module
  have hload : artifact.runtimeLines.filterMap moduleOf? = [] :=
    List.filterMap_eq_nil_iff.2 fun line hline => (unread_runtimeLines line hline).1
  have hentries : (artifact.entries.flatMap fun entry =>
      (artifact.bootstrapLines entry).filterMap moduleOf?) = [] :=
    List.flatMap_eq_nil_iff.2 fun entry _ => moduleOf?_bootstrapLines hruntime entry
  simp only [lines, List.filterMap_append, List.filterMap_flatMap, List.filterMap_map,
    moduleOf?_closureLines, hheader, hstart, htable, hload, hentries, List.nil_append, List.append_nil]
  rw [← List.map_eq_flatMap, List.zipIdx_map_fst]

theorem filterMap_entryOf?_lines : artifact.lines.filterMap entryOf? = artifact.entries := by
  have hheader : artifact.headerLines.filterMap entryOf? = [] :=
    List.filterMap_eq_nil_iff.2 fun line hline => (unread_headerLines line hline).2
  have hmodules : (artifact.modules.zipIdx.flatMap fun module =>
      (artifact.closureLines module).filterMap entryOf?) = [] :=
    List.flatMap_eq_nil_iff.2 fun module _ => entryOf?_closureLines module
  have hstart : [[], "__bundle_modules__ = \x7b".toList].filterMap entryOf? = [] :=
    List.filterMap_eq_nil_iff.2 fun line hline => (unread_tableStart line hline).2
  have htable : artifact.modules.zipIdx.filterMap (entryOf? ∘ tableLine) = [] :=
    List.filterMap_eq_nil_iff.2 fun module _ => entryOf?_tableLine module
  have hload : artifact.runtimeLines.filterMap entryOf? = [] :=
    List.filterMap_eq_nil_iff.2 fun line hline => (unread_runtimeLines line hline).2
  simp only [lines, List.filterMap_append, List.filterMap_flatMap, List.filterMap_map,
    entryOf?_bootstrapLines hruntime, hheader, hmodules, hstart, htable, hload, List.nil_append]
  exact List.flatMap_singleton' _

end Names

/-- Lines without line feeds are what their text is cut into, and nothing stands behind the last. -/
theorem pieces_unlines {lines : List (List Char)} (h : ∀ line ∈ lines, '\n' ∉ line) :
    pieces '\n' (unlines lines) = lines ++ [[]] := by
  have hglue : unlines lines = glue '\n' (lines ++ [[]]) := by
    induction lines with
    | nil => rfl
    | cons line rest ih =>
      rw [List.forall_mem_cons] at h
      rw [unlines_cons, ih h.2]
      cases rest <;> rfl
  rw [hglue, pieces_glue (by simp)]
  intro line hline
  rcases List.mem_append.1 hline with hline | hline
  · exact h line hline
  · simp [List.mem_singleton.1 hline]

/-! ### Rendering the standard template -/

section Rendering

variable {ω : Type} {pipeline : Pipeline ω} {world : World ω}

/-- A file that no rule matches is loaded as it is. -/
theorem start_load_of_unmatched {path : FilePath} {text : String}
    (htext : Pipeline.readText world.tree path = .ok text)
    (hrules : ∀ rule ∈ pipeline, rule.matches path = false) :
    (pipeline.load path).start world = (.ok text, world) := by
  have htransform : (pipeline.transform path text).start world = (.ok text, world) := by
    clear htext
    induction pipeline with
    | nil => rfl
    | cons rule rest ih =>
      rw [List.forall_mem_cons] at hrules
      rw [Pipeline.transform, if_neg (by simp [hrules.1]), ih hrules.2]
  rw [Pipeline.load, Attempt.start_bind, World.files, Attempt.start_look, htext, Attempt.andThen_ok,
    htransform]

theorem start_render_of_load {after : World ω}
    (hload : (pipeline.load artifact.template).start world = (.ok standardTemplate, after)) :
    (artifact.render pipeline).start world = (.ok (String.ofList (unlines artifact.lines)), after) := by
  rw [render, Attempt.start_bind, hload, Attempt.andThen_ok, Attempt.start_ofExcept, fill,
    Press.fill_standard, Template.render_standardTemplate]
  rfl

theorem start_render_standard
    (htemplate : Pipeline.readText world.tree artifact.template = .ok standardTemplate)
    (hrules : ∀ rule ∈ pipeline, rule.matches artifact.template = false) :
    (artifact.render pipeline).start world
      = (.ok (String.ofList (unlines artifact.lines)), world) :=
  start_render_of_load (start_load_of_unmatched htemplate hrules)

theorem recover_unlines (hruntime : isIdentifier artifact.runtime.toList = true)
    (hnames : ∀ entry ∈ artifact.entries, Config.isEntryName entry.1 = true) :
    recover (unlines artifact.lines) = (artifact.modules, artifact.entries) := by
  have hlines := oneLine_lines hruntime hnames
  have hpieces := pieces_unlines fun line hline hbreak => hlines line hline '\n' hbreak List.mem_cons_self
  rw [recover, hpieces, List.filterMap_append, List.filterMap_append,
    filterMap_moduleOf?_lines hruntime, filterMap_entryOf?_lines hruntime]
  simp [moduleOf?_nil, entryOf?_nil]

/-- The modules and the entries of a bundle are read back from its text, line by line: every line of
`lines` is a line of the text under any convention on line ends, so their number depends on the numbers
of modules and entries alone, and every literal has the value that it was written for. -/
theorem render_standard
    (htemplate : Pipeline.readText world.tree artifact.template = .ok standardTemplate)
    (hrules : ∀ rule ∈ pipeline, rule.matches artifact.template = false)
    (hruntime : isIdentifier artifact.runtime.toList = true)
    (hnames : ∀ entry ∈ artifact.entries, Config.isEntryName entry.1 = true) :
    ∃ text, (artifact.render pipeline).start world = (.ok text, world)
      ∧ text.toList = unlines artifact.lines
      ∧ recover text.toList = (artifact.modules, artifact.entries)
      ∧ pieces '\n' text.toList = artifact.lines ++ [[]]
      ∧ (∀ line ∈ artifact.lines, OneLine line)
      ∧ artifact.lines.length = 21 + 6 * artifact.modules.length + 2 * artifact.entries.length
      ∧ ∀ characters value, Source.evaluate characters (quoted value) = .ok (.text value) := by
  have hlines := oneLine_lines hruntime hnames
  have hpieces := pieces_unlines fun line hline hbreak => hlines line hline '\n' hbreak List.mem_cons_self
  refine ⟨String.ofList (unlines artifact.lines), ?_, String.toList_ofList, ?_, ?_, hlines,
    length_lines, Source.evaluate_quoted⟩
  · exact start_render_standard htemplate hrules
  · rw [String.toList_ofList, recover_unlines hruntime hnames]
  · rw [String.toList_ofList, hpieces]

theorem readText_of_read {tree : FileTree} {path : FilePath} {text : String}
    (hread : tree.read path = .ok text.toUTF8) (hbreaks : '\r' ∉ text.toList) :
    Pipeline.readText tree path = .ok text := by
  rw [Pipeline.readText, hread]
  simp only [Utf8.decode_toUTF8, Source.uniformBreaks_of_notMem hbreaks, String.ofList_toList]

def templateTree (content : ByteArray) : FileTree :=
  ⟨.root, [([⟨"minipack", by decide⟩], .directory),
    ([⟨"minipack", by decide⟩, ⟨"templates", by decide⟩], .directory),
    ([⟨"minipack", by decide⟩, ⟨"templates", by decide⟩,
      ⟨"bundle.py.j2", by decide⟩], .file content)]⟩

theorem read_templateTree (content : ByteArray) :
    (templateTree content).read templatePath = .ok content := rfl

def templateWorld : World Unit where
  tree := templateTree standardTemplate.toUTF8
  console := .start []
  registry := {}
  memory := ()

/-- A bundle with code that would end a literal in single quotes. -/
def quotedArtifact : Artifact where
  runtime := "load"
  modules := [("./a.py", "x = ')'\n")]
  entries := [("main", "./a.py")]

set_option maxRecDepth 100000 in
theorem notMem_standardTemplate : '\r' ∉ standardTemplate.toList := by
  rw [standardTemplate, String.toList_intercalate]
  simp only [List.map_cons, List.map_nil]
  repeat rw [String.toList_ofList]
  decide

theorem render_quotedArtifact :
    ∃ text, (quotedArtifact.render []).start templateWorld = (.ok text, templateWorld)
      ∧ recover text.toList = ([("./a.py", "x = ')'\n")], [("main", "./a.py")])
      ∧ (pieces '\n' text.toList).length = 30 := by
  have hread : Pipeline.readText templateWorld.tree quotedArtifact.template = .ok standardTemplate :=
    readText_of_read (read_templateTree _) notMem_standardTemplate
  have hrules : ∀ rule ∈ ([] : Pipeline Unit), rule.matches quotedArtifact.template = false := by simp
  obtain ⟨text, hrender, -, hrecover, hpieces, -, hlength, -⟩ :=
    render_standard hread hrules (by decide)
      (List.forall_mem_singleton.2 rfl)
  refine ⟨text, hrender, hrecover, ?_⟩
  rw [hpieces, List.length_append, hlength]
  rfl

end Rendering

end Artifact
end Bundler
