import Bundler.Proofs.Artifact.Lines
import Bundler.Proofs.Source.Lines

/-!
# The tokens of a bundle

Line by line, a bundle has the tokens that its lines show (`exists_tokens_lines`). The lines of a module and
those of the load function are indented, and what comes behind them closes their blocks (`Begins`).
-/

namespace Bundler.Artifact

open Source

/-! ### The lines in words -/

def importLine : Line := ⟨[], [.word "import", .behind " " (.word "types")], []⟩

def closureGroup (closure runtime code identity : List Char) : List Line :=
  [⟨[], [.word "def", .behind " " (.name closure), .sign "(", .word "module", .sign ",",
      .behind " " (.word "exports"), .sign ",", .behind " " (.name runtime), .sign ")", .sign ":"], []⟩,
    ⟨"  ".toList, [.word "exports", .sign "[", .string (Text.quoted runtime), .sign "]", .behind " " (.sign "="),
      .behind " " (.name runtime)], []⟩,
    ⟨"  ".toList, [.word "exec", .sign "(", .word "compile", .sign "(", .string (Text.quoted code), .sign ",",
      .behind " " (.string (Text.quoted identity)), .sign ",", .behind " " (.string "\"exec\"".toList), .sign ")",
      .sign ",", .behind " " (.word "exports"), .sign ")"], []⟩]

/-- The words of a line of the table, with the line break before them. -/
def itemWords (module : (Identity × String) × Nat) : List Lexeme :=
  [.behind "\n  " (.string (Text.quoted module.1.1.toList)), .sign ":", .behind " " (.name (closureName module.2)),
    .sign ","]

/-- The table: one line for the lexer, in spite of its line breaks. -/
def tableGroup (modules : List ((Identity × String) × Nat)) : Line :=
  ⟨[], [.word "__bundle_modules__", .behind " " (.sign "="), .behind " " (.sign "\x7b")]
    ++ (modules.flatMap itemWords ++ [.behind "\n" (.sign "\x7d")]), []⟩

def cacheLine : Line :=
  ⟨[], [.word "__bundle_cache__", .behind " " (.sign "="), .behind " " (.sign "\x7b"), .sign "\x7d"], []⟩

/-- The lines of the load function. -/
def runtimeGroup (runtime : List Char) : List Line :=
  [⟨[], [.word "def", .behind " " (.name runtime), .sign "(", .word "identity", .sign ",",
      .behind " " (.word "name"), .sign "=", .word "None", .sign ")", .sign ":"], []⟩,
    ⟨"  ".toList, [.word "if", .behind " " (.word "identity"), .behind " " (.word "in"),
      .behind " " (.word "__bundle_cache__"), .sign ":"], []⟩,
    ⟨"    ".toList, [.word "return", .behind " " (.word "__bundle_cache__"), .sign "[", .word "identity",
      .sign "]"], []⟩,
    ⟨"  ".toList, [.word "module", .behind " " (.sign "="), .behind " " (.word "types"), .sign ".",
      .word "ModuleType", .sign "(", .word "name", .behind " " (.word "or"), .behind " " (.word "identity"),
      .sign ")"], []⟩,
    ⟨"  ".toList, [.word "module", .sign ".", .word "__file__", .behind " " (.sign "="),
      .behind " " (.word "identity")], []⟩,
    ⟨"  ".toList, [.word "__bundle_cache__", .sign "[", .word "identity", .sign "]", .behind " " (.sign "="),
      .behind " " (.word "module")], []⟩,
    ⟨"  ".toList, [.word "__bundle_modules__", .sign "[", .word "identity", .sign "]", .sign "(", .word "module",
      .sign ",", .behind " " (.word "module"), .sign ".", .word "__dict__", .sign ",", .behind " " (.name runtime),
      .sign ")"], []⟩,
    ⟨"  ".toList, [.word "return", .behind " " (.word "module")], []⟩]

def entryLine (runtime identity name : List Char) : Line :=
  ⟨[], [.name runtime, .sign "(", .string (Text.quoted identity), .sign ",",
    .behind " " (.string "\"__main__\"".toList), .sign ")"], "  # entry: ".toList ++ name⟩

/-! ### The lines are read -/

theorem isIdentifier_closureName (index : Nat) : Text.isIdentifier (closureName index) = true := by
  have hdigits : ∀ c ∈ (toString index).toList, Text.isIdentifierPart c = true := by
    intro c hc
    rw [Nat.toString_eq_ofList_toDigits, String.toList_ofList] at hc
    have hdigit := Nat.isDigit_of_mem_toDigits (by decide) (by decide) hc
    have hsmall : c.toNat < 128 := by
      have hbound : c.toNat ≤ '9'.toNat := by
        simp only [Char.isDigit, Bool.and_eq_true, decide_eq_true_eq] at hdigit
        exact hdigit.2
      exact Nat.lt_of_le_of_lt hbound (by decide)
    rw [Text.isIdentifierPart, if_pos hsmall, Char.isAlphanum, hdigit, Bool.or_true, Bool.true_or]
  have hparts : ∀ c ∈ "_bundle_module_".toList ++ (toString index).toList, Text.isIdentifierPart c = true :=
    List.forall_mem_append.2 ⟨List.all_eq_true.1 rfl, hdigits⟩
  have hname : closureName index = '_' :: ("_bundle_module_".toList ++ (toString index).toList) := rfl
  rw [hname, Text.isIdentifier, Bool.and_eq_true, List.all_eq_true]
  exact ⟨rfl, hparts⟩

section Sound

variable {runtime : List Char} (hruntime : Text.isIdentifier runtime = true)

theorem sound_importLine : importLine.Sound := ⟨rfl, by simp +decide [importLine], .nil _ _⟩

theorem sound_cacheLine : cacheLine.Sound := ⟨rfl, by simp +decide [cacheLine], .nil _ _⟩

theorem sound_tableGroup (modules : List ((Identity × String) × Nat)) : (tableGroup modules).Sound := by
  have hitems : reads '\n' ['\x7d'] (modules.flatMap itemWords ++ [.behind "\n" (.sign "\x7d")]) = true := by
    induction modules with
    | nil => rfl
    | cons module modules ih => exact ih
  have hspelt : ∀ word ∈ modules.flatMap itemWords, word.IsWord := by
    rw [List.forall_mem_flatMap]
    rintro module -
    simp [itemWords, isIdentifier_closureName]
  refine ⟨hitems, ?_, .nil _ _⟩
  simp only [tableGroup, List.forall_mem_append]
  exact ⟨by simp +decide, hspelt, by simp⟩

include hruntime

theorem sound_runtimeGroup : ∀ line ∈ runtimeGroup runtime, line.Sound :=
  Line.sound_of_plain rfl (by simp +decide [runtimeGroup, hruntime]) (by simp [runtimeGroup])

theorem sound_closureGroup {closure : List Char} (hclosure : Text.isIdentifier closure = true)
    (code identity : List Char) : ∀ line ∈ closureGroup closure runtime code identity, line.Sound := by
  have hexec : (Lexeme.string ['"', 'e', 'x', 'e', 'c', '"']).IsWord := Lexeme.isWord_literal fun _ _ => rfl
  exact Line.sound_of_plain rfl (by simp +decide [closureGroup, hclosure, hruntime, hexec])
    (by simp [closureGroup])

theorem sound_entryLine (identity : List Char) {name : List Char} (hname : ∀ c ∈ name, isLineBreak c = false) :
    (entryLine runtime identity name).Sound := by
  have hmain : (Lexeme.string ['"', '_', '_', 'm', 'a', 'i', 'n', '_', '_', '"']).IsWord :=
    Lexeme.isWord_literal fun _ _ => rfl
  have hcomment : ∀ c ∈ " entry: ".toList ++ name, isLineBreak c = false :=
    List.forall_mem_append.2 ⟨isLineBreak_of_all rfl, hname⟩
  have htail : Leads (inside []) ('#' :: (" entry: ".toList ++ name)) (some '\n') (inside []) := by
    have hskip : Skip (inside []) ('#' :: (" entry: ".toList ++ name)) (some '\n') (inside []) :=
      .comment rfl hcomment fun c hc => by
        cases hc
        rfl
    have hmore := Leads.cons rfl hskip (.nil _ _)
    rwa [List.append_nil] at hmore
  refine ⟨rfl, by simp +decide [entryLine, hruntime, hmain], ?_⟩
  have hblank : Leads (inside []) ([' '] ++ '#' :: (" entry: ".toList ++ name)) (some '\n') (inside []) :=
    .cons rfl (.space _ rfl rfl) htail
  have hblanks : Leads (inside []) ([' '] ++ ([' '] ++ '#' :: (" entry: ".toList ++ name))) (some '\n') (inside []) :=
    .cons rfl (.space _ rfl rfl) hblank
  exact hblanks

end Sound

/-! ### What comes behind a block -/

def two : Source.Level := ⟨2, 2, [' ', ' ']⟩

/-- The lines have these tokens, where no block is open, and where one is that they close. -/
structure Begins (chars : List Char) (shown : List Token) : Prop where
  flush : Opens [] chars shown
  closing : Opens [two] chars (mark .dedent :: shown)

theorem begins_finish : Begins [] [mark .finish] := ⟨.finish [], .finish [two]⟩

variable {chars : List Char} {shown rest : List Token} {lines : List Line} {levels : List Source.Level}

theorem Begins.idle (h : Begins chars rest) {line : List Char} (hline : ∀ c ∈ line, isLineBreak c = false)
    (hcomment : ∀ c, line.head? = some c → c = '#') : Begins (line ++ '\n' :: chars) rest :=
  ⟨h.flush.idle hline hcomment, h.closing.idle hline hcomment⟩

theorem Begins.blank (h : Begins chars rest) : Begins ('\n' :: chars) rest :=
  ⟨h.flush.blank, h.closing.blank⟩

/-- The tokens of a group of lines, and of the end of its block. -/
def groupTokens (lines : List Line) : List Token :=
  match laid [] lines with
  | some (shown, levels) => shown ++ levels.map fun _ => mark .dedent
  | none => []

theorem Begins.group (h : Begins chars rest) (hlines : ∀ line ∈ lines, line.Sound)
    (hflush : laid [] lines = some (shown, levels))
    (hclosing : laid [two] lines = some (mark .dedent :: shown, levels)) (hlevels : levels = [] ∨ levels = [two]) :
    Begins (writtenLines lines ++ chars) (groupTokens lines ++ rest) := by
  rw [groupTokens, hflush]
  simp only [List.append_assoc]
  rcases hlevels with rfl | rfl
  · exact ⟨.lines hlines hflush h.flush, .lines hlines hclosing h.flush⟩
  · exact ⟨.lines hlines hflush h.closing, .lines hlines hclosing h.closing⟩

theorem indent_flush {line : Line} (h : line.indentation = []) : indent [] line.indentation = .ok ([], []) := by
  rw [h]
  rfl

theorem groupTokens_flush {line : Line} (h : line.indentation = []) : groupTokens [line] = line.tokens := by
  simp [groupTokens, laid, indent_flush h, Except.toOption]

theorem Begins.line (h : Begins chars rest) {line : Line} (hline : line.Sound) (hflush : line.indentation = []) :
    Begins (line.written ++ '\n' :: chars) (groupTokens [line] ++ rest) := by
  have htwo : indent [two] line.indentation = .ok ([mark .dedent], []) := by
    rw [hflush]
    rfl
  rw [groupTokens_flush hflush]
  exact ⟨.line hline (indent_flush hflush) h.flush, .line hline htwo h.flush⟩

/-! ### The bundle -/

variable (artifact : Artifact)

def moduleGroup (module : (Identity × String) × Nat) : List Line :=
  closureGroup (closureName module.2) artifact.runtime.toList module.1.2.toList module.1.1.toList

def bootstrapLine (entry : String × Identity) : Line :=
  entryLine artifact.runtime.toList entry.2.toList entry.1.toList

def groups : List (List Line) :=
  [importLine] :: (artifact.modules.zipIdx.map artifact.moduleGroup
    ++ ([tableGroup artifact.modules.zipIdx] :: [cacheLine] :: runtimeGroup artifact.runtime.toList
      :: artifact.entries.map fun entry => [artifact.bootstrapLine entry]))

theorem closureLines_eq (module : (Identity × String) × Nat) :
    artifact.closureLines module = [] :: ((artifact.moduleGroup module).map Line.written ++ [[]]) := by
  simp [closureLines, moduleGroup, closureGroup, Line.written, Lexeme.written, Lexeme.word, Lexeme.name, Lexeme.sign,
    Lexeme.string, Lexeme.behind]

theorem bootstrapLines_eq (entry : String × Identity) :
    artifact.bootstrapLines entry = [[], (artifact.bootstrapLine entry).written] := by
  simp [bootstrapLines, bootstrapLine, entryLine, Line.written, Lexeme.written, Lexeme.name, Lexeme.sign,
    Lexeme.string, Lexeme.behind]

theorem runtimeLines_eq :
    artifact.runtimeLines = ['\x7d'] :: cacheLine.written :: [] :: []
      :: ((runtimeGroup artifact.runtime.toList).map Line.written ++ [[]]) := by
  simp [runtimeLines, runtimeGroup, cacheLine, Line.written, Lexeme.written, Lexeme.word, Lexeme.name,
    Lexeme.sign, Lexeme.behind]

/-- The table is one line with line breaks in it. -/
theorem written_tableGroup (modules : List ((Identity × String) × Nat)) :
    (tableGroup modules).written
      = "__bundle_modules__ = \x7b".toList ++ '\n' :: (unlines (modules.map tableLine) ++ ['\x7d']) := by
  have hitems : (modules.flatMap itemWords).flatMap Lexeme.written ++ ['\n', '\x7d']
      = '\n' :: (unlines (modules.map tableLine) ++ ['\x7d']) := by
    induction modules with
    | nil => rfl
    | cons module modules ih =>
      rw [List.flatMap_cons, List.flatMap_append, List.append_assoc, ih, List.map_cons, unlines_cons]
      simp [itemWords, tableLine, Lexeme.written, Lexeme.name, Lexeme.sign, Lexeme.string, Lexeme.behind]
  rw [← hitems]
  simp [Line.written, tableGroup, Lexeme.written, Lexeme.word, Lexeme.name, Lexeme.sign, Lexeme.behind]

theorem getLast?_unlines {lines : List (List Char)} (hne : lines ≠ []) : (unlines lines).getLast? = some '\n' := by
  obtain ⟨lines, line, rfl⟩ : ∃ before line, lines = before ++ [line] :=
    ⟨_, _, (List.dropLast_concat_getLast hne).symm⟩
  rw [unlines_append, unlines_cons, unlines_nil, List.getLast?_append, List.getLast?_append]
  rfl

theorem unlines_written (lines : List Line) : unlines (lines.map Line.written) = writtenLines lines := by
  rw [unlines, writtenLines, List.flatMap_map]

section Tokens

variable {artifact : Artifact} (hruntime : Text.isIdentifier artifact.runtime.toList = true)

include hruntime

theorem begins_modules (h : Begins chars rest) (modules : List ((Identity × String) × Nat)) :
    Begins (unlines (modules.flatMap artifact.closureLines) ++ chars)
      ((modules.map artifact.moduleGroup).flatMap groupTokens ++ rest) := by
  induction modules with
  | nil => exact h
  | cons module modules ih =>
    have hgroup := ih.blank.group (sound_closureGroup hruntime (isIdentifier_closureName module.2)
      module.1.2.toList module.1.1.toList) rfl rfl (.inr rfl)
    rw [List.flatMap_cons, unlines_append, closureLines_eq, unlines_cons, unlines_append, unlines_written,
      unlines_cons, unlines_nil, List.map_cons, List.flatMap_cons]
    simpa [moduleGroup] using hgroup.blank

theorem begins_entries (entries : List (String × Identity))
    (hnames : ∀ entry ∈ entries, ∀ c ∈ entry.1.toList, isLineBreak c = false) :
    Begins (unlines (entries.flatMap artifact.bootstrapLines))
      ((entries.map fun entry => [artifact.bootstrapLine entry]).flatMap groupTokens ++ [mark .finish]) := by
  induction entries with
  | nil => exact begins_finish
  | cons entry entries ih =>
    rw [List.forall_mem_cons] at hnames
    have hline := (ih hnames.2).line (sound_entryLine hruntime entry.2.toList hnames.1) rfl
    rw [List.flatMap_cons, unlines_append, bootstrapLines_eq, unlines_cons, unlines_cons, unlines_nil,
      List.map_cons, List.flatMap_cons]
    simpa [bootstrapLine] using hline.blank

omit hruntime in
theorem headerLines_eq :
    artifact.headerLines = artifact.headerLines.take 4 ++ [importLine.written, []] := rfl

omit hruntime in
theorem mem_joinWith {sep : String} {texts : List String} {c : Char} (h : c ∈ (Text.joinWith sep texts).toList) :
    c ∈ sep.toList ∨ ∃ text ∈ texts, c ∈ text.toList := by
  induction texts with
  | nil => cases h
  | cons text rest ih =>
    cases rest with
    | nil => exact .inr ⟨text, List.mem_cons_self, h⟩
    | cons next others =>
      rw [Text.joinWith, String.toList_append, String.toList_append, List.mem_append, List.mem_append] at h
      rcases h with (h | h) | h
      · exact .inr ⟨text, List.mem_cons_self, h⟩
      · exact .inl h
      · exact (ih h).imp_right fun ⟨other, hother, hc⟩ => ⟨other, List.mem_cons_of_mem _ hother, hc⟩

omit hruntime in
theorem idle_headerLines (hnames : ∀ entry ∈ artifact.entries, ∀ c ∈ entry.1.toList, isLineBreak c = false) :
    ∀ line ∈ artifact.headerLines.take 4, (∀ c ∈ line, isLineBreak c = false) ∧ line.head? = some '#' := by
  have hsep : ∀ c ∈ ", ".toList, isLineBreak c = false := isLineBreak_of_all rfl
  have hjoined : ∀ c ∈ (Text.joinWith ", " (artifact.entries.map (·.1))).toList, isLineBreak c = false := by
    intro c hc
    rcases mem_joinWith hc with hc | ⟨name, hname, hc⟩
    · exact hsep c hc
    · obtain ⟨entry, hentry, rfl⟩ := List.mem_map.1 hname
      exact hnames entry hentry c hc
  simp only [headerLines, List.take_succ_cons, List.take_zero, List.forall_mem_cons]
  exact ⟨⟨isLineBreak_of_all rfl, rfl⟩, ⟨isLineBreak_of_all rfl, rfl⟩, ⟨isLineBreak_of_all rfl, rfl⟩,
    ⟨List.forall_mem_append.2 ⟨isLineBreak_of_all rfl, hjoined⟩, rfl⟩, nofun⟩

theorem begins_lines (hnames : ∀ entry ∈ artifact.entries, ∀ c ∈ entry.1.toList, isLineBreak c = false) :
    Begins (unlines artifact.lines) (artifact.groups.flatMap groupTokens ++ [mark .finish]) := by
  have hentries := begins_entries hruntime artifact.entries hnames
  have hload := (hentries.blank.group (sound_runtimeGroup hruntime) rfl rfl (.inr rfl)).blank.blank
  have hcache := hload.line sound_cacheLine rfl
  have htable := (hcache.line (sound_tableGroup artifact.modules.zipIdx) rfl).blank
  have hmodules := begins_modules hruntime htable artifact.modules.zipIdx
  have himport := hmodules.blank.line sound_importLine rfl
  have hheader : ∀ lines : List (List Char), (∀ line ∈ lines, (∀ c ∈ line, isLineBreak c = false)
      ∧ line.head? = some '#') → ∀ {chars shown}, Begins chars shown → Begins (unlines lines ++ chars) shown := by
    intro lines hlines chars shown h
    induction lines with
    | nil => exact h
    | cons line lines ih =>
      rw [List.forall_mem_cons] at hlines
      rw [unlines_cons]
      simpa using (ih hlines.2).idle hlines.1.1 fun c hc => by
        cases hlines.1.2.symm.trans hc
        rfl
  have hall := hheader _ (idle_headerLines hnames) himport
  rw [lines, headerLines_eq, runtimeLines_eq]
  rw [written_tableGroup] at hall
  simpa [unlines_append, unlines_cons, unlines_nil, unlines_written, groups] using hall

theorem exists_tokens_lines
    (hnames : ∀ entry ∈ artifact.entries, ∀ c ∈ entry.1.toList, isLineBreak c = false) :
    ∃ toks, tokens (unlines artifact.lines) = .ok toks
      ∧ toks.map Token.bare = artifact.groups.flatMap groupTokens ++ [mark .finish] := by
  have hne : artifact.lines ≠ [] := by simp [lines, headerLines]
  exact (begins_lines hruntime hnames).flush.exists_tokens (getLast?_unlines hne)

end Tokens

end Bundler.Artifact
