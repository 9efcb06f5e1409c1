import Bundler.Proofs.Source.Words

/-!
# Texts made of lines

A text that is put together from lines of words has the words of its lines for tokens (`Opens.lines`), with marks
where the indentation changes. Lines without a word stand for nothing (`Opens.idle`).
-/

namespace Bundler.Source

variable {words rest : List Lexeme}

/-! ### Lines -/

/-- The token without what stands before it. -/
def Token.bare (token : Token) : Token := ⟨token.kind, [], [], token.text⟩

/-- The token of a word, without what stands before it. -/
def Lexeme.bare (lexeme : Lexeme) : Token := ⟨lexeme.kind, [], [], lexeme.text⟩

/-- The lexer where a line starts, in a text whose last line has its end. -/
def fresh (blank : Bool) : Mode := ⟨[], [], true, blank, true⟩

def lineEnd (before : List Char) : Lexeme := ⟨.newline, before, none, ['\n']⟩

/-- The token of the end of a line, without what stands before it. -/
def lineMark : Token := ⟨.newline, [], [], ['\n']⟩

/-- The lines have these tokens, if these blocks are open before them. -/
def Opens (levels : List Level) (chars : List Char) (shown : List Token) : Prop :=
  ∃ lexemes toks, (∀ blank, Scans (fresh blank) lexemes) ∧ lexemes.flatMap Lexeme.written = chars
    ∧ layoutFrom levels lexemes = .ok toks ∧ toks.map Token.bare = shown

variable {levels inner : List Level} {chars : List Char} {shown marks : List Token}

theorem Opens.finish (levels : List Level) :
    Opens levels [] (levels.map (fun _ => mark .dedent) ++ [mark .finish]) := by
  refine ⟨[⟨.finish, [], none, []⟩], levels.map (fun _ => mark .dedent) ++ [mark .finish], fun blank => ?_,
    rfl, rfl, ?_⟩
  · have hskip : Skip (fresh blank) [] none _ := .lineStart rfl nofun nofun (.inl rfl)
    exact .finish (.cons rfl hskip (.nil _ _)) rfl rfl
  · rw [List.map_append, List.map_map]
    rfl

theorem layoutFrom_withBefore {lexemes : List Lexeme} {toks : List Token}
    (h : layoutFrom levels lexemes = .ok toks) (before : List Char) :
    ∃ others, layoutFrom levels (withBefore before lexemes) = .ok others
      ∧ others.map Token.bare = toks.map Token.bare := by
  cases lexemes with
  | nil => exact ⟨toks, h, rfl⟩
  | cons lexeme rest =>
    obtain ⟨marks, margin, after, more, hlays, hmore, rfl⟩ := layoutFrom_cons_iff.1 h
    have hagain : Lays levels { lexeme with before := before ++ lexeme.before } marks margin after := by
      cases hlays with
      | finish hkind => exact .finish hkind
      | within hkind hnone => exact .within hkind hnone
      | line hkind hsome hindent => exact .line hkind hsome hindent
    refine ⟨_, layoutFrom_cons_iff.2 ⟨marks, margin, after, more, hagain, hmore, rfl⟩, ?_⟩
    simp [Token.bare]

theorem layoutFrom_words {others : List Token}
    (hwords : ∀ word ∈ words, word.indentation = none ∧ word.kind ≠ .finish)
    (hrest : layoutFrom levels rest = .ok others) :
    ∃ toks, layoutFrom levels (words ++ rest) = .ok toks
      ∧ toks.map Token.bare = words.map Lexeme.bare ++ others.map Token.bare := by
  induction words with
  | nil => exact ⟨others, hrest, rfl⟩
  | cons word words ih =>
    rw [List.forall_mem_cons] at hwords
    obtain ⟨⟨hindentation, hkind⟩, hwords⟩ := hwords
    obtain ⟨toks, htoks, hshown⟩ := ih hwords
    refine ⟨_, layoutFrom_cons_iff.2 ⟨[], [], levels, toks, .within hkind hindentation, htoks, rfl⟩, ?_⟩
    rw [List.nil_append, List.map_cons, hshown]
    rfl

theorem Opens.idle {line : List Char} (hline : ∀ c ∈ line, isLineBreak c = false)
    (hcomment : ∀ c, line.head? = some c → c = '#') (h : Opens levels chars shown) :
    Opens levels (line ++ '\n' :: chars) shown := by
  obtain ⟨lexemes, toks, hscans, rfl, hlayout, rfl⟩ := h
  have hne := (hscans true).ne_nil
  have hend : Scans ⟨[], [], false, true, true⟩ (withBefore ['\n'] lexemes) :=
    .skip rfl (.lineEnd rfl (.inr (.inl rfl)) (.inl rfl)) (hscans true)
  have hnext : ((withBefore ['\n'] lexemes).flatMap Lexeme.written).head? = some '\n' := by
    rw [written_withBefore hne]
    rfl
  have hwithin : Scans ⟨[], [], false, true, true⟩ (withBefore (line ++ ['\n']) lexemes) := by
    cases line with
    | nil => exact hend
    | cons c run =>
      obtain rfl := hcomment c rfl
      rw [List.forall_mem_cons] at hline
      rw [← withBefore_withBefore]
      refine .skip rfl (.comment rfl hline.2 fun d hd => ?_) hend
      rw [hnext] at hd
      cases hd
      rfl
  have hwritten : (withBefore (line ++ ['\n']) lexemes).flatMap Lexeme.written
      = line ++ '\n' :: lexemes.flatMap Lexeme.written := by
    rw [written_withBefore hne, List.append_assoc, List.singleton_append]
  obtain ⟨others, hothers, hshown⟩ := layoutFrom_withBefore hlayout (line ++ ['\n'])
  refine ⟨withBefore (line ++ ['\n']) lexemes, others, fun blank => ?_, hwritten, hothers, hshown⟩
  have hstart : Skip (fresh blank) [] ((withBefore (line ++ ['\n']) lexemes).flatMap Lexeme.written).head?
      ⟨[], [], false, true, true⟩ := by
    rw [hwritten]
    cases line with
    | nil => exact .lineStart rfl nofun (fun d hd => by cases hd; rfl) (.inl rfl)
    | cons c run =>
      obtain rfl := hcomment c rfl
      exact .lineStart rfl nofun (fun d hd => by cases hd; rfl) (.inl rfl)
  have hfresh := Scans.skip rfl hstart hwithin
  rwa [withBefore_nil] at hfresh

theorem Opens.blank (h : Opens levels chars shown) : Opens levels ('\n' :: chars) shown := by
  have hidle := h.idle (List.forall_mem_nil _) nofun
  rwa [List.nil_append] at hidle

/-- The words of a line, its indentation and what stands behind them. -/
structure Line where
  indentation : List Char
  words : List Lexeme
  tail : List Char := []

namespace Line

def written (line : Line) : List Char := line.indentation ++ (line.words.flatMap Lexeme.written ++ line.tail)

/-- The words of the line are read up to what stands behind them. -/
def isRead (line : Line) : Bool :=
  line.indentation.all isSpace && line.words.head?.any (·.before.isEmpty)
    && (line.tail ++ ['\n']).head?.any fun last => reads last [] line.words

/-- The line is read, and nothing but a comment stands behind its words. -/
structure Sound (line : Line) : Prop where
  reads : line.isRead = true
  spelt : ∀ word ∈ line.words, word.IsWord
  tail : Leads (inside []) line.tail (some '\n') (inside [])

/-- Lines with nothing behind their words. -/
theorem sound_of_plain {lines : List Line} (hread : lines.all isRead = true)
    (hspelt : ∀ line ∈ lines, ∀ word ∈ line.words, word.IsWord) (htail : ∀ line ∈ lines, line.tail = []) :
    ∀ line ∈ lines, line.Sound := by
  intro line hline
  refine ⟨List.all_eq_true.1 hread line hline, hspelt line hline, ?_⟩
  rw [htail line hline]
  exact .nil _ _

def tokens (line : Line) : List Token := line.words.map Lexeme.bare ++ [lineMark]

end Line

theorem Opens.line {line : Line} (hline : line.Sound)
    (hindent : indent levels line.indentation = .ok (marks, inner)) (h : Opens inner chars shown) :
    Opens levels (line.written ++ '\n' :: chars) (marks ++ (line.tokens ++ shown)) := by
  obtain ⟨indentation, words, tail⟩ := line
  obtain ⟨hread, hwords, htail⟩ := hline
  simp only [Line.isRead, Bool.and_eq_true, List.all_eq_true] at hread
  obtain ⟨⟨hblanks, hfirst⟩, hreads⟩ := hread
  simp only at htail hwords hindent
  obtain ⟨last, hlast, hreads⟩ := (Option.any_eq_true _ _).1 hreads
  obtain ⟨⟨kind, before, indented, text⟩, hhead, hbefore⟩ := (Option.any_eq_true _ _).1 hfirst
  obtain rfl : before = [] := List.isEmpty_iff.1 hbefore
  obtain ⟨words, rfl⟩ := List.head?_eq_some_iff.1 hhead
  rw [List.forall_mem_cons] at hwords
  obtain ⟨lexemes, toks, hscans, rfl, hlayout, rfl⟩ := h
  obtain ⟨rfl, hkind, -, after, hmore, hemits⟩ := reads_cons hreads
  have hend : Scans (inside []) (lineEnd tail :: lexemes) :=
    .token htail (.none _) (.newline rfl rfl (.inr (.inl rfl)) rfl rfl) (hscans false)
  have hhead : ((lineEnd tail :: lexemes).flatMap Lexeme.written).head? = some last := by
    rw [List.flatMap_cons, List.head?_append, ← hlast]
    cases tail <;> rfl
  have hrest : Scans (inside after) (words ++ lineEnd tail :: lexemes) :=
    scans_words hmore hwords.2 hend hhead
  obtain ⟨⟨c, more, htext, hfirm⟩, hemits⟩ :=
    hemits ((words ++ lineEnd tail :: lexemes).flatMap Lexeme.written) hwords.1
      (by rw [List.flatMap_append, List.head?_append, List.head?_append, hhead, List.head?_cons])
  have hlays : Lays inner (lineEnd tail) [] [] inner := .within nofun rfl
  obtain ⟨toks, htoks, hshown⟩ := layoutFrom_words (word_of_reads hmore)
    (layoutFrom_cons_iff.2 ⟨[], [], inner, _, hlays, hlayout, rfl⟩)
  have hmarks : marks.map Token.bare = marks := by
    refine (List.map_congr_left fun token htoken => ?_).trans (List.map_id _)
    rcases marks_of_indent hindent token htoken with rfl | rfl <;> rfl
  refine ⟨⟨kind, [], some indentation, text⟩ :: (words ++ lineEnd tail :: lexemes), _, fun blank => ?_, ?_,
    layoutFrom_cons_iff.2 ⟨marks, _, inner, toks, .line hkind rfl hindent, htoks, rfl⟩, ?_⟩
  · simp only at htext
    subst htext
    exact .token (.nil _ _) (.some rfl ⟨rfl, rfl, hblanks, ⟨c, rfl, hfirm.1, hfirm.2⟩, rfl⟩) hemits hrest
  · simp [Line.written, Lexeme.written, lineEnd]
  · rw [List.map_append, List.map_cons, hmarks, hshown, Line.tokens, List.append_assoc]
    rfl

/-- The tokens of the lines, and the blocks that are open behind them. -/
def laid : List Level → List Line → Option (List Token × List Level)
  | levels, [] => some ([], levels)
  | levels, line :: lines => do
    let (marks, inner) ← (indent levels line.indentation).toOption
    let (shown, after) ← laid inner lines
    return (marks ++ (line.tokens ++ shown), after)

theorem laid_cons {line : Line} {lines : List Line} {after : List Level}
    (h : laid levels (line :: lines) = some (shown, after)) :
    ∃ marks inner more, indent levels line.indentation = .ok (marks, inner) ∧ laid inner lines = some (more, after)
      ∧ shown = marks ++ (line.tokens ++ more) := by
  rw [laid, Option.bind_eq_bind, Option.bind_eq_some_iff] at h
  obtain ⟨⟨marks, inner⟩, hindent, h⟩ := h
  obtain ⟨⟨more, last⟩, hmore, h⟩ := Option.bind_eq_some_iff.1 h
  cases h
  cases hresult : indent levels line.indentation with
  | error fault =>
    rw [hresult] at hindent
    cases hindent
  | ok result =>
    rw [hresult] at hindent
    cases hindent
    exact ⟨marks, inner, more, rfl, hmore, rfl⟩

def writtenLines (lines : List Line) : List Char := lines.flatMap (·.written ++ ['\n'])

theorem Opens.lines {lines : List Line} {after : List Level} {rest : List Token}
    (hlines : ∀ line ∈ lines, line.Sound) (hlaid : laid levels lines = some (shown, after))
    (h : Opens after chars rest) : Opens levels (writtenLines lines ++ chars) (shown ++ rest) := by
  induction lines generalizing levels shown with
  | nil =>
    cases hlaid
    exact h
  | cons line lines ih =>
    rw [List.forall_mem_cons] at hlines
    obtain ⟨marks, inner, more, hindent, hmore, rfl⟩ := laid_cons hlaid
    have hline := Opens.line hlines.1 hindent (ih hlines.2 hmore)
    simpa [writtenLines, List.append_assoc] using hline

theorem Opens.exists_tokens (h : Opens [] chars shown) (hend : chars.getLast? = some '\n') :
    ∃ toks, tokens chars = .ok toks ∧ toks.map Token.bare = shown := by
  obtain ⟨lexemes, toks, hscans, rfl, hlayout, rfl⟩ := h
  have hstart : Mode.start (lexemes.flatMap Lexeme.written) = fresh true := by
    rw [Mode.start, hend]
    rfl
  have hlexemes : Source.lexemes (lexemes.flatMap Lexeme.written) = .ok lexemes :=
    lexemes_eq_ok_iff.2 ⟨hstart ▸ hscans true, rfl⟩
  refine ⟨toks, ?_, rfl⟩
  rw [tokens, hlexemes]
  exact hlayout

end Bundler.Source
