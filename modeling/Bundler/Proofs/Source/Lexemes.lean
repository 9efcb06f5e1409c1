import Bundler.Proofs.Source.Parts
import Mathlib.Data.List.TakeWhile

/-!
# Lexemes hold the whole text

The lexemes of a text, written one after the other, are the text (`written_lexemes`). An indentation is
made of blanks, and the token that it belongs to starts with something else. `ScanStep` says once what
one step of the lexer does: of the characters that it does not read it looks at the next one at most,
unless it reads a token.
-/

namespace Bundler.Source

variable {chars : List Char}

/-- A token starts here, with no blanks or line breaks before it. -/
def Starts (mode : Mode) (chars : List Char) : Prop :=
  mode.textFrame? = none ∧ mode.lineStart = false ∧ ∃ c rest, chars = c :: rest ∧ isSpace c = false
    ∧ c ≠ '#' ∧ c ≠ '\\' ∧ isLineBreak c = false

/-! ### One step -/

/-- The characters are a whole line break before the next character. -/
def IsBreak (lineEnd : List Char) (next : Option Char) : Prop :=
  lineEnd = ['\r', '\n'] ∨ lineEnd = ['\n'] ∨ lineEnd = ['\r'] ∧ next ≠ some '\n'

theorem lineBreak?_eq_some_iff {lineEnd rest : List Char} :
    lineBreak? chars = some (lineEnd, rest) ↔ chars = lineEnd ++ rest ∧ IsBreak lineEnd rest.head? := by
  constructor
  · intro h
    unfold lineBreak? at h
    split at h
    · cases h
      exact ⟨rfl, .inl rfl⟩
    next others hnext =>
      cases h
      refine ⟨rfl, .inr (.inr ⟨rfl, fun hhead => ?_⟩)⟩
      obtain ⟨more, rfl⟩ := List.head?_eq_some_iff.1 hhead
      exact hnext more rfl
    · cases h
      exact ⟨rfl, .inr (.inl rfl)⟩
    · cases h
  · rintro ⟨rfl, rfl | rfl | ⟨rfl, hnext⟩⟩
    · rfl
    · rfl
    · cases rest with
      | nil => rfl
      | cons c more =>
        have hne : c ≠ '\n' := fun heq => hnext (congrArg some heq)
        rw [List.singleton_append, lineBreak?]
        · rintro others heq
          exact hne (List.cons.inj heq).1

theorem lineBreak?_cons_eq_none_iff {c : Char} {rest : List Char} :
    lineBreak? (c :: rest) = none ↔ isLineBreak c = false := by
  rw [← Bool.not_eq_true, ← Option.not_isSome_iff_eq_none, not_iff_not]
  constructor
  · intro h
    unfold lineBreak? at h
    split at h
    next heq => exact (List.cons.inj heq).1 ▸ rfl
    next heq => exact (List.cons.inj heq).1 ▸ rfl
    next heq => exact (List.cons.inj heq).1 ▸ rfl
    · cases h
  · intro h
    rw [isLineBreak, Bool.or_eq_true, beq_iff_eq, beq_iff_eq] at h
    rcases h with rfl | rfl
    · rfl
    · unfold lineBreak?
      split <;> simp_all

/-- A line is blank if this character, if any, comes next after its blanks. -/
def isBlankLine : Option Char → Bool
  | none => true
  | some c => c == '#' || c == '\\' || isLineBreak c

/-- A step over blanks, a comment or a line break, and how the lexer goes on. -/
inductive Skip (mode : Mode) : List Char → Option Char → Mode → Prop
  | space {c : Char} (next : Option Char) (hline : mode.lineStart = false) (hspace : isSpace c = true) :
    Skip mode [c] next mode
  | comment {run : List Char} {next : Option Char} (hline : mode.lineStart = false)
      (hrun : ∀ c ∈ run, isLineBreak c = false) (hnext : ∀ c, next = some c → isLineBreak c = true) :
    Skip mode ('#' :: run) next mode
  | joined {lineEnd : List Char} {next : Option Char} (hline : mode.lineStart = false)
      (hbreak : IsBreak lineEnd next) (hnext : next ≠ none) : Skip mode ('\\' :: lineEnd) next mode
  | lineEnd {lineEnd : List Char} {next : Option Char} (hline : mode.lineStart = false)
      (hbreak : IsBreak lineEnd next) (hblank : mode.blank = true ∨ mode.closers ≠ []) :
    Skip mode lineEnd next { mode with lineStart := true }
  | lineStart {blanks : List Char} {next : Option Char} (hline : mode.lineStart = true)
      (hblanks : ∀ c ∈ blanks, isSpace c = true) (hnext : ∀ c, next = some c → isSpace c = false)
      (hblank : isBlankLine next = true ∨ mode.closers ≠ []) :
    Skip mode blanks next { mode with lineStart := false, blank := isBlankLine next }

/-- The indentation of a line is read, and a token comes next. -/
structure Indents (mode : Mode) (blanks : List Char) (next : Option Char) (after : Mode) : Prop where
  line : mode.lineStart = true
  closers : mode.closers = []
  blanks : ∀ c ∈ blanks, isSpace c = true
  next : ∃ c, next = some c ∧ isSpace c = false ∧ isBlankLine next = false
  after : after = { mode with lineStart := false, blank := false }

/-- A token is read: its kind, its text, what follows, and how the lexer goes on. -/
inductive Emits (mode : Mode) : TokenKind → List Char → List Char → Mode → Prop
  | formatText {frame : Frame} {text rest : List Char} (hframe : mode.textFrame? = some frame)
      (hne : text ≠ []) (hrun : formatRun frame false (text ++ rest) = some (text, rest)) :
    Emits mode .formatText text rest mode
  | formatEnd {frame : Frame} {rest : List Char} (hframe : mode.textFrame? = some frame)
      (hrun : formatRun frame false (frame.closing ++ rest) = some ([], frame.closing ++ rest)) :
    Emits mode .formatEnd frame.closing rest { mode with frames := mode.frames.tail }
  | fieldStart {frame : Frame} {rest : List Char} (hframe : mode.textFrame? = some frame)
      (hrun : formatRun frame false ('{' :: rest) = some ([], '{' :: rest))
      (hclosing : frame.closing.isPrefixOf ('{' :: rest) = false) :
    Emits mode .operator ['{'] rest
      { mode.onFrame Frame.openBracket with closers := '}' :: mode.closers }
  | specEnd {frame : Frame} {rest : List Char} (hframe : mode.textFrame? = some frame)
      (hrun : formatRun frame false ('}' :: rest) = some ([], '}' :: rest))
      (hclosing : frame.closing.isPrefixOf ('}' :: rest) = false)
      (hspec : frame.inSpec = true) (hcloser : mode.closers.head? = some '}') :
    Emits mode .operator ['}'] rest
      { mode.onFrame Frame.closeBracket with closers := mode.closers.tail }
  | newline {lineEnd rest : List Char} (hframe : mode.textFrame? = none) (hline : mode.lineStart = false)
      (hbreak : IsBreak lineEnd rest.head?) (hblank : mode.blank = false) (hclosers : mode.closers = []) :
    Emits mode .newline lineEnd rest { mode with lineStart := true }
  | lexeme {kind : TokenKind} {text rest : List Char} {next : Mode} (hstarts : Starts mode (text ++ rest))
      (hlexeme : lexemeAt mode (text ++ rest) = .ok (kind, text, rest, next)) :
    Emits mode kind text rest next

def lastLexemes (mode : Mode) (before : List Char) (indentation : Option (List Char)) : List Lexeme :=
  if mode.closed || mode.blank then [⟨.finish, before, indentation, []⟩]
  else [⟨.newline, before, indentation, []⟩, ⟨.finish, [], none, []⟩]

/-- What one step of the lexer does. -/
inductive ScanStep (fuel : Nat) (mode : Mode) (before : List Char) (indentation : Option (List Char))
    (lexemes : List Lexeme) : List Char → Prop
  | token (kind : TokenKind) (text rest : List Char) (next : Mode) (others : List Lexeme)
      (hemits : Emits mode kind text rest next) (hscan : scan fuel next [] none rest = .ok others)
      (hlexemes : lexemes = ⟨kind, before, indentation, text⟩ :: others) :
    ScanStep fuel mode before indentation lexemes (text ++ rest)
  | skip (blanks rest : List Char) (next : Mode) (hframe : mode.textFrame? = none)
      (hskip : Skip mode blanks rest.head? next)
      (hscan : scan fuel next (before ++ blanks) indentation rest = .ok lexemes) :
    ScanStep fuel mode before indentation lexemes (blanks ++ rest)
  | line (blanks rest : List Char) (next : Mode) (hframe : mode.textFrame? = none)
      (hindents : Indents mode blanks rest.head? next)
      (hscan : scan fuel next before (some blanks) rest = .ok lexemes) :
    ScanStep fuel mode before indentation lexemes (blanks ++ rest)
  | finish (hframe : mode.textFrame? = none) (hline : mode.lineStart = false)
      (hlexemes : lexemes = lastLexemes mode before indentation) :
    ScanStep fuel mode before indentation lexemes []

section

variable {fuel : Nat} {mode : Mode} {before : List Char} {indentation : Option (List Char)}
  {lexemes : List Lexeme}

/-- Where the lexer writes a lexeme, the others come from what is left. -/
theorem exists_scan_of_cons {lexeme : Lexeme} {next : Mode} {rest : List Char}
    (h : (do return lexeme :: (← scan fuel next [] none rest)) = Except.ok lexemes) :
    ∃ others, scan fuel next [] none rest = .ok others ∧ lexemes = lexeme :: others := by
  cases hscan : scan fuel next [] none rest with
  | error fault =>
    rw [hscan] at h
    cases h
  | ok others =>
    rw [hscan] at h
    cases h
    exact ⟨others, rfl, rfl⟩

theorem scanStep_in_text {frame : Frame} (hframe : mode.textFrame? = some frame)
    (h : scan (fuel + 1) mode before indentation chars = .ok lexemes) :
    ScanStep fuel mode before indentation lexemes chars := by
  unfold scan at h
  simp only [hframe] at h
  split at h
  · cases h
  next c run rest hrun =>
    obtain ⟨others, hscan, rfl⟩ := exists_scan_of_cons h
    obtain rfl := append_of_formatRun hrun
    exact .token _ _ _ _ others (.formatText hframe (List.cons_ne_nil _ _) hrun) hscan rfl
  next rest hrun =>
    obtain rfl := append_of_formatRun hrun
    rw [List.nil_append] at hrun ⊢
    split at h
    next hclosing =>
      obtain ⟨more, rfl⟩ := List.isPrefixOf_iff_prefix.1 hclosing
      obtain ⟨others, hscan, rfl⟩ := exists_scan_of_cons h
      rw [List.drop_left] at hscan
      exact .token _ _ _ _ others (.formatEnd hframe hrun) hscan rfl
    next hclosing =>
      rw [Bool.not_eq_true] at hclosing
      split at h
      next rest =>
        obtain ⟨others, hscan, rfl⟩ := exists_scan_of_cons h
        exact .token _ ['{'] _ _ others (.fieldStart hframe hrun hclosing) hscan rfl
      next rest =>
        split at h
        next hspec =>
          obtain ⟨others, hscan, rfl⟩ := exists_scan_of_cons h
          exact .token _ ['}'] _ _ others (.specEnd hframe hrun hclosing hspec.1 hspec.2) hscan rfl
        · cases h
      · cases h

theorem scanStep_at_lineStart (hframe : mode.textFrame? = none) (hline : mode.lineStart = true)
    (h : scan (fuel + 1) mode before indentation chars = .ok lexemes) :
    ScanStep fuel mode before indentation lexemes chars := by
  have happend := List.takeWhile_append_dropWhile (p := isSpace) (l := chars)
  have hblanks : ∀ c ∈ chars.takeWhile isSpace, isSpace c = true := fun c hc => List.mem_takeWhile_imp hc
  have hnext : ∀ c, (chars.dropWhile isSpace).head? = some c → isSpace c = false :=
    fun c hc => eq_false_of_dropWhile hc
  unfold scan at h
  simp only [hframe, if_pos hline] at h
  rw [List.span_eq_takeWhile_dropWhile] at h
  generalize chars.takeWhile isSpace = blanks at *
  generalize chars.dropWhile isSpace = rest at *
  subst happend
  cases rest with
  | nil => exact .skip _ _ _ hframe (.lineStart hline hblanks hnext (.inl rfl)) h
  | cons c more =>
    simp only at h
    split at h
    next hskip =>
      rw [Bool.or_eq_true, bne_iff_ne] at hskip
      exact .skip _ _ _ hframe (.lineStart hline hblanks hnext hskip) h
    next hskip =>
      rw [Bool.or_eq_true, not_or, Bool.not_eq_true, bne_iff_ne, not_not] at hskip
      rw [hskip.1] at h
      exact .line _ _ _ hframe ⟨hline, hskip.2, hblanks, ⟨c, rfl, hnext c rfl, hskip.1⟩, rfl⟩ h

theorem scanStep_at_end (hframe : mode.textFrame? = none) (hline : mode.lineStart = false)
    (h : scan (fuel + 1) mode before indentation [] = .ok lexemes) :
    ScanStep fuel mode before indentation lexemes [] := by
  refine .finish hframe hline ?_
  rw [scan, hframe] at h
  simp only [hline, Bool.false_eq_true, if_false] at h
  split at h
  next hclosed =>
    cases h
    rw [lastLexemes, if_pos hclosed]
  next hclosed =>
    cases h
    rw [lastLexemes, if_neg hclosed]

theorem scanStep_in_line {c : Char} {rest : List Char} (hframe : mode.textFrame? = none)
    (hline : mode.lineStart = false)
    (h : scan (fuel + 1) mode before indentation (c :: rest) = .ok lexemes) :
    ScanStep fuel mode before indentation lexemes (c :: rest) := by
  rw [scan, hframe] at h
  simp only [hline, Bool.false_eq_true, if_false] at h
  split at h
  next hspace => exact .skip [c] rest mode hframe (.space _ hline hspace) h
  next hspace =>
  split at h
  next hcomment =>
    subst hcomment
    rw [List.span_eq_takeWhile_dropWhile, List.takeWhile_cons_of_pos (by decide),
      List.dropWhile_cons_of_pos (by decide)] at h
    have hrun : ∀ c ∈ rest.takeWhile fun c => !isLineBreak c, isLineBreak c = false := by
      intro c hc
      simpa using List.mem_takeWhile_imp hc
    have hnext : ∀ c, (rest.dropWhile fun c => !isLineBreak c).head? = some c →
        isLineBreak c = true := fun c hc => by simpa using eq_false_of_dropWhile hc
    have hskip := ScanStep.skip _ _ mode hframe (.comment hline hrun hnext) h
    rwa [List.cons_append, List.takeWhile_append_dropWhile] at hskip
  next hcomment =>
  split at h
  next hback =>
    subst hback
    split at h
    · cases h
    next lineEnd more hmore hbreak =>
      obtain ⟨rfl, hwhole⟩ := lineBreak?_eq_some_iff.1 hbreak
      refine .skip ('\\' :: lineEnd) more mode hframe (.joined hline hwhole fun hnone => ?_) h
      obtain rfl := List.head?_eq_none_iff.1 hnone
      exact hmore rfl
    · cases h
  next hback =>
  split at h
  next lineEnd more hbreak =>
    obtain ⟨happend, hbreak⟩ := lineBreak?_eq_some_iff.1 hbreak
    rw [happend]
    split at h
    next hblank =>
      rw [Bool.or_eq_true, bne_iff_ne] at hblank
      exact .skip _ more _ hframe (.lineEnd hline hbreak hblank) h
    next hblank =>
      rw [Bool.or_eq_true, not_or, Bool.not_eq_true, bne_iff_ne, not_not] at hblank
      obtain ⟨others, hscan, rfl⟩ := exists_scan_of_cons h
      exact .token _ _ _ _ others (.newline hframe hline hbreak hblank.1 hblank.2) hscan rfl
  next hbreak =>
    cases hlexeme : lexemeAt mode (c :: rest) with
    | error fault =>
      rw [hlexeme] at h
      cases h
    | ok part =>
      obtain ⟨kind, text, more, next⟩ := part
      rw [hlexeme] at h
      obtain ⟨others, hscan, rfl⟩ := exists_scan_of_cons h
      have hstarts : Starts mode (c :: rest) :=
        ⟨hframe, hline, c, rest, rfl, by simpa using hspace, hcomment, hback,
          lineBreak?_cons_eq_none_iff.1 hbreak⟩
      have happend := append_of_lexemeAt hlexeme
      rw [← happend] at hlexeme hstarts ⊢
      exact .token _ _ _ _ others (.lexeme hstarts hlexeme) hscan rfl

/-- Where the lexer goes on, it has made one of these steps. -/
theorem scanStep (h : scan (fuel + 1) mode before indentation chars = .ok lexemes) :
    ScanStep fuel mode before indentation lexemes chars := by
  cases hframe : mode.textFrame? with
  | some frame => exact scanStep_in_text hframe h
  | none =>
    cases hline : mode.lineStart with
    | true => exact scanStep_at_lineStart hframe hline h
    | false =>
      cases chars with
      | nil => exact scanStep_at_end hframe hline h
      | cons c rest => exact scanStep_in_line hframe hline h

end

theorem Skip.not_starts {mode next : Mode} {blanks rest : List Char}
    (h : Skip mode blanks rest.head? next) : ¬Starts mode (blanks ++ rest) := by
  rintro ⟨-, hstart, c, more, heq, hspace, hcomment, hback, hbreak⟩
  cases h with
  | space _ _ hblank =>
    obtain ⟨rfl, -⟩ := List.cons.inj heq
    rw [hspace] at hblank
    cases hblank
  | comment => exact hcomment (List.cons.inj heq).1.symm
  | joined => exact hback (List.cons.inj heq).1.symm
  | lineEnd _ hend =>
    rcases hend with rfl | rfl | ⟨rfl, -⟩
    · obtain ⟨rfl, -⟩ := List.cons.inj heq
      cases hbreak
    · obtain ⟨rfl, -⟩ := List.cons.inj heq
      cases hbreak
    · obtain ⟨rfl, -⟩ := List.cons.inj heq
      cases hbreak
  | lineStart hline =>
    rw [hstart] at hline
    cases hline

theorem Indents.starts {mode next : Mode} {blanks rest : List Char}
    (h : Indents mode blanks rest.head? next) (hframe : mode.textFrame? = none) : Starts next rest := by
  obtain ⟨c, hhead, hspace, hblank⟩ := h.next
  obtain ⟨more, rfl⟩ := List.head?_eq_some_iff.1 hhead
  rw [h.after]
  refine ⟨hframe, rfl, c, more, rfl, hspace, ?_⟩
  simpa [isBlankLine, and_assoc] using hblank

theorem Emits.ne_nil {mode next : Mode} {kind : TokenKind} {text rest : List Char}
    (h : Emits mode kind text rest next) : text ≠ [] := by
  cases h with
  | formatText _ hne => exact hne
  | @formatEnd frame =>
    rw [Frame.closing]
    split <;> exact List.cons_ne_nil _ _
  | fieldStart => exact List.cons_ne_nil _ _
  | specEnd => exact List.cons_ne_nil _ _
  | newline _ _ hend => rcases hend with rfl | rfl | ⟨rfl, -⟩ <;> exact List.cons_ne_nil _ _
  | lexeme _ hlexeme => exact lexemeAt_ne_nil hlexeme

/-! ### The whole text -/

/-- An indentation is made of blanks, and what stands behind it starts with something else. -/
def Lexeme.Indented (lexeme : Lexeme) : Prop :=
  ∀ blanks, lexeme.indentation = some blanks → (∀ c ∈ blanks, isSpace c = true)
    ∧ ∃ c rest, lexeme.text = c :: rest ∧ isSpace c = false

/-- The lexemes hold what has been read and all that is left. Once an indentation has been read, a token
starts. -/
theorem written_scan {fuel : Nat} {mode : Mode} {before : List Char} {indentation : Option (List Char)}
    {lexemes : List Lexeme} (hready : ∀ blanks, indentation = some blanks →
      (∀ c ∈ blanks, isSpace c = true) ∧ Starts mode chars)
    (h : scan fuel mode before indentation chars = .ok lexemes) :
    lexemes.flatMap Lexeme.written = before ++ indentation.getD [] ++ chars
      ∧ ∀ lexeme ∈ lexemes, lexeme.Indented := by
  induction fuel generalizing mode before indentation chars lexemes with
  | zero =>
    rw [scan] at h
    cases h
  | succ fuel ih =>
    cases scanStep h with
    | token kind text rest next others hemits hscan hlexemes =>
      obtain ⟨hwritten, hindented⟩ := ih (fun _ hnone => by cases hnone) hscan
      subst hlexemes
      refine ⟨by simp [Lexeme.written, hwritten], ?_⟩
      rw [List.forall_mem_cons]
      refine ⟨fun blanks hblanks => ?_, hindented⟩
      obtain ⟨hspaces, hstarts⟩ := hready blanks hblanks
      refine ⟨hspaces, ?_⟩
      obtain ⟨-, -, c, more, heq, hspace, -⟩ := id hstarts
      cases text with
      | nil => exact absurd rfl hemits.ne_nil
      | cons d text => exact ⟨d, text, rfl, (List.cons.inj heq).1 ▸ hspace⟩
    | skip blanks rest next _ hskip hscan =>
      have hnone : indentation = none := by
        cases indentation with
        | none => rfl
        | some blanks => exact absurd (hready blanks rfl).2 hskip.not_starts
      subst hnone
      obtain ⟨hwritten, hindented⟩ := ih (fun _ hnone => by cases hnone) hscan
      exact ⟨by simp [hwritten], hindented⟩
    | line blanks rest next hframe hindents hscan =>
      have hnone : indentation = none := by
        cases indentation with
        | none => rfl
        | some blanks =>
          obtain ⟨-, hline, -⟩ := (hready blanks rfl).2
          rw [hindents.line] at hline
          cases hline
      subst hnone
      have hlater : ∀ others, some blanks = some others →
          (∀ c ∈ others, isSpace c = true) ∧ Starts next rest := by
        rintro others heq
        cases heq
        exact ⟨hindents.blanks, hindents.starts hframe⟩
      obtain ⟨hwritten, hindented⟩ := ih hlater hscan
      exact ⟨by simp [hwritten], hindented⟩
    | finish _ _ hlexemes =>
      have hnone : indentation = none := by
        cases indentation with
        | none => rfl
        | some blanks =>
          obtain ⟨-, -, -, c, more, heq, -⟩ := hready blanks rfl
          cases heq
      subst hnone hlexemes
      unfold lastLexemes
      split
      · exact ⟨by simp [Lexeme.written], by simp [Lexeme.Indented]⟩
      · exact ⟨by simp [Lexeme.written], by simp [Lexeme.Indented]⟩

theorem written_lexemes {lexemes : List Lexeme} (h : Source.lexemes chars = .ok lexemes) :
    lexemes.flatMap Lexeme.written = chars ∧ ∀ lexeme ∈ lexemes, lexeme.Indented :=
  written_scan (fun _ hnone => by cases hnone) h

end Bundler.Source
