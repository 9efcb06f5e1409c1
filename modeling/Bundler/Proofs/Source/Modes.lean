import Bundler.Proofs.Source.Reach
import Bundler.Proofs.Source.Scanning

/-!
# How a token changes the mode

What the lexer remembers changes only a little with one token. A name and a string leave it as it is, and
only a line break lets a line start. Two facts hold of every mode that the lexer comes to
(`Mode.Sound`): a formatted string is between quotes, and no line starts within its text.
-/

namespace Bundler.Source

variable {mode next : Mode} {kind : TokenKind} {text rest : List Char}

/-! ### Frames -/

/-- Every formatted string that is being read is quoted. -/
def Mode.Quoted (mode : Mode) : Prop := ∀ frame ∈ mode.frames, frame.quote = '"' ∨ frame.quote = '\''

theorem Mode.Quoted.onFrame (h : mode.Quoted) {change : Frame → Frame}
    (hchange : ∀ frame, (change frame).quote = frame.quote) : (mode.onFrame change).Quoted := by
  intro frame hframe
  have hmem : frame ∈ mode.frames.modifyHead change := hframe
  cases hframes : mode.frames with
  | nil => simp [hframes] at hmem
  | cons first others =>
    rw [hframes, List.modifyHead_cons, List.mem_cons] at hmem
    rcases hmem with rfl | hmem
    · rw [hchange]
      exact h first (hframes ▸ List.mem_cons_self)
    · exact h frame (hframes ▸ List.mem_cons_of_mem _ hmem)

theorem afterOperator_eq_some {after : Mode} (h : mode.afterOperator text = some after) :
    after.lineStart = mode.lineStart ∧ after.closed = mode.closed ∧ (mode.Quoted → after.Quoted) := by
  unfold Mode.afterOperator at h
  split at h
  · cases h
    exact ⟨rfl, rfl, fun hquoted => hquoted.onFrame fun _ => rfl⟩
  · split at h
    · split at h
      · split at h
        · split at h
          · cases h
            exact ⟨rfl, rfl, fun hquoted => hquoted.onFrame fun _ => rfl⟩
          · cases h
        · cases h
      · split at h
        · cases h
          exact ⟨rfl, rfl, fun hquoted => hquoted.onFrame fun _ => rfl⟩
        · cases h
          exact ⟨rfl, rfl, id⟩
    · cases h
      exact ⟨rfl, rfl, id⟩

/-! ### One token -/

/-- What one token of the language, outside the text of formatted strings, does to the mode. -/
inductive Lexes (mode : Mode) : TokenKind → List Char → Mode → Prop
  | formatStart (letters quotes : List Char) (frame : Frame)
      (hquote : frame.quote = '"' ∨ frame.quote = '\'') :
    Lexes mode .formatStart (letters ++ quotes) { mode with frames := frame :: mode.frames }
  | string (text : List Char) : Lexes mode .string text mode
  | name (text : List Char) : Lexes mode .name text mode
  | number (text : List Char) : Lexes mode .number text mode
  | operator {text : List Char} {after : Mode} (hafter : mode.afterOperator text = some after) :
    Lexes mode .operator text after

theorem lexes_of_lexemeAt {chars : List Char} (h : lexemeAt mode chars = .ok (kind, text, rest, next)) :
    Lexes mode kind text next := by
  unfold lexemeAt at h
  split at h
  next letters quoted hopens =>
    obtain ⟨quote, more, rfl, hquote⟩ := exists_quote_of_stringPrefix? hopens
    have hhead : (openingQuotes (quote :: more)).1.headD '"' = quote := by
      rw [openingQuotes]
      split <;> rfl
    simp only at h
    split at h
    · cases h
      refine .formatStart _ _ _ ?_
      show (openingQuotes (quote :: more)).1.headD '"' = '"' ∨ _
      rw [hhead]
      exact hquote
    · split at h
      · cases h
        exact .string _
      · cases h
  · split at h
    · cases h
    · split at h
      · simp only at h
        split at h
        · cases h
          exact .name _
        · cases h
      · split at h
        · split at h
          · cases h
            exact .number _
          · cases h
        · split at h
          · split at h
            next hafter =>
              cases h
              exact .operator hafter
            · cases h
          · cases h

theorem Lexes.lineStart (h : Lexes mode kind text next) : next.lineStart = mode.lineStart := by
  cases h with
  | operator hafter => exact (afterOperator_eq_some hafter).1
  | _ => rfl

theorem Lexes.quoted (h : Lexes mode kind text next) (hquoted : mode.Quoted) : next.Quoted := by
  cases h with
  | operator hafter => exact (afterOperator_eq_some hafter).2.2 hquoted
  | formatStart _ _ _ hquote => exact List.forall_mem_cons.2 ⟨hquote, hquoted⟩
  | _ => exact hquoted

theorem lexemeAt_opening (mode : Mode) (rest : List Char) :
    lexemeAt mode ('(' :: rest) = .ok (.operator, ['('], rest,
      { mode.onFrame Frame.openBracket with closers := ')' :: mode.closers }) := by
  have hopens : stringPrefix? ('(' :: rest) = none := by
    rw [stringPrefix?_of_head (by decide)]
    rfl
  have hfield : fieldOperator? mode ('(' :: rest) = none := by
    unfold fieldOperator?
    split <;> simp_all
  have hoperator : operator? ('(' :: rest) = some (['('], rest) := rfl
  unfold lexemeAt
  rw [hopens]
  simp only
  rw [if_neg (by decide), if_neg (by simp [Char.isDigit]), hfield, hoperator]
  rfl

/-! ### What stands before a token -/

theorem textFrame?_congr {after : Mode} (h : after.frames = mode.frames) :
    after.textFrame? = mode.textFrame? := by
  rw [Mode.textFrame?, Mode.textFrame?, h]

theorem Skip.frames {blanks : List Char} {head : Option Char} (h : Skip mode blanks head next) :
    next.frames = mode.frames := by
  cases h <;> rfl

theorem Leads.frames {before : List Char} {head : Option Char} (h : Leads mode before head next) :
    next.frames = mode.frames := by
  induction h with
  | nil => rfl
  | cons _ hskip _ ih => rw [ih, hskip.frames]

theorem Ready.frames {indentation : Option (List Char)} {head : Option Char}
    (h : Ready mode indentation head next) : next.frames = mode.frames := by
  cases h with
  | none => rfl
  | some _ hindents => rw [hindents.after]

/-- Within the text of a formatted string nothing is skipped. -/
theorem Leads.of_text {before : List Char} {head : Option Char} (h : Leads mode before head next)
    (hframe : mode.textFrame? ≠ none) : before = [] ∧ next = mode := by
  cases h with
  | nil => exact ⟨rfl, rfl⟩
  | cons hnone => exact absurd hnone hframe

theorem Ready.of_text {indentation : Option (List Char)} {head : Option Char}
    (h : Ready mode indentation head next) (hframe : mode.textFrame? ≠ .none) :
    indentation = .none ∧ next = mode := by
  cases h with
  | none => exact ⟨rfl, rfl⟩
  | some hnone => exact absurd hnone hframe

/-- A token may start with the character, or a line that is not blank. -/
def IsFirm (c : Char) : Prop := isSpace c = false ∧ isBlankLine (some c) = false

instance (c : Char) : Decidable (IsFirm c) := inferInstanceAs (Decidable (_ ∧ _))

theorem isFirm_iff {c : Char} : IsFirm c ↔
    isSpace c = false ∧ c ≠ '#' ∧ c ≠ '\\' ∧ isLineBreak c = false := by
  simp [IsFirm, isBlankLine, and_assoc]

theorem isFirm_of_isNamePart {c : Char} (h : isNamePart c = true) : IsFirm c := by
  have hnot : ∀ d, isNamePart d = false → c ≠ d := by
    rintro d hd rfl
    rw [hd] at h
    cases h
  rw [isFirm_iff, isSpace, isLineBreak]
  simp [hnot _ (show isNamePart ' ' = false by decide), hnot _ (show isNamePart '\t' = false by decide),
    hnot _ (show isNamePart '\x0c' = false by decide), hnot _ (show isNamePart '#' = false by decide),
    hnot _ (show isNamePart '\\' = false by decide), hnot _ (show isNamePart '\n' = false by decide),
    hnot _ (show isNamePart '\r' = false by decide)]

theorem starts_iff {chars : List Char} : Starts mode chars ↔
    mode.textFrame? = none ∧ mode.lineStart = false ∧ ∃ c, chars.head? = some c ∧ IsFirm c := by
  simp only [Starts, isFirm_iff, List.head?_eq_some_iff]
  grind

/-- The first character that is skipped within a line is no part of a token. -/
theorem Skip.head {blanks : List Char} {head : Option Char} (h : Skip mode blanks head next)
    (hline : mode.lineStart = false) : ∃ c more, blanks = c :: more ∧ ¬IsFirm c := by
  cases h with
  | space _ _ hspace => exact ⟨_, [], rfl, fun hfirm => by simp [hfirm.1] at hspace⟩
  | comment => exact ⟨'#', _, rfl, by decide⟩
  | joined => exact ⟨'\\', _, rfl, by decide⟩
  | lineEnd _ hbreak =>
    rcases hbreak with rfl | rfl | ⟨rfl, -⟩
    · exact ⟨'\r', _, rfl, by decide⟩
    · exact ⟨'\n', _, rfl, by decide⟩
    · exact ⟨'\r', _, rfl, by decide⟩
  | lineStart hstart =>
    rw [hline] at hstart
    cases hstart

theorem Leads.head {before : List Char} {head : Option Char} (h : Leads mode before head next)
    (hline : mode.lineStart = false) :
    before = [] ∧ next = mode ∨ ∃ c more, before = c :: more ∧ ¬IsFirm c := by
  cases h with
  | nil => exact .inl ⟨rfl, rfl⟩
  | cons _ hskip =>
    obtain ⟨c, more, rfl, hc⟩ := hskip.head hline
    exact .inr ⟨c, _, rfl, hc⟩

/-- Between two lines there is a line break. -/
theorem Leads.mem_of_lineStart {before : List Char} {head : Option Char}
    (h : Leads mode before head next) (hline : mode.lineStart = false) (hnext : next.lineStart = true) :
    ∃ c ∈ before, isLineBreak c = true := by
  induction h with
  | nil =>
    rw [hline] at hnext
    cases hnext
  | @cons mode middle after blanks more _ _ hskip _ ih =>
    cases hskip with
    | lineEnd _ hbreak =>
      refine ⟨blanks.headD ' ', List.mem_append_left _ ?_, ?_⟩
      · rcases hbreak with rfl | rfl | ⟨rfl, -⟩ <;> exact List.mem_cons_self
      · rcases hbreak with rfl | rfl | ⟨rfl, -⟩ <;> rfl
    | lineStart hstart =>
      rw [hline] at hstart
      cases hstart
    | _ =>
      obtain ⟨c, hc, hcbreak⟩ := ih hline hnext
      exact ⟨c, List.mem_append_right _ hc, hcbreak⟩

theorem Skip.congr {blanks : List Char} {c d : Char} (h : Skip mode blanks (some c) next) (hc : IsFirm c)
    (hd : IsFirm d) : Skip mode blanks (some d) next := by
  have hbreak : ∀ lineEnd, IsBreak lineEnd (some c) → IsBreak lineEnd (some d) := by
    rintro lineEnd (rfl | rfl | ⟨rfl, -⟩)
    · exact .inl rfl
    · exact .inr (.inl rfl)
    · refine .inr (.inr ⟨rfl, ?_⟩)
      rintro heq
      cases heq
      exact absurd hd (by decide)
  cases h with
  | space _ hline hspace => exact .space _ hline hspace
  | comment _ _ hnext =>
    have hline := hnext c rfl
    rw [(isFirm_iff.1 hc).2.2.2] at hline
    cases hline
  | joined hline hend => exact .joined hline (hbreak _ hend) (by simp)
  | lineEnd hline hend hblank => exact .lineEnd hline (hbreak _ hend) hblank
  | lineStart hline hblanks _ hblank =>
    have hsame : isBlankLine (some c) = isBlankLine (some d) := hc.2.trans hd.2.symm
    rw [hsame] at hblank ⊢
    refine .lineStart hline hblanks ?_ hblank
    rintro _ ⟨⟩
    exact hd.1

/-- Behind the last line break there is nothing left to skip. -/
theorem Leads.eq_of_nil {head : Option Char} (h : Leads mode [] head next)
    (hline : next.lineStart = true) : next = mode := by
  generalize hbefore : ([] : List Char) = before at h
  cases h with
  | nil => rfl
  | @cons _ middle _ blanks more _ _ hskip hmore =>
    obtain ⟨rfl, rfl⟩ := List.append_eq_nil_iff.1 hbefore.symm
    cases hstart : mode.lineStart with
    | false =>
      obtain ⟨c, more, heq, -⟩ := hskip.head hstart
      cases heq
    | true =>
      have hmiddle : middle.lineStart = false := by
        cases hskip with
        | lineStart => rfl
        | lineEnd hfalse => cases hstart.symm.trans hfalse
      rcases hmore.head hmiddle with ⟨-, rfl⟩ | ⟨c, more, heq, -⟩
      · rw [hmiddle] at hline
        cases hline
      · cases heq

/-- What is skipped before a token depends neither on the first character of the token nor on the
indentation of its line. -/
theorem Leads.congr {before : List Char} {head other : Option Char} (h : Leads mode before head next)
    (hother : other = head ∨ (∃ c d, head = some c ∧ other = some d ∧ IsFirm c ∧ IsFirm d)
      ∨ next.lineStart = true ∧ other ≠ some '\n') : Leads mode before other next := by
  induction h with
  | nil => exact .nil _ _
  | @cons mode middle after blanks more head hframe hskip hmore ih =>
    refine .cons hframe ?_ (ih hother)
    cases more with
    | cons => exact hskip
    | nil =>
      rw [List.head?_nil, Option.none_or] at hskip ⊢
      rcases hother with rfl | ⟨c, d, rfl, rfl, hc, hd⟩ | ⟨hline, hne⟩
      · exact hskip
      · exact hskip.congr hc hd
      · obtain rfl := hmore.eq_of_nil hline
        cases hskip with
        | lineEnd hfalse hend hblank =>
          refine .lineEnd hfalse ?_ hblank
          rcases hend with rfl | rfl | ⟨rfl, -⟩
          · exact .inl rfl
          · exact .inr (.inl rfl)
          · exact .inr (.inr ⟨rfl, hne⟩)
        | lineStart => cases hline
        | space _ hfalse => cases hline.symm.trans hfalse
        | comment hfalse => cases hline.symm.trans hfalse
        | joined hfalse => cases hline.symm.trans hfalse

/-! ### Modes that the lexer comes to -/

/-- What holds of every mode that the lexer comes to. -/
structure Mode.Sound (mode : Mode) : Prop where
  quoted : mode.Quoted
  line : mode.textFrame? ≠ none → mode.lineStart = false

theorem Leads.sound {before : List Char} {head : Option Char} (h : Leads mode before head next)
    (hsound : mode.Sound) : next.Sound where
  quoted := by
    rw [Mode.Quoted, h.frames]
    exact hsound.quoted
  line hframe := by
    rw [textFrame?_congr h.frames] at hframe
    rw [(h.of_text hframe).2]
    exact hsound.line hframe

theorem Ready.sound {indentation : Option (List Char)} {head : Option Char}
    (h : Ready mode indentation head next) (hsound : mode.Sound) : next.Sound where
  quoted := by
    rw [Mode.Quoted, h.frames]
    exact hsound.quoted
  line hframe := by
    rw [textFrame?_congr h.frames] at hframe
    obtain ⟨-, rfl⟩ := h.of_text hframe
    exact hsound.line hframe

/-- Only a line break lets a line start. -/
theorem Emits.lineStart (h : Emits mode kind text rest next) (hsound : mode.Sound) :
    (∃ c ∈ text, isLineBreak c = true) ∨ next.lineStart = false := by
  cases h with
  | formatText hframe => exact .inr (hsound.line (by simp [hframe]))
  | formatEnd hframe => exact .inr (hsound.line (by simp [hframe]))
  | fieldStart hframe => exact .inr (hsound.line (by simp [hframe]))
  | specEnd hframe => exact .inr (hsound.line (by simp [hframe]))
  | newline _ _ hbreak =>
    refine .inl ⟨text.headD ' ', ?_, ?_⟩
    · rcases hbreak with rfl | rfl | ⟨rfl, -⟩ <;> exact List.mem_cons_self
    · rcases hbreak with rfl | rfl | ⟨rfl, -⟩ <;> rfl
  | lexeme hstarts hlexeme =>
    refine .inr ?_
    rw [(lexes_of_lexemeAt hlexeme).lineStart]
    exact hstarts.2.1

theorem Emits.sound (h : Emits mode kind text rest next) (hsound : mode.Sound) : next.Sound where
  quoted := by
    cases h with
    | formatText => exact hsound.quoted
    | formatEnd => exact fun frame hframe => hsound.quoted frame (List.mem_of_mem_tail hframe)
    | fieldStart => exact hsound.quoted.onFrame fun _ => rfl
    | specEnd => exact hsound.quoted.onFrame fun _ => rfl
    | newline => exact hsound.quoted
    | lexeme _ hlexeme => exact (lexes_of_lexemeAt hlexeme).quoted hsound.quoted
  line hframe := by
    cases h with
    | newline hnone => exact absurd hnone hframe
    | lexeme hstarts hlexeme =>
      rw [(lexes_of_lexemeAt hlexeme).lineStart]
      exact hstarts.2.1
    | formatText hsome => exact hsound.line (by simp [hsome])
    | formatEnd hsome => exact hsound.line (by simp [hsome])
    | fieldStart hsome => exact hsound.line (by simp [hsome])
    | specEnd hsome => exact hsound.line (by simp [hsome])

end Bundler.Source
