import Bundler.Proofs.Source.Gaps

/-!
# Lines that start with a backslash

The lexer takes a line that starts with a backslash for a blank one, though more of a statement may follow in
it, and the line break behind it for nothing. In a text without such lines (`unjoined`) no token stands in a
line that counts as blank (`Mode.Steady.token`).
-/

namespace Bundler.Source

variable {mode next : Mode} {others : List Lexeme} {chars rest : List Char}

/-! ### The texts -/

/-- No line of the text starts with a backslash. The first argument says whether the text begins a line. -/
def unjoined : Bool → List Char → Bool
  | _, [] => true
  | fresh, c :: rest => !(fresh && c == '\\') && unjoined (isLineBreak c || fresh && isSpace c) rest

/-- The text that is left has no line that starts with a backslash, and the line does not count as blank. -/
structure Mode.Steady (mode : Mode) (chars : List Char) : Prop where
  unjoined : unjoined mode.lineStart chars = true
  blank : mode.lineStart = true ∨ mode.blank = false

theorem unjoined_false (h : unjoined true chars = true) : unjoined false chars = true := by
  induction chars with
  | nil => rfl
  | cons c rest ih =>
    simp only [unjoined, Bool.and_eq_true, Bool.true_and, Bool.false_and, Bool.or_false, Bool.not_false]
      at h ⊢
    cases hbreak : isLineBreak c with
    | true => simpa [hbreak] using h.2
    | false =>
      cases hspace : isSpace c with
      | true => exact ih (by simpa [hbreak, hspace] using h.2)
      | false => simpa [hbreak, hspace] using h.2

theorem unjoined_of_any {fresh : Bool} (h : unjoined fresh chars = true) : unjoined false chars = true := by
  cases fresh with
  | false => exact h
  | true => exact unjoined_false h

/-- A line begins behind the text, or it has only blanks in it so far. -/
def freshBehind (fresh : Bool) (text : List Char) : Bool :=
  text.foldl (fun fresh c => isLineBreak c || fresh && isSpace c) fresh

theorem unjoined_append_eq (fresh : Bool) (left rest : List Char) :
    unjoined fresh (left ++ rest) = (unjoined fresh left && unjoined (freshBehind fresh left) rest) := by
  induction left generalizing fresh with
  | nil => rfl
  | cons c left ih =>
    rw [List.cons_append, unjoined, unjoined, ih, Bool.and_assoc, freshBehind, freshBehind, List.foldl_cons]

theorem unjoined_word {word : List Char} (fresh : Bool) (hfirm : ∃ c, word.head? = some c ∧ IsFirm c)
    (hline : ∀ c ∈ word, isLineBreak c = false) (rest : List Char) :
    unjoined fresh (word ++ rest) = unjoined false rest := by
  have hwithin : ∀ run : List Char, (∀ c ∈ run, isLineBreak c = false) →
      unjoined false (run ++ rest) = unjoined false rest := by
    intro run hrun
    induction run with
    | nil => rfl
    | cons c run ih =>
      rw [List.forall_mem_cons] at hrun
      rw [List.cons_append, unjoined, hrun.1]
      exact ih hrun.2
  obtain ⟨c, hhead, hc⟩ := hfirm
  obtain ⟨run, rfl⟩ := List.head?_eq_some_iff.1 hhead
  obtain ⟨hspace, -, hback, hbreak⟩ := isFirm_iff.1 hc
  rw [List.forall_mem_cons] at hline
  rw [List.cons_append, unjoined, hspace, hbreak, beq_eq_false_iff_ne.2 hback]
  simpa using hwithin run hline.2

theorem unjoined_append {fresh : Bool} {left : List Char} (h : unjoined fresh (left ++ rest) = true) :
    unjoined false rest = true := by
  induction left generalizing fresh with
  | nil => exact unjoined_of_any h
  | cons c left ih =>
    rw [List.cons_append, unjoined, Bool.and_eq_true] at h
    exact ih h.2

theorem unjoined_spaces {blanks : List Char} (hblanks : ∀ c ∈ blanks, isSpace c = true)
    (h : unjoined true (blanks ++ rest) = true) : unjoined true rest = true := by
  induction blanks with
  | nil => exact h
  | cons c blanks ih =>
    rw [List.forall_mem_cons] at hblanks
    rw [List.cons_append, unjoined, Bool.and_eq_true, hblanks.1, Bool.and_self, Bool.or_true] at h
    exact ih hblanks.2 h.2

theorem unjoined_lineEnd {fresh : Bool} {lineEnd : List Char} {head : Option Char}
    (hbreak : IsBreak lineEnd head) (h : unjoined fresh (lineEnd ++ rest) = true) :
    unjoined true rest = true := by
  rcases hbreak with rfl | rfl | ⟨rfl, -⟩ <;> simpa [unjoined, isLineBreak] using h

theorem head?_ne_of_unjoined (h : unjoined true chars = true) : chars.head? ≠ some '\\' := by
  rintro hhead
  obtain ⟨rest, rfl⟩ := List.head?_eq_some_iff.1 hhead
  simp [unjoined] at h

/-! ### Lines that count as blank -/

theorem Skip.keeps {blanks : List Char} {head : Option Char} (h : Skip mode blanks head next) :
    ∃ line blank, next = { mode with lineStart := line, blank := blank } := by
  cases h <;> exact ⟨_, _, rfl⟩

theorem Leads.keeps {before : List Char} {head : Option Char} (h : Leads mode before head next) :
    ∃ line blank, next = { mode with lineStart := line, blank := blank } := by
  induction h with
  | nil => exact ⟨_, _, rfl⟩
  | cons _ hskip _ ih =>
    obtain ⟨_, _, rfl⟩ := hskip.keeps
    obtain ⟨line, blank, rfl⟩ := ih
    exact ⟨line, blank, rfl⟩

theorem Leads.eq_of_line {before : List Char} {head : Option Char} (h : Leads mode before head next)
    (hline : mode.lineStart = false) (hbefore : ∀ c ∈ before, isLineBreak c = false) : next = mode := by
  induction h with
  | nil => rfl
  | cons _ hskip _ ih =>
    rw [List.forall_mem_append] at hbefore
    cases hskip with
    | space => exact ih hline hbefore.2
    | comment => exact ih hline hbefore.2
    | joined => exact ih hline hbefore.2
    | lineEnd _ hbreak =>
      rcases hbreak with rfl | rfl | ⟨rfl, -⟩ <;> simp [isLineBreak] at hbefore
    | lineStart hstart => cases hline.symm.trans hstart

/-- Such a text stays one where a token, or a line, may begin. -/
theorem Leads.steady {before : List Char} (h : Leads mode before rest.head? next)
    (hend : next.lineStart = true ∨ next.blank = false ∨ ∃ c, rest.head? = some c ∧ IsFirm c)
    (hsteady : mode.Steady (before ++ rest)) : next.Steady rest := by
  obtain ⟨hunjoined, hsteady⟩ := hsteady
  -- A line that counts as blank goes on with a comment, or it ends.
  have hblank : mode.lineStart = true ∨ mode.blank = false
      ∨ ∀ d, (before ++ rest).head? = some d → d = '#' ∨ isLineBreak d = true :=
    hsteady.imp_right .inl
  clear hsteady
  generalize hhead : rest.head? = head at h
  induction h with
  | nil =>
    refine ⟨hunjoined, ?_⟩
    rcases hend with hline | hfalse | ⟨c, hc, hfirm⟩
    · exact .inl hline
    · exact .inr hfalse
    · refine hblank.imp_right fun hblank => hblank.resolve_right fun hcount => ?_
      obtain ⟨-, hcomment, -, hbreak⟩ := isFirm_iff.1 hfirm
      rcases hcount c hc with rfl | hline
      · exact hcomment rfl
      · rw [hbreak] at hline
        cases hline
  | @cons mode middle _ blanks more _ _ hskip _ ih =>
    subst hhead
    rw [← List.head?_append] at hskip
    rw [List.append_assoc] at hunjoined hblank
    refine ih hend ?_ ?_ rfl
    · cases hskip with
      | space _ hline => exact hline ▸ unjoined_append hunjoined
      | comment hline => exact hline ▸ unjoined_append hunjoined
      | joined hline => exact hline ▸ unjoined_append hunjoined
      | lineEnd _ hbreak => exact unjoined_lineEnd hbreak hunjoined
      | lineStart hline hblanks =>
        rw [hline] at hunjoined
        exact unjoined_false (unjoined_spaces hblanks hunjoined)
    · cases hskip with
      | space _ hline hspace =>
        refine hblank.imp_right (Or.imp_right fun hcount => ?_)
        rcases hcount _ rfl with rfl | hbreak
        · cases hspace
        · rw [isLineBreak, Bool.or_eq_true, beq_iff_eq, beq_iff_eq] at hbreak
          rcases hbreak with rfl | rfl <;> cases hspace
      | comment _ _ hend => exact .inr (.inr fun d hd => .inr (hend d hd))
      | joined hline =>
        refine hblank.imp_right (Or.imp_right fun hcount => ?_)
        rcases hcount _ rfl with hcomment | hbreak
        · cases hcomment
        · cases hbreak
      | lineEnd => exact .inl rfl
      | lineStart hline hblanks =>
        rw [hline] at hunjoined
        have hback := head?_ne_of_unjoined (unjoined_spaces hblanks hunjoined)
        by_cases hcount : isBlankLine (more ++ rest).head? = true
        · refine .inr (.inr fun d hd => ?_)
          rw [hd] at hback hcount
          have hne : d ≠ '\\' := fun heq => hback (congrArg some heq)
          simpa [isBlankLine, hne] using hcount
        · exact .inr (.inl (by simpa using hcount))

theorem afterOperator_keeps {text : List Char} {after : Mode} (h : mode.afterOperator text = some after) :
    after.blank = mode.blank := by
  unfold Mode.afterOperator at h
  grind [Mode.onFrame]

theorem Emits.steady {kind : TokenKind} {text : List Char} (h : Emits mode kind text rest next)
    (hsound : mode.Sound) (hsteady : mode.Steady (text ++ rest)) : next.Steady rest := by
  have hkept : next.lineStart = mode.lineStart → next.blank = mode.blank → mode.lineStart = false →
      next.Steady rest := by
    intro hline hblank hstart
    refine ⟨(hline.trans hstart) ▸ unjoined_append hsteady.unjoined, .inr ?_⟩
    rw [hblank]
    exact hsteady.blank.resolve_left (by simp [hstart])
  cases h with
  | newline _ _ hbreak => exact ⟨unjoined_lineEnd hbreak hsteady.unjoined, .inl rfl⟩
  | lexeme hstarts hlexeme =>
    refine hkept (lexes_of_lexemeAt hlexeme).lineStart ?_ hstarts.2.1
    cases lexes_of_lexemeAt hlexeme with
    | operator hafter => exact afterOperator_keeps hafter
    | _ => rfl
  | formatText hframe => exact hkept rfl rfl (hsound.line (by simp [hframe]))
  | formatEnd hframe => exact hkept rfl rfl (hsound.line (by simp [hframe]))
  | fieldStart hframe => exact hkept rfl rfl (hsound.line (by simp [hframe]))
  | specEnd hframe => exact hkept rfl rfl (hsound.line (by simp [hframe]))

theorem Mode.Steady.token {lexeme : Lexeme} {middle ready : Mode}
    (hsteady : mode.Steady ((lexeme :: others).flatMap Lexeme.written)) (hsound : mode.Sound)
    (hleads : Leads mode lexeme.before (lexeme.indentation.getD [] ++ lexeme.text
      ++ others.flatMap Lexeme.written).head? middle)
    (hready : Ready middle lexeme.indentation (lexeme.text ++ others.flatMap Lexeme.written).head? ready)
    (hemits : Emits ready lexeme.kind lexeme.text (others.flatMap Lexeme.written) next) :
    ready.Steady (lexeme.text ++ others.flatMap Lexeme.written)
      ∧ next.Steady (others.flatMap Lexeme.written) := by
  obtain ⟨kind, before, indentation, text⟩ := lexeme
  generalize hrest : others.flatMap Lexeme.written = rest at *
  simp only [List.flatMap_cons, Lexeme.written, hrest, List.append_assoc] at hsteady
  simp only [List.append_assoc] at hleads hready hemits ⊢
  have hmiddle : middle.Steady (indentation.getD [] ++ (text ++ rest)) := by
    refine hleads.steady ?_ hsteady
    cases hready with
    | some _ hindents => exact .inl hindents.line
    | none =>
      cases hframe : middle.textFrame? with
      | some frame =>
        rw [textFrame?_congr hleads.frames] at hframe
        obtain ⟨-, rfl⟩ := hleads.of_text (by simp [hframe])
        exact hsteady.blank.imp_right .inl
      | none =>
        cases hemits with
        | newline _ _ _ hblank => exact .inr (.inl hblank)
        | lexeme hstarts => exact .inr (.inr (starts_iff.1 hstarts).2.2)
        | _ => simp_all
  have hboth : ready.Steady (text ++ rest) := by
    cases hready with
    | none => exact hmiddle
    | some _ hindents =>
      rw [hindents.after]
      exact ⟨unjoined_append hmiddle.unjoined, .inr rfl⟩
  exact ⟨hboth, hemits.steady (hready.sound (hleads.sound hsound)) hboth⟩

/-- Where no line counts as blank, a token behind another one is read in the mode that this one has left. -/
theorem Leads.eq_of_steady {before : List Char} {head : Option Char} (h : Leads mode before head next)
    (hmode : mode.Steady chars) (hnext : next.Steady rest) (hline : mode.lineStart = false)
    (hnextLine : next.lineStart = false) : next = mode := by
  have hblank := hmode.blank.resolve_left (by simp [hline])
  have hnextBlank := hnext.blank.resolve_left (by simp [hnextLine])
  obtain ⟨line, blank, rfl⟩ := h.keeps
  obtain ⟨closers, frames, _, _, closed⟩ := mode
  simp_all

end Bundler.Source
