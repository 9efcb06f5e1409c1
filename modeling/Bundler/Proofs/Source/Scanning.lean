import Bundler.Proofs.Source.Lexemes

/-!
# The lexer without its fuel

`Scans` says of a sequence of lexemes that the lexer, in a given mode, cuts what they say into these
lexemes. It is a fact about the lexemes alone: the text is what they say, one after the other, and the
fuel is gone (`scans_of_scan`, `scan_of_scans`). So a text can be changed lexeme by lexeme.
-/

namespace Bundler.Source

variable {mode next : Mode} {fuel : Nat} {before rest : List Char} {indentation : Option (List Char)}

theorem span_append {p : Char → Bool} {run : List Char} (hrun : ∀ c ∈ run, p c = true)
    (hrest : ∀ c, rest.head? = some c → p c = false) : (run ++ rest).span p = (run, rest) := by
  have htake : rest.takeWhile p = [] := by
    cases rest with
    | nil => rfl
    | cons c more => rw [List.takeWhile_cons_of_neg (by simp [hrest c rfl])]
  have hdrop : rest.dropWhile p = rest := by
    cases rest with
    | nil => rfl
    | cons c more => rw [List.dropWhile_cons_of_neg (by simp [hrest c rfl])]
  rw [List.span_eq_takeWhile_dropWhile, List.takeWhile_append_of_pos hrun,
    List.dropWhile_append_of_pos hrun, htake, hdrop, List.append_nil]

/-! ### Steps as equations -/

theorem scan_of_skip {blanks : List Char} (hframe : mode.textFrame? = none)
    (h : Skip mode blanks rest.head? next) :
    scan (fuel + 1) mode before indentation (blanks ++ rest)
      = scan fuel next (before ++ blanks) indentation rest := by
  rw [scan.eq_def]
  simp only [hframe]
  cases h with
  | space _ hline hspace => simp [hline, hspace]
  | @comment run _ hline hrun hnext =>
    have hspan : ('#' :: run ++ rest).span (fun c => !isLineBreak c) = ('#' :: run, rest) := by
      refine span_append ?_ fun c hc => by simp [hnext c hc]
      rw [List.forall_mem_cons]
      exact ⟨rfl, fun c hc => by simp [hrun c hc]⟩
    rw [List.cons_append] at hspan ⊢
    simp only [hline, Bool.false_eq_true, if_false, show isSpace '#' = false from rfl, if_true, hspan]
  | @joined lineEnd _ hline hbreak hnext =>
    have hspan : lineBreak? (lineEnd ++ rest) = some (lineEnd, rest) :=
      lineBreak?_eq_some_iff.2 ⟨rfl, hbreak⟩
    cases rest with
    | nil => exact absurd rfl hnext
    | cons c more =>
      rw [List.cons_append]
      simp [hline, hspan, isSpace]
  | @lineEnd lineEnd _ hline hbreak hblank =>
    have hspan : lineBreak? (blanks ++ rest) = some (blanks, rest) :=
      lineBreak?_eq_some_iff.2 ⟨rfl, hbreak⟩
    have hstart : ∃ c more, blanks ++ rest = c :: more ∧ isSpace c = false ∧ c ≠ '#' ∧ c ≠ '\\' := by
      rcases hbreak with rfl | rfl | ⟨rfl, -⟩ <;> exact ⟨_, _, rfl, by decide⟩
    obtain ⟨c, more, heq, hspace, hcomment, hback⟩ := hstart
    rw [heq] at hspan ⊢
    have hskip : (mode.blank || mode.closers != []) = true := by
      rw [Bool.or_eq_true, bne_iff_ne]
      exact hblank
    simp only [hline, hspace, hcomment, hback, hspan, hskip, Bool.false_eq_true, if_false, if_true]
  | lineStart hline hblanks hnext hblank =>
    rw [span_append hblanks hnext]
    simp only [hline, if_true]
    cases rest with
    | nil => simp [isBlankLine]
    | cons c more =>
      have hskip : (isBlankLine (some c) || mode.closers != []) = true := by
        rw [Bool.or_eq_true, bne_iff_ne]
        exact hblank
      rw [isBlankLine] at hskip
      simp only [hskip, if_true]
      rfl

theorem scan_of_indents {blanks : List Char} (hframe : mode.textFrame? = none)
    (h : Indents mode blanks rest.head? next) :
    scan (fuel + 1) mode before indentation (blanks ++ rest)
      = scan fuel next before (some blanks) rest := by
  obtain ⟨hline, hclosers, hblanks, ⟨c, hhead, hspace, hblank⟩, rfl⟩ := h
  obtain ⟨more, rfl⟩ := List.head?_eq_some_iff.1 hhead
  have hplain : (c == '#' || c == '\\' || isLineBreak c) = false := hblank
  have hspan : (blanks ++ c :: more).span isSpace = (blanks, c :: more) := by
    refine span_append hblanks ?_
    rintro d ⟨⟩
    exact hspace
  rw [scan.eq_def]
  simp only [hframe, hline, if_true, hspan]
  simp [hplain, hclosers]

theorem scan_of_emits {kind : TokenKind} {text : List Char} (h : Emits mode kind text rest next) :
    scan (fuel + 1) mode before indentation (text ++ rest)
      = (do return ⟨kind, before, indentation, text⟩ :: (← scan fuel next [] none rest)) := by
  rw [scan.eq_def]
  cases h with
  | formatText hframe hne hrun =>
    cases text with
    | nil => exact absurd rfl hne
    | cons c run => simp only [hframe, hrun]
  | @formatEnd frame _ hframe hrun =>
    have hclosing : frame.closing.isPrefixOf (frame.closing ++ rest) = true := by simp
    simp only [hframe, hrun, hclosing, if_true, List.drop_left]
  | fieldStart hframe hrun hclosing =>
    simp only [List.singleton_append, hframe, hrun, hclosing, Bool.false_eq_true, if_false]
  | specEnd hframe hrun hclosing hspec hcloser =>
    simp only [List.singleton_append, hframe, hrun, hclosing, Bool.false_eq_true, if_false, hspec,
      hcloser, and_self, if_true]
  | newline hframe hline hbreak hblank hclosers =>
    have hspan : lineBreak? (text ++ rest) = some (text, rest) :=
      lineBreak?_eq_some_iff.2 ⟨rfl, hbreak⟩
    have hstart : ∃ c more, text ++ rest = c :: more ∧ isSpace c = false ∧ c ≠ '#' ∧ c ≠ '\\' := by
      rcases hbreak with rfl | rfl | ⟨rfl, -⟩ <;> exact ⟨_, _, rfl, by decide⟩
    obtain ⟨c, more, heq, hspace, hcomment, hback⟩ := hstart
    rw [heq] at hspan ⊢
    simp [hframe, hline, hspace, hcomment, hback, hspan, hblank, hclosers]
  | lexeme hstarts hlexeme =>
    obtain ⟨hframe, hline, c, more, heq, hspace, hcomment, hback, hbreak⟩ := hstarts
    rw [heq] at hlexeme ⊢
    have hspan : lineBreak? (c :: more) = none := lineBreak?_cons_eq_none_iff.2 hbreak
    simp only [hframe, hline, hspace, hcomment, hback, hspan, hlexeme, Bool.false_eq_true, if_false]
    rfl

theorem scan_finish (hframe : mode.textFrame? = none) (hline : mode.lineStart = false) :
    scan (fuel + 1) mode before indentation [] = .ok (lastLexemes mode before indentation) := by
  rw [scan.eq_def, lastLexemes]
  simp only [hframe, hline, Bool.false_eq_true, if_false]
  split <;> rfl

/-! ### Lexeme by lexeme -/

/-- What stands before a token is skipped; the character after it is given. -/
inductive Leads : Mode → List Char → Option Char → Mode → Prop
  | nil (mode : Mode) (next : Option Char) : Leads mode [] next mode
  | cons {mode middle after : Mode} {blanks more : List Char} {next : Option Char}
      (hframe : mode.textFrame? = none) (hskip : Skip mode blanks (more.head?.or next) middle)
      (hmore : Leads middle more next after) : Leads mode (blanks ++ more) next after

/-- The indentation of a token is read, if it has one. -/
inductive Ready (mode : Mode) : Option (List Char) → Option Char → Mode → Prop
  | none (next : Option Char) : Ready mode .none next mode
  | some {blanks : List Char} {next : Option Char} {after : Mode} (hframe : mode.textFrame? = .none)
      (hindents : Indents mode blanks next after) : Ready mode (.some blanks) next after

/-- The lexer cuts what the lexemes say into these lexemes. -/
inductive Scans : Mode → List Lexeme → Prop
  | token {mode middle ready next : Mode} {lexeme : Lexeme} {others : List Lexeme}
      (hleads : Leads mode lexeme.before (lexeme.indentation.getD [] ++ lexeme.text
        ++ others.flatMap Lexeme.written).head? middle)
      (hready : Ready middle lexeme.indentation
        (lexeme.text ++ others.flatMap Lexeme.written).head? ready)
      (hemits : Emits ready lexeme.kind lexeme.text (others.flatMap Lexeme.written) next)
      (hrest : Scans next others) : Scans mode (lexeme :: others)
  | finish {mode last : Mode} {before : List Char} (hleads : Leads mode before none last)
      (hframe : last.textFrame? = none) (hline : last.lineStart = false) :
    Scans mode (lastLexemes last before none)

/-- The lexemes with more in front of the first. -/
def withBefore (before : List Char) : List Lexeme → List Lexeme
  | [] => []
  | lexeme :: rest => { lexeme with before := before ++ lexeme.before } :: rest

@[simp] theorem withBefore_nil (lexemes : List Lexeme) : withBefore [] lexemes = lexemes := by
  cases lexemes <;> rfl

theorem withBefore_lastLexemes (before more : List Char) (mode : Mode) :
    withBefore before (lastLexemes mode more none) = lastLexemes mode (before ++ more) none := by
  unfold lastLexemes
  split <;> rfl

theorem written_lastLexemes (mode : Mode) (before : List Char) :
    (lastLexemes mode before none).flatMap Lexeme.written = before := by
  unfold lastLexemes
  split <;> simp [Lexeme.written]

theorem Scans.ne_nil {lexemes : List Lexeme} (h : Scans mode lexemes) : lexemes ≠ [] := by
  cases h with
  | token => exact List.cons_ne_nil _ _
  | finish =>
    unfold lastLexemes
    split <;> exact List.cons_ne_nil _ _

theorem written_withBefore {lexemes : List Lexeme} (h : lexemes ≠ []) :
    (withBefore before lexemes).flatMap Lexeme.written = before ++ lexemes.flatMap Lexeme.written := by
  cases lexemes with
  | nil => exact absurd rfl h
  | cons lexeme rest => simp [withBefore, Lexeme.written]

theorem withBefore_withBefore (first second : List Char) (lexemes : List Lexeme) :
    withBefore first (withBefore second lexemes) = withBefore (first ++ second) lexemes := by
  cases lexemes with
  | nil => rfl
  | cons lexeme rest => simp [withBefore]

theorem Scans.skip {blanks : List Char} {lexemes : List Lexeme} (hframe : mode.textFrame? = none)
    (hskip : Skip mode blanks (lexemes.flatMap Lexeme.written).head? next) (h : Scans next lexemes) :
    Scans mode (withBefore blanks lexemes) := by
  cases h with
  | @token _ _ _ _ lexeme others hleads hready hemits hrest =>
    refine .token (.cons hframe ?_ hleads) hready hemits hrest
    simpa [Lexeme.written] using hskip
  | finish hleads hlast hline =>
    rw [written_lastLexemes] at hskip
    rw [withBefore_lastLexemes]
    exact .finish (.cons hframe (by simpa using hskip) hleads) hlast hline

theorem scans_of_scan {chars : List Char} {lexemes : List Lexeme}
    (h : scan fuel mode before none chars = .ok lexemes) :
    ∃ others, Scans mode others ∧ others.flatMap Lexeme.written = chars
      ∧ lexemes = withBefore before others := by
  induction fuel using Nat.strong_induction_on generalizing mode before chars lexemes with
  | h fuel ih =>
  cases fuel with
  | zero =>
    rw [scan] at h
    cases h
  | succ fuel =>
    cases scanStep h with
    | token kind text rest next others hemits hscan hlexemes =>
      obtain ⟨more, hmore, rfl, rfl⟩ := ih fuel (Nat.lt_succ_self _) hscan
      rw [withBefore_nil] at hlexemes
      refine ⟨⟨kind, [], none, text⟩ :: more, ?_, by simp [Lexeme.written], by simp [withBefore, hlexemes]⟩
      exact .token (.nil _ _) (.none _) hemits hmore
    | skip blanks rest next hframe hskip hscan =>
      obtain ⟨more, hmore, rfl, rfl⟩ := ih fuel (Nat.lt_succ_self _) hscan
      exact ⟨_, hmore.skip hframe hskip, written_withBefore hmore.ne_nil,
        (withBefore_withBefore _ _ _).symm⟩
    | line blanks rest next hframe hindents hscan =>
      -- A line that is indented starts with a token.
      have hstarts := hindents.starts hframe
      cases fuel with
      | zero =>
        rw [scan] at hscan
        cases hscan
      | succ fuel =>
        cases scanStep hscan with
        | token kind text rest next others hemits hafter hlexemes =>
          obtain ⟨more, hmore, rfl, rfl⟩ := ih fuel (by omega) hafter
          rw [withBefore_nil] at hlexemes
          refine ⟨⟨kind, [], some blanks, text⟩ :: more, ?_, by simp [Lexeme.written],
            by simp [withBefore, hlexemes]⟩
          exact .token (.nil _ _) (.some hframe hindents) hemits hmore
        | skip _ _ _ _ hskip => exact absurd hstarts hskip.not_starts
        | line _ _ _ _ hagain =>
          obtain ⟨-, hline, -⟩ := hstarts
          rw [hagain.line] at hline
          cases hline
        | finish =>
          obtain ⟨-, -, c, more, heq, -⟩ := hstarts
          cases heq
    | finish hframe hline hlexemes =>
      refine ⟨lastLexemes mode [] none, .finish (.nil _ _) hframe hline, written_lastLexemes _ _, ?_⟩
      rw [hlexemes, withBefore_lastLexemes, List.append_nil]

/-- What is left to do: a bound on the steps. -/
def Mode.work (mode : Mode) (chars : List Char) : Nat :=
  2 * chars.length + if mode.lineStart then 1 else 0

theorem Skip.work_lt {blanks : List Char} {head : Option Char} (h : Skip mode blanks head next)
    (rest : List Char) : next.work rest < mode.work (blanks ++ rest) := by
  unfold Mode.work
  cases h with
  | space _ hline => simp [hline]
  | comment hline =>
    simp only [List.length_append, List.length_cons, hline]
    omega
  | joined hline =>
    simp only [List.length_append, List.length_cons, hline]
    omega
  | lineEnd hline hbreak =>
    have hpos : 0 < blanks.length := by
      rcases hbreak with rfl | rfl | ⟨rfl, -⟩ <;> exact Nat.succ_pos _
    simp only [List.length_append, if_true]
    omega
  | lineStart hline =>
    simp only [List.length_append, hline, if_true, Bool.false_eq_true, if_false]
    omega

theorem Indents.work_lt {blanks : List Char} {head : Option Char} (h : Indents mode blanks head next)
    (rest : List Char) : next.work rest < mode.work (blanks ++ rest) := by
  rw [h.after]
  simp only [Mode.work, List.length_append, h.line, if_true, Bool.false_eq_true, if_false]
  omega

theorem Emits.work_lt {kind : TokenKind} {text : List Char} (h : Emits mode kind text rest next) :
    next.work rest < mode.work (text ++ rest) := by
  have hpos := List.length_pos_iff.2 h.ne_nil
  have hline : (if next.lineStart then 1 else 0) ≤ 1 := by split <;> omega
  unfold Mode.work
  rw [List.length_append]
  omega

theorem scan_of_leads {skipped : List Char} {head : Option Char} {after : Mode}
    (h : Leads mode skipped head after) (hhead : rest.head? = head) (before : List Char) (fuel : Nat)
    (hfuel : mode.work (skipped ++ rest) < fuel) :
    ∃ left, after.work rest < left
      ∧ scan fuel mode before none (skipped ++ rest) = scan left after (before ++ skipped) none rest := by
  induction h generalizing before fuel with
  | nil => exact ⟨fuel, hfuel, by rw [List.append_nil, List.nil_append]⟩
  | @cons mode middle after blanks more next hframe hskip _ ih =>
    subst hhead
    rw [List.append_assoc] at hfuel ⊢
    rw [← List.head?_append] at hskip
    have hwork := hskip.work_lt (more ++ rest)
    obtain ⟨fuel, rfl⟩ : ∃ less, fuel = less + 1 := ⟨fuel - 1, by omega⟩
    obtain ⟨left, hleft, heq⟩ := ih rfl (before ++ blanks) fuel (by omega)
    exact ⟨left, hleft, by rw [scan_of_skip hframe hskip, heq, List.append_assoc]⟩

theorem scan_of_scans {lexemes : List Lexeme} (h : Scans mode lexemes) (before : List Char) (fuel : Nat)
    (hfuel : mode.work (lexemes.flatMap Lexeme.written) < fuel) :
    scan fuel mode before none (lexemes.flatMap Lexeme.written) = .ok (withBefore before lexemes) := by
  induction h generalizing before fuel with
  | @token mode middle ready next lexeme others hleads hready hemits _ ih =>
    obtain ⟨kind, skipped, indentation, text⟩ := lexeme
    simp only at hleads hready hemits
    rw [List.flatMap_cons, Lexeme.written, List.append_assoc, List.append_assoc] at hfuel ⊢
    rw [List.append_assoc] at hleads
    obtain ⟨left, hleft, hscan⟩ := scan_of_leads hleads rfl before fuel hfuel
    have hemit := hemits.work_lt
    have htoken : ∀ fuel, ready.work (text ++ others.flatMap Lexeme.written) < fuel →
        scan fuel ready (before ++ skipped) indentation (text ++ others.flatMap Lexeme.written)
          = .ok (⟨kind, before ++ skipped, indentation, text⟩ :: others) := by
      intro fuel hfuel
      obtain ⟨fuel, rfl⟩ : ∃ less, fuel = less + 1 := ⟨fuel - 1, by omega⟩
      rw [scan_of_emits hemits, ih [] fuel (by omega), withBefore_nil]
      rfl
    rw [hscan]
    cases hready with
    | none => exact htoken left hleft
    | some hframe hindents =>
      have hwork := hindents.work_lt (text ++ others.flatMap Lexeme.written)
      rw [Option.getD_some] at hleft ⊢
      obtain ⟨left, rfl⟩ : ∃ less, left = less + 1 := ⟨left - 1, by omega⟩
      rw [scan_of_indents hframe hindents]
      exact htoken left (by omega)
  | @finish mode last skipped hleads hframe hline =>
    rw [written_lastLexemes] at hfuel ⊢
    rw [← List.append_nil skipped] at hfuel
    obtain ⟨left, hleft, hscan⟩ := scan_of_leads hleads rfl before fuel hfuel
    obtain ⟨left, rfl⟩ : ∃ less, left = less + 1 := ⟨left - 1, by omega⟩
    rw [List.append_nil] at hscan
    rw [hscan, scan_finish hframe hline, withBefore_lastLexemes]

def Mode.start (chars : List Char) : Mode :=
  ⟨[], [], true, true, (chars.getLast?.map isLineBreak).getD true⟩

theorem lexemes_eq_ok_iff {chars : List Char} {lexemes : List Lexeme} :
    Source.lexemes chars = .ok lexemes
      ↔ Scans (.start chars) lexemes ∧ lexemes.flatMap Lexeme.written = chars := by
  constructor
  · intro h
    obtain ⟨others, hscans, hwritten, rfl⟩ := scans_of_scan h
    rw [withBefore_nil]
    exact ⟨hscans, hwritten⟩
  · rintro ⟨hscans, rfl⟩
    have hscan := scan_of_scans hscans [] (3 * (lexemes.flatMap Lexeme.written).length + 3)
      (by rw [Mode.work]; split <;> omega)
    rw [withBefore_nil] at hscan
    exact hscan

end Bundler.Source
