import Bundler.Proofs.Source.Kept
import Mathlib.Data.List.Chain

/-!
# Lexemes that are written anew

`Recast` relates the lexemes of a text to others: some names give way to another name, the string behind
such a name and its parenthesis to another string, and every line may be indented anew. The lexer cuts
what the others say into these lexemes again (`Scans.recast`), if the name that gives way does not stand
directly behind a number.
-/

namespace Bundler.Source

variable {load runtime : List Char} {mode next : Mode} {kind : TokenKind} {text new rest other : List Char}

/-! ### The relation -/

/-- How much of a call has been read. -/
inductive Stage
  | free
  | named
  | opened
  deriving DecidableEq, Repr

/-- What becomes of the text of a token: it is kept, or it is the name of a call that gives way or the
string that the call begins with. -/
inductive Change (load runtime : List Char) : Stage → TokenKind → List Char → List Char → Stage → Prop
  | kept (kind : TokenKind) (text : List Char) : Change load runtime .free kind text text .free
  | name : Change load runtime .free .name load runtime .named
  | opening {kind : TokenKind} (hkind : kind = .name ∨ kind = .operator) :
    Change load runtime .named kind ['('] ['('] .opened
  | literal (text : List Char) {new : List Char} (hnew : IsLiteral new) :
    Change load runtime .opened .string text new .free

/-- What becomes of an indentation: there is one as before, and it is made of blanks. -/
inductive Reindents : Option (List Char) → Option (List Char) → Prop
  | none : Reindents none none
  | some (blanks : List Char) {margin : List Char} (hmargin : ∀ c ∈ margin, isSpace c = true) :
    Reindents (some blanks) (some margin)

/-- Lexemes that are written anew. -/
inductive Recast (load runtime : List Char) : Stage → List Lexeme → List Lexeme → Prop
  | nil : Recast load runtime .free [] []
  | cons {stage after : Stage} {kind : TokenKind} {before text new : List Char}
      {indentation margin : Option (List Char)} {others more : List Lexeme}
      (hchange : Change load runtime stage kind text new after) (hindent : Reindents indentation margin)
      (hrest : Recast load runtime after others more) :
    Recast load runtime stage (⟨kind, before, indentation, text⟩ :: others)
      (⟨kind, before, margin, new⟩ :: more)

/-! ### What a token before them can see -/

theorem akin_of_mem {run : List Char} {c : Char} (hc : c ∈ run) (hstop : decides c = false)
    (left other : List Char) : Akin (run ++ left) (run ++ other) := by
  obtain ⟨first, second, rfl⟩ := List.append_of_mem hc
  rw [List.append_assoc, List.append_assoc]
  exact (Akin.stop hstop _ _).append first

theorem Akin.refl (chars : List Char) : Akin chars chars := by
  have h := Akin.nil.append chars
  rwa [List.append_nil] at h

theorem Near.refl (chars : List Char) : Near chars chars := by
  have hnil : Near [] [] := ⟨rfl, fun _ he => by cases he⟩
  have h := hnil.append chars
  rwa [List.append_nil] at h

theorem decides_of_isLineBreak {c : Char} (h : isLineBreak c = true) : decides c = false := by
  rw [isLineBreak, Bool.or_eq_true, beq_iff_eq, beq_iff_eq] at h
  rcases h with rfl | rfl <;> decide

theorem decides_of_not_isFirm {c : Char} (h : ¬IsFirm c) : decides c = false := by
  rw [Bool.eq_false_iff]
  intro hdecides
  rw [decides, List.contains_iff_mem] at hdecides
  have hall : ("*/<>=.\"'eE".toList.all fun d => decide (IsFirm d)) = true := by decide
  exact h (of_decide_eq_true (List.all_eq_true.1 hall c hdecides))

/-- The name of a call with nothing before it. -/
def Lexeme.IsBare (load : List Char) (lexeme : Lexeme) : Prop :=
  lexeme.kind = .name ∧ lexeme.text = load ∧ lexeme.before = [] ∧ lexeme.indentation = none

theorem Change.of_ne {stage after : Stage} (h : Change load runtime stage kind text new after)
    (hname : kind ≠ .name) (hoperator : kind ≠ .operator) (hstring : kind ≠ .string) :
    new = text ∧ stage = .free ∧ after = .free := by
  cases h with
  | kept => exact ⟨rfl, rfl, rfl⟩
  | name => exact absurd rfl hname
  | opening hkind => exact absurd hkind (not_or.2 ⟨hname, hoperator⟩)
  | literal => exact absurd rfl hstring

theorem recast_lastLexemes {stage : Stage} {before : List Char} {others : List Lexeme}
    (h : Recast load runtime stage (lastLexemes mode before none) others) :
    others = lastLexemes mode before none ∧ stage = .free := by
  unfold lastLexemes at h ⊢
  split at h
  next hclosed =>
    rw [if_pos hclosed]
    cases h with
    | cons hchange hindent hrest =>
    obtain ⟨rfl, rfl, rfl⟩ := hchange.of_ne nofun nofun nofun
    cases hindent
    cases hrest
    exact ⟨rfl, rfl⟩
  next hclosed =>
    rw [if_neg hclosed]
    cases h with
    | cons hchange hindent hrest =>
    obtain ⟨rfl, rfl, rfl⟩ := hchange.of_ne nofun nofun nofun
    cases hindent
    cases hrest with
    | cons hchange hindent hrest =>
    obtain ⟨rfl, -, rfl⟩ := hchange.of_ne nofun nofun nofun
    cases hindent
    cases hrest
    exact ⟨rfl, rfl⟩

theorem Change.akin {stage after : Stage} (hload : Text.isIdentifier load = true)
    (hruntime : Text.isIdentifier runtime = true) (h : Change load runtime stage kind text new after)
    (hstage : stage ≠ .opened)
    (hrest : after = .free → (∃ c ∈ text, isLineBreak c = true) ∨ Akin rest other) :
    Akin (text ++ rest) (new ++ other) := by
  cases h with
  | kept =>
    rcases hrest rfl with ⟨c, hc, hbreak⟩ | hakin
    · exact akin_of_mem hc (decides_of_isLineBreak hbreak) _ _
    · exact hakin.append text
  | name =>
    obtain ⟨⟨c, _, rfl, hc⟩, -⟩ := isNamePart_of_isIdentifier hload
    obtain ⟨⟨d, _, rfl, hd⟩, -⟩ := isNamePart_of_isIdentifier hruntime
    exact .names hc hd _ _
  | opening => exact .stop (by decide) _ _
  | literal => exact absurd rfl hstage

theorem Change.near {stage after : Stage} (h : Change load runtime stage kind text new after)
    (hstage : stage ≠ .opened) (hname : kind = .name → text ≠ load) (hne : text ≠ [])
    (hrest : after = .free → (∃ c ∈ text, isLineBreak c = true) ∨ Akin rest other) :
    Near (text ++ rest) (new ++ other) := by
  cases h with
  | kept =>
    obtain ⟨d, run, rfl⟩ := List.exists_cons_of_ne_nil hne
    rcases hrest rfl with ⟨c, hc, hbreak⟩ | hakin
    · rcases List.mem_cons.1 hc with rfl | hc
      · exact .stop (decides_of_isLineBreak hbreak) _ _
      · exact (akin_of_mem hc (decides_of_isLineBreak hbreak) _ _).near_cons d
    · exact (hakin.append run).near_cons d
  | name => exact absurd rfl (hname rfl)
  | opening => exact .stop (by decide) _ _
  | literal => exact absurd rfl hstage

theorem Recast.akin {stage : Stage} {lexemes others : List Lexeme} (hload : Text.isIdentifier load = true)
    (hruntime : Text.isIdentifier runtime = true) (h : Scans mode lexemes)
    (hrecast : Recast load runtime stage lexemes others) (hstage : stage ≠ .opened) (hsound : mode.Sound)
    (hline : mode.lineStart = false) :
    Akin (lexemes.flatMap Lexeme.written) (others.flatMap Lexeme.written)
      ∧ ((∀ lexeme, lexemes.head? = some lexeme → ¬lexeme.IsBare load) →
        Near (lexemes.flatMap Lexeme.written) (others.flatMap Lexeme.written)) := by
  induction h generalizing stage others with
  | finish =>
    obtain ⟨rfl, -⟩ := recast_lastLexemes hrecast
    exact ⟨.refl _, fun _ => .refl _⟩
  | @token mode middle ready next lexeme following hleads hready hemits hrest ih =>
    cases hrecast with
    | @cons _ after kind before text new indentation margin _ more hchange hindent hmore =>
    simp only [List.flatMap_cons, Lexeme.written, List.append_assoc]
    simp only at hleads hready hemits
    have hmiddle := hleads.sound hsound
    have hready' := hready.sound hmiddle
    cases hindent with
    | @some blanks margin =>
      have hbreak : ∃ c ∈ before, isLineBreak c = true := by
        cases hready with
        | some _ hindents => exact hleads.mem_of_lineStart hline hindents.line
      obtain ⟨c, hc, hbreak⟩ := hbreak
      refine ⟨akin_of_mem hc (decides_of_isLineBreak hbreak) _ _, fun _ => ?_⟩
      rcases hleads.head hline with ⟨rfl, -⟩ | ⟨d, run, rfl, hd⟩
      · cases hc
      · exact .stop (decides_of_not_isFirm hd) _ _
    | none =>
      have hrest : after = .free → (∃ c ∈ text, isLineBreak c = true)
          ∨ Akin (following.flatMap Lexeme.written) (more.flatMap Lexeme.written) := by
        rintro rfl
        refine (hemits.lineStart hready').imp_right fun hnext => ?_
        exact (ih hmore (by decide) (hemits.sound hready') hnext).1
      have hakin := hchange.akin hload hruntime hstage hrest
      refine ⟨hakin.append before, fun hapart => ?_⟩
      rcases hleads.head hline with ⟨rfl, -⟩ | ⟨c, run, rfl, hc⟩
      · refine hchange.near hstage (fun hkind htext => ?_) hemits.ne_nil hrest
        exact hapart _ rfl ⟨hkind, htext, rfl, rfl⟩
      · exact .stop (decides_of_not_isFirm hc) _ _

/-! ### The lexer cuts them alike -/

theorem Change.head {stage after : Stage} (h : Change load runtime stage kind text new after)
    (hruntime : Text.isIdentifier runtime = true)
    (hfirm : kind = .name ∨ kind = .string → ∃ c, text.head? = some c ∧ IsFirm c) :
    new.head? = text.head?
      ∨ ∃ c d, text.head? = some c ∧ new.head? = some d ∧ IsFirm c ∧ IsFirm d := by
  cases h with
  | kept => exact .inl rfl
  | opening => exact .inl rfl
  | name =>
    obtain ⟨⟨d, _, rfl, hd⟩, -⟩ := isNamePart_of_isIdentifier hruntime
    obtain ⟨c, hhead, hc⟩ := hfirm (.inl rfl)
    exact .inr ⟨c, d, hhead, rfl, hc, isFirm_of_isNamePart (isNamePart_of_startsName hd)⟩
  | literal _ hnew =>
    obtain ⟨d, hd, hdfirm⟩ := hnew.isFirm
    obtain ⟨c, hhead, hc⟩ := hfirm (.inr rfl)
    exact .inr ⟨c, d, hhead, hd, hc, hdfirm⟩

/-- Behind the name of a call comes its parenthesis. -/
theorem Recast.head_named {lexemes others : List Lexeme} (h : Scans mode lexemes)
    (hrecast : Recast load runtime .named lexemes others) (hline : mode.lineStart = false) :
    ∃ c, (others.flatMap Lexeme.written).head? = some c ∧ (c = '(' ∨ ¬IsFirm c) := by
  cases h with
  | finish =>
    obtain ⟨-, hstage⟩ := recast_lastLexemes hrecast
    cases hstage
  | @token _ middle ready next lexeme following hleads hready hemits hrest =>
    cases hrecast with
    | cons hchange hindent hmore =>
    cases hchange
    simp only at hleads hready
    rcases hleads.head hline with ⟨rfl, rfl⟩ | ⟨c, run, rfl, hc⟩
    · cases hindent with
      | none => exact ⟨'(', rfl, .inl rfl⟩
      | some =>
        cases hready with
        | some _ hindents =>
          have hstart := hindents.line
          rw [hline] at hstart
          cases hstart
    · exact ⟨c, rfl, .inr hc⟩

theorem Recast.head_break {stage : Stage} {lexemes others : List Lexeme}
    (hruntime : Text.isIdentifier runtime = true) (h : Scans mode lexemes)
    (hrecast : Recast load runtime stage lexemes others)
    (hother : (others.flatMap Lexeme.written).head? = some '\n') :
    (lexemes.flatMap Lexeme.written).head? = some '\n' := by
  have hnot : ∀ {c : Char}, IsFirm c → c ≠ '\n' := by
    rintro c hc rfl
    exact absurd hc (by decide)
  cases h with
  | finish =>
    obtain ⟨rfl, -⟩ := recast_lastLexemes hrecast
    exact hother
  | @token _ middle ready next lexeme following hleads hready hemits hrest =>
    cases hrecast with
    | @cons _ after kind before text new indentation margin _ more hchange hindent hmore =>
    simp only [List.flatMap_cons, Lexeme.written, List.append_assoc] at hother ⊢
    simp only at hready hemits
    cases before with
    | cons c run => exact hother
    | nil =>
      rw [List.nil_append] at hother ⊢
      obtain ⟨c, run, rfl⟩ := List.exists_cons_of_ne_nil hemits.ne_nil
      cases hindent with
      | none =>
        rcases hchange.head hruntime hemits.isFirm with hhead | ⟨_, d, -, hhead, -, hd⟩
        · rw [Option.getD_none, List.nil_append, List.head?_append, hhead] at hother
          exact hother
        · rw [Option.getD_none, List.nil_append, List.head?_append, hhead] at hother
          exact absurd (Option.some.inj hother) (hnot hd)
      | @some _ margin hmargin =>
        exfalso
        rw [Option.getD_some] at hother
        cases margin with
        | cons d margin =>
          cases hother
          exact absurd (hmargin '\n' List.mem_cons_self) (by decide)
        | nil =>
          cases hready with
          | some _ hindents =>
          obtain ⟨d, hd, hfirm⟩ := hindents.next
          rcases hchange.head hruntime hemits.isFirm with hhead | ⟨_, e, -, hhead, -, he⟩
          · rw [List.nil_append, List.head?_append, hhead] at hother
            cases hd
            cases hother
            cases hfirm.2
          · rw [List.nil_append, List.head?_append, hhead] at hother
            exact hnot he (Option.some.inj hother)

/-- What comes behind the text of a formatted string begins as before, and ends the text where it did. -/
theorem Recast.in_text {following more : List Lexeme} (hrecast : Recast load runtime .free following more)
    (h : Emits mode .formatText text (following.flatMap Lexeme.written) next) (hsound : mode.Sound)
    (hfollowing : Scans next following) (hmore : Scans next more) :
    (more.flatMap Lexeme.written).head? = (following.flatMap Lexeme.written).head? ∧
      ∀ frame, mode.textFrame? = some frame → ∀ named,
        formatRun frame named (following.flatMap Lexeme.written)
          = some ([], following.flatMap Lexeme.written) →
        formatRun frame named (more.flatMap Lexeme.written) = some ([], more.flatMap Lexeme.written) := by
  cases h with
  | lexeme _ hlexeme => cases lexes_of_lexemeAt hlexeme
  | formatText hframe =>
  obtain ⟨kind, text, fields, after, rfl, hfields⟩ := hfollowing.of_text hframe
  obtain ⟨_, _, others, last, rfl, hothers⟩ := hmore.of_text hframe
  cases hrecast with
  | cons hchange =>
  cases hchange with
  | name => cases hframe.symm.trans (hfields.eq_lexemeAt (.inl rfl)).1.1
  | kept =>
  simp only [List.flatMap_cons, Lexeme.written, List.nil_append, Option.getD_none]
  refine ⟨head?_append_of_ne_nil hfields.ne_nil _ _, fun other hother named hstop => ?_⟩
  cases hframe.symm.trans hother
  exact hfields.stop (hsound.quote hframe) hothers hframe hstop

theorem Emits.change {stage after : Stage} {following more : List Lexeme}
    (hload : Text.isIdentifier load = true) (hruntime : Text.isIdentifier runtime = true)
    (h : Emits mode kind text (following.flatMap Lexeme.written) next) (hsound : mode.Sound)
    (hchange : Change load runtime stage kind text new after)
    (hrecast : Recast load runtime after following more) (hfollowing : Scans next following)
    (hmore : Scans next more)
    (hnumber : kind = .number → ∀ lexeme, following.head? = some lexeme → ¬lexeme.IsBare load) :
    Emits mode kind new (more.flatMap Lexeme.written) next := by
  cases hchange with
  | name =>
    obtain ⟨hstarts, hlexeme⟩ := h.eq_lexemeAt (.inl rfl)
    obtain ⟨hframe, hline, -⟩ := starts_iff.1 hstarts
    obtain ⟨⟨d, run, hd, hstart⟩, -⟩ := isNamePart_of_isIdentifier hruntime
    cases lexes_of_lexemeAt hlexeme
    obtain ⟨c, hhead, hc⟩ := hrecast.head_named hfollowing hline
    refine .lexeme (starts_iff.2 ⟨hframe, hline, d, by rw [hd]; rfl, ?_⟩)
      (lexemeAt_identifier hruntime fun e he => ?_)
    · exact isFirm_of_isNamePart (isNamePart_of_startsName hstart)
    · cases hhead.symm.trans he
      rcases hc with rfl | hc
      · decide
      · refine ⟨?_, ?_, ?_⟩
        · rw [Bool.eq_false_iff]
          exact fun hpart => hc (isFirm_of_isNamePart hpart)
        · rintro rfl
          exact hc (by decide)
        · rintro rfl
          exact hc (by decide)
  | opening hkind =>
    obtain ⟨hstarts, hlexeme⟩ := h.eq_lexemeAt (hkind.imp_right fun hkind => .inr ⟨hkind, rfl⟩)
    obtain ⟨hframe, hline, -⟩ := starts_iff.1 hstarts
    rw [List.singleton_append, lexemeAt_opening] at hlexeme
    cases hlexeme
    refine .lexeme (starts_iff.2 ⟨hframe, hline, '(', rfl, by decide⟩) (lexemeAt_opening _ _)
  | literal _ hnew =>
    obtain ⟨hstarts, hlexeme⟩ := h.eq_lexemeAt (.inr (.inl rfl))
    obtain ⟨hframe, hline, -⟩ := starts_iff.1 hstarts
    obtain ⟨c, hc, hfirm⟩ := hnew.isFirm
    cases lexes_of_lexemeAt hlexeme
    refine .lexeme (starts_iff.2 ⟨hframe, hline, c, ?_, hfirm⟩) (hnew _ _)
    rw [List.head?_append, hc]
    rfl
  | kept =>
    have hakin := fun hline => hrecast.akin hload hruntime hfollowing nofun (h.sound hsound) hline
    refine h.kept hsound (fun hline => (hakin hline).1) (fun hkind => ?_)
      (hrecast.head_break hruntime hfollowing) (fun hkind => ?_)
    · have hline : next.lineStart = false := by
        subst hkind
        cases h with
        | lexeme hstarts hlexeme =>
          rw [(lexes_of_lexemeAt hlexeme).lineStart]
          exact hstarts.2.1
      exact (hakin hline).2 (hnumber hkind)
    · subst hkind
      exact hrecast.in_text h hsound hfollowing hmore

theorem Scans.recast {stage : Stage} {lexemes others : List Lexeme} (hload : Text.isIdentifier load = true)
    (hruntime : Text.isIdentifier runtime = true) (h : Scans mode lexemes)
    (hrecast : Recast load runtime stage lexemes others) (hsound : mode.Sound)
    (hnumbers : lexemes.IsChain fun lexeme later => lexeme.kind = .number → ¬later.IsBare load) :
    Scans mode others := by
  induction h generalizing stage others with
  | finish hleads hframe hline =>
    obtain ⟨rfl, -⟩ := recast_lastLexemes hrecast
    exact .finish hleads hframe hline
  | @token mode middle ready next lexeme following hleads hready hemits hrest ih =>
    cases hrecast with
    | @cons _ after kind before text new indentation margin _ more hchange hindent hmore =>
    simp only at hleads hready hemits
    have hready' := hready.sound (hleads.sound hsound)
    have hlater := ih hmore (hemits.sound hready') (List.isChain_cons.1 hnumbers).2
    have hnew := hemits.change hload hruntime hready' hchange hmore hrest hlater
      (fun hkind lexeme hhead => (List.isChain_cons.1 hnumbers).1 lexeme hhead hkind)
    have hhead := hchange.head hruntime hemits.isFirm
    obtain ⟨c, run, rfl⟩ := List.exists_cons_of_ne_nil hemits.ne_nil
    obtain ⟨d, others, rfl⟩ := List.exists_cons_of_ne_nil hnew.ne_nil
    have hfirm : d = c ∨ IsFirm c ∧ IsFirm d := by
      rcases hhead with heq | ⟨_, _, hc, hd, hfirm⟩
      · exact .inl (Option.some.inj heq)
      · cases hc
        cases hd
        exact .inr hfirm
    cases hindent with
    | none =>
      cases hready
      refine .token (hleads.congr ?_) (.none _) hnew hlater
      rcases hfirm with rfl | hfirm
      · exact .inl rfl
      · exact .inr (.inl ⟨c, d, rfl, rfl, hfirm⟩)
    | @some _ margin hmargin =>
      cases hready with
      | some hframe hindents =>
      obtain ⟨line, closers, -, ⟨e, he, hsolid⟩, hafter⟩ := hindents
      cases he
      have hd : IsFirm d := by
        rcases hfirm with rfl | hfirm
        · exact hsolid
        · exact hfirm.2
      refine .token (hleads.congr (.inr (.inr ⟨line, ?_⟩)))
        (.some hframe ⟨line, closers, hmargin, ⟨d, rfl, hd⟩, hafter⟩) hnew hlater
      intro heq
      cases margin with
      | nil =>
        cases heq
        exact absurd hd (by decide)
      | cons e margin =>
        cases heq
        exact absurd (hmargin '\n' List.mem_cons_self) (by decide)

end Bundler.Source
