import Bundler.Proofs.Source.Straight

/-!
# Parentheses that are dropped

A string in parentheses behind an opening parenthesis may give way to a string without them: the lexer cuts
the text into the same tokens but for those (`Sheds.exists_tokens`), if the line breaks that go with the
parentheses did not change whether their line counts as blank.
-/

namespace Bundler.Source

variable {mode next : Mode} {lexemes others : List Lexeme} {rest : List Char}

/-! ### A pair of parentheses -/

def Mode.opened (mode : Mode) : Mode :=
  { mode.onFrame Frame.openBracket with closers := ')' :: mode.closers }

theorem afterOperator_opened (hframe : mode.textFrame? = none) :
    mode.opened.afterOperator [')'] = some mode := by
  obtain ⟨closers, frames, line, blank, closed⟩ := mode
  cases frames with
  | nil => rfl
  | cons frame frames =>
    have hfield : frame.inField = true := by simpa [Mode.textFrame?] using hframe
    have hinside : frame.openBracket.closeBracket = frame := by
      have hopened : frame.openBracket.inField = true := by
        rw [Frame.inField, decide_eq_true_eq] at hfield ⊢
        exact Nat.lt_succ_of_lt hfield
      simp [Frame.closeBracket, Frame.inSpec, hopened]
      rfl
    simp [Mode.afterOperator, Mode.opened, Mode.onFrame, closer?, hinside]

theorem Emits.eq_opened (h : Emits mode .operator ['('] rest next) :
    mode.textFrame? = none ∧ mode.lineStart = false ∧ next = mode.opened := by
  obtain ⟨hstarts, hlexeme⟩ := h.eq_lexemeAt (.inr (.inr ⟨rfl, rfl⟩))
  rw [List.singleton_append, lexemeAt_opening] at hlexeme
  cases hlexeme
  exact ⟨hstarts.1, hstarts.2.1, rfl⟩

theorem Emits.eq_of_closing (h : Emits mode.opened .operator [')'] rest next)
    (hframe : mode.textFrame? = none) : next = mode := by
  generalize hopened : mode.opened = opened at h
  cases h with
  | lexeme _ hlexeme =>
    cases lexes_of_lexemeAt hlexeme with
    | operator hafter =>
      rw [← hopened, afterOperator_opened hframe] at hafter
      exact (Option.some.inj hafter).symm

theorem Emits.lineStart_of_closing (h : Emits mode .operator [')'] rest next) : mode.lineStart = false := by
  generalize htext : [')'] = text at h
  cases h with
  | lexeme hstarts => exact hstarts.2.1
  | _ => cases htext

theorem Scans.of_cons {lexeme : Lexeme} (h : Scans mode (lexeme :: others))
    (hnewline : lexeme.kind ≠ .newline) (hfinish : lexeme.kind ≠ .finish) :
    ∃ middle ready next, Leads mode lexeme.before (lexeme.indentation.getD [] ++ lexeme.text
        ++ others.flatMap Lexeme.written).head? middle
      ∧ Ready middle lexeme.indentation (lexeme.text ++ others.flatMap Lexeme.written).head? ready
      ∧ Emits ready lexeme.kind lexeme.text (others.flatMap Lexeme.written) next ∧ Scans next others := by
  generalize hlexemes : lexeme :: others = lexemes at h
  cases h with
  | token hleads hready hemits hrest =>
    cases hlexemes
    exact ⟨_, _, _, hleads, hready, hemits, hrest⟩
  | finish =>
    unfold lastLexemes at hlexemes
    split at hlexemes
    · cases hlexemes
      exact absurd rfl hfinish
    · cases hlexemes
      exact absurd rfl hnewline

theorem Ready.of_closers {middle ready : Mode} {indentation : Option (List Char)} {head : Option Char}
    (h : Ready middle indentation head ready) (hclosers : middle.closers ≠ []) :
    indentation = .none ∧ ready = middle := by
  cases h with
  | none => exact ⟨rfl, rfl⟩
  | some _ hindents => exact absurd hindents.closers hclosers

/-- No line starts with a backslash, or no line starts in this part. -/
def Quiet (straight : Prop) (inside : List Char) : Prop :=
  straight ∨ ∀ c ∈ inside, isLineBreak c = false

theorem Scans.drop_parens {opening literal closing : Lexeme}
    (h : Scans mode (opening :: literal :: closing :: others)) (hsound : mode.Sound)
    (hclosers : mode.closers ≠ []) (hopening : opening.kind = .operator ∧ opening.text = ['('])
    (hliteral : literal.kind = .string) (hclosing : closing.kind = .operator ∧ closing.text = [')']) :
    opening.indentation = none ∧ literal.indentation = none ∧ closing.indentation = none
      ∧ (Quiet (mode.Steady ((opening :: literal :: closing :: others).flatMap Lexeme.written))
          (literal.before ++ closing.before) →
        ∀ new, IsLiteral new → Scans mode (⟨.string, opening.before, none, new⟩ :: others)) := by
  obtain ⟨kind, before, indentation, text⟩ := opening
  obtain ⟨kind', before', indentation', text'⟩ := literal
  obtain ⟨kind'', before'', indentation'', text''⟩ := closing
  simp only at hopening hliteral hclosing
  obtain ⟨rfl, rfl⟩ := hopening
  obtain rfl := hliteral
  obtain ⟨rfl, rfl⟩ := hclosing
  obtain ⟨middle, outer, next, hleads, hready, hemits, hrest⟩ := h.of_cons nofun nofun
  simp only at hleads hready hemits
  have houter : middle.closers ≠ [] := by
    obtain ⟨_, _, rfl⟩ := hleads.keeps
    exact hclosers
  obtain ⟨rfl, rfl⟩ := hready.of_closers houter
  obtain ⟨hframe, hline, rfl⟩ := hemits.eq_opened
  obtain ⟨middle, inner, next, hleads', hready', hemits', hrest'⟩ := hrest.of_cons nofun nofun
  simp only at hleads' hready' hemits'
  have hinner : middle.closers ≠ [] := by
    obtain ⟨_, _, rfl⟩ := hleads'.keeps
    exact List.cons_ne_nil _ _
  obtain ⟨rfl, rfl⟩ := hready'.of_closers hinner
  obtain ⟨hstarts, hlexeme⟩ := hemits'.eq_lexemeAt (.inr (.inl rfl))
  cases lexes_of_lexemeAt hlexeme
  obtain ⟨middle, shut, next, hleads'', hready'', hemits'', hothers⟩ := hrest'.of_cons nofun nofun
  simp only at hleads'' hready'' hemits''
  have hshut : middle.closers ≠ [] := by
    obtain ⟨_, _, rfl⟩ := hleads''.keeps
    exact hinner
  obtain ⟨rfl, rfl⟩ := hready''.of_closers hshut
  refine ⟨rfl, rfl, rfl, fun hquiet new hnew => ?_⟩
  have hsame : inner = outer.opened ∧ shut = inner := by
    have hlast := hemits''.lineStart_of_closing
    rcases hquiet with hsteady | hbreak
    · have hsound' := hready.sound (hleads.sound hsound)
      have hinside := hemits.sound hsound'
      have hinside' := hemits'.sound (hready'.sound (hleads'.sound hinside))
      obtain ⟨hsteady, hbehind⟩ := hsteady.token hsound hleads hready hemits
      obtain ⟨hsteady', hbehind⟩ := hbehind.token hinside hleads' hready' hemits'
      obtain ⟨hsteady'', -⟩ := hbehind.token hinside' hleads'' hready'' hemits''
      have hopened : outer.opened.Steady [] := ⟨rfl, hsteady.blank⟩
      exact ⟨hleads'.eq_of_steady hopened hsteady' hline hstarts.2.1,
        hleads''.eq_of_steady hsteady' hsteady'' hstarts.2.1 hlast⟩
    · rw [List.forall_mem_append] at hbreak
      have hinner := hleads'.eq_of_line hline hbreak.1
      exact ⟨hinner, hleads''.eq_of_line hstarts.2.1 hbreak.2⟩
  obtain ⟨rfl, rfl⟩ := hsame
  obtain rfl := hemits''.eq_of_closing hframe
  obtain ⟨c, hc, hfirm⟩ := hnew.isFirm
  have hhead : (new ++ others.flatMap Lexeme.written).head? = some c := by rw [List.head?_append, hc]; rfl
  refine .token (hleads.congr (.inr (.inl ⟨'(', c, rfl, hhead, by decide, hfirm⟩))) (.none _)
    (.lexeme (starts_iff.2 ⟨hframe, hline, c, hhead, hfirm⟩) (hnew _ _)) hothers

/-- Behind an opening parenthesis a string in parentheses gives way to one without them. -/
inductive Drops (straight : Prop) (new : List Char) : List Lexeme → List Lexeme → Prop
  | here {outer opening literal closing : Lexeme} (following : List Lexeme)
      (houter : outer.kind = .operator ∧ outer.text = ['('])
      (hopening : opening.kind = .operator ∧ opening.text = ['(']) (hliteral : literal.kind = .string)
      (hclosing : closing.kind = .operator ∧ closing.text = [')'])
      (hquiet : Quiet straight (literal.before ++ closing.before)) :
    Drops straight new (outer :: opening :: literal :: closing :: following)
      (outer :: ⟨.string, opening.before, none, new⟩ :: following)
  | there (lexeme : Lexeme) {lexemes others : List Lexeme} (h : Drops straight new lexemes others) :
    Drops straight new (lexeme :: lexemes) (lexeme :: others)

section Drops

variable {straight : Prop} {new : List Char}

theorem Drops.head (h : Drops straight new lexemes others) : others.head? = lexemes.head? := by
  cases h <;> rfl

theorem Drops.written (h : Drops straight new lexemes others) :
    ∃ run left more, lexemes.flatMap Lexeme.written = run ++ '(' :: left
      ∧ others.flatMap Lexeme.written = run ++ '(' :: more := by
  induction h with
  | @here outer _ _ _ _ houter =>
    have hsplit : ∀ following : List Lexeme, (outer :: following).flatMap Lexeme.written
        = outer.before ++ outer.indentation.getD [] ++ '(' :: following.flatMap Lexeme.written := by
      intro following
      rw [List.flatMap_cons, Lexeme.written, houter.2, List.append_assoc, List.singleton_append]
    exact ⟨_, _, _, hsplit _, hsplit _⟩
  | there lexeme _ ih =>
    obtain ⟨run, left, more, hleft, hmore⟩ := ih
    refine ⟨lexeme.written ++ run, left, more, ?_, ?_⟩
    · rw [List.flatMap_cons, hleft, List.append_assoc]
    · rw [List.flatMap_cons, hmore, List.append_assoc]

theorem not_drops_lastLexemes {before : List Char} :
    ¬Drops straight new (lastLexemes mode before none) others := by
  intro h
  unfold lastLexemes at h
  split at h
  · cases h with
    | there _ h => cases h
  · cases h with
    | there _ h =>
    cases h with
    | there _ h => cases h

theorem Scans.drop (h : Scans mode lexemes) (hsound : mode.Sound) (hnew : IsLiteral new)
    (hsteady : straight → mode.Steady (lexemes.flatMap Lexeme.written))
    (hdrops : Drops straight new lexemes others) : Scans mode others := by
  induction h generalizing others with
  | finish => exact absurd hdrops not_drops_lastLexemes
  | @token mode middle ready next lexeme following hleads hready hemits hrest ih =>
    have hready' := hready.sound (hleads.sound hsound)
    have hbehind : straight → next.Steady (following.flatMap Lexeme.written) := fun hstraight =>
      ((hsteady hstraight).token hsound hleads hready hemits).2
    obtain ⟨kind, before, indentation, text⟩ := lexeme
    simp only at hleads hready hemits
    cases hdrops with
    | here following houter hopening hliteral hclosing hquiet =>
      obtain ⟨rfl, rfl⟩ := houter
      obtain ⟨hframe, hline, rfl⟩ := hemits.eq_opened
      obtain ⟨-, -, -, hscans⟩ :=
        hrest.drop_parens (hemits.sound hready') (List.cons_ne_nil _ _) hopening hliteral hclosing
      have hopens : ∀ rest, Emits ready .operator ['('] rest ready.opened := fun rest =>
        .lexeme (starts_iff.2 ⟨hframe, hline, '(', rfl, by decide⟩) (lexemeAt_opening _ _)
      refine .token (hleads.congr (.inl ?_)) hready (hopens _) (hscans (hquiet.imp_left hbehind) new hnew)
      exact head?_append_of_ne_nil (by simp) _ _
    | @there _ _ others hdrops =>
      have hlater := ih (hemits.sound hready') hbehind hdrops
      obtain ⟨run, left, more, hleft, hmore⟩ := hdrops.written
      have hhead : (others.flatMap Lexeme.written).head? = (following.flatMap Lexeme.written).head? := by
        rw [hleft, hmore, List.head?_append, List.head?_append]
        rfl
      have hkept : Emits ready kind text (others.flatMap Lexeme.written) next := by
        refine hemits.kept hready' (fun _ => ?_) (fun _ => ?_) (fun hother => hhead ▸ hother)
          fun hkind => ⟨hhead, ?_⟩
        · rw [hleft, hmore]
          exact (Akin.stop (by decide) _ _).append run
        · rw [hleft, hmore]
          exact (Near.stop (by decide) _ _).append run
        -- The next token ends the text of a formatted string, and it is the same.
        · intro frame hframe named hstop
          cases hemits with
          | lexeme _ hlexeme =>
            subst hkind
            cases lexes_of_lexemeAt hlexeme
          | formatText =>
            obtain ⟨kind, text, fields, after, rfl, hfields⟩ := hrest.of_text hframe
            obtain ⟨_, _, last, after', rfl, hothers⟩ := hlater.of_text hframe
            cases hdrops.head
            simp only [List.flatMap_cons, Lexeme.written, List.nil_append, Option.getD_none] at hstop ⊢
            exact hfields.stop (hready'.quote hframe) hothers hframe hstop
          | _ => cases hkind
      refine .token (hleads.congr (.inl ?_)) ?_ hkept hlater
      · exact head?_append_of_ne_nil (by simp [hemits.ne_nil]) _ _
      · rwa [head?_append_of_ne_nil hemits.ne_nil]

/-- The text ends with a line break or it does not, as before. -/
theorem Drops.closed (h : Drops straight new lexemes others) (hnew : IsLiteral new) :
    (others.flatMap Lexeme.written).getLast?.map isLineBreak
      = (lexemes.flatMap Lexeme.written).getLast?.map isLineBreak := by
  induction h with
  | here following _ _ _ hclosing =>
    obtain ⟨c, hc, hbreak⟩ := getLast?_string (hnew ⟨[], [], false, false, false⟩ [])
    simp only [List.flatMap_cons, Lexeme.written, List.getLast?_append, Option.map_or, hc, hclosing.2,
      List.getLast?_singleton, Option.map_some, Option.some_or, hbreak]
    generalize Option.map isLineBreak (following.flatMap Lexeme.written).getLast? = last
    cases last <;> rfl
  | there lexeme _ ih =>
    rw [List.flatMap_cons, List.flatMap_cons, List.getLast?_append, List.getLast?_append, Option.map_or,
      Option.map_or, ih]

/-- No line comes to start with a backslash. -/
theorem Drops.unjoined (h : Drops straight new lexemes others) (hnew : IsLiteral new)
    (hline : ∀ c ∈ new, isLineBreak c = false) {fresh : Bool}
    (hunjoined : unjoined fresh (lexemes.flatMap Lexeme.written) = true) :
    Source.unjoined fresh (others.flatMap Lexeme.written) = true := by
  induction h generalizing fresh with
  | @here outer opening literal closing following _ hopening _ hclosing =>
    have hbehind : Source.unjoined false (following.flatMap Lexeme.written) = true := by
      simp only [List.flatMap_cons, ← List.append_assoc] at hunjoined
      exact unjoined_append hunjoined
    simp only [List.flatMap_cons, Lexeme.written, List.append_assoc, Option.getD_none, List.nil_append]
      at hunjoined ⊢
    rw [unjoined_append_eq, unjoined_append_eq, unjoined_append_eq, unjoined_append_eq, Bool.and_eq_true,
      Bool.and_eq_true, Bool.and_eq_true, Bool.and_eq_true] at hunjoined ⊢
    rw [unjoined_word _ hnew.isFirm hline]
    exact ⟨hunjoined.1, hunjoined.2.1, hunjoined.2.2.1, hunjoined.2.2.2.1, hbehind⟩
  | there lexeme _ ih =>
    rw [List.flatMap_cons, unjoined_append_eq, Bool.and_eq_true] at hunjoined ⊢
    exact ⟨hunjoined.1, ih hunjoined.2⟩

/-! ### From lexemes to tokens -/

theorem split_marks {marks fore tokens rest : List Token} {token outer : Token}
    (hmarks : ∀ token ∈ marks, token = mark .indent ∨ token = mark .dedent)
    (houter : outer.kind ≠ .indent ∧ outer.kind ≠ .dedent)
    (h : marks ++ token :: tokens = fore ++ outer :: rest) :
    fore = marks ∧ token = outer ∧ tokens = rest
      ∨ ∃ more, fore = marks ++ token :: more ∧ tokens = more ++ outer :: rest := by
  rcases List.append_eq_append_iff.1 h with ⟨tail, rfl, htail⟩ | ⟨tail, rfl, htail⟩
  · cases tail with
    | nil =>
      obtain ⟨rfl, rfl⟩ := List.cons.inj htail
      exact .inl ⟨List.append_nil _, rfl, rfl⟩
    | cons first tail =>
      obtain ⟨rfl, rfl⟩ := List.cons.inj htail
      exact .inr ⟨tail, rfl, rfl⟩
  · cases tail with
    | nil =>
      obtain ⟨rfl, rfl⟩ := List.cons.inj htail
      exact .inl ⟨(List.append_nil _).symm, rfl, rfl⟩
    | cons first tail =>
      obtain ⟨rfl, -⟩ := List.cons.inj htail
      rcases hmarks outer (by simp) with rfl | rfl
      · exact absurd rfl houter.1
      · exact absurd rfl houter.2

theorem exists_lexeme {levels : List Level} {token : Token} {rest : List Token}
    (hkind : token.kind ≠ .indent ∧ token.kind ≠ .dedent)
    (h : layoutFrom levels lexemes = .ok (token :: rest)) :
    ∃ lexeme following margin after, lexemes = lexeme :: following ∧ Lays levels lexeme [] margin after
      ∧ layoutFrom after following = .ok rest
      ∧ token = ⟨lexeme.kind, lexeme.before, margin, lexeme.text⟩ := by
  cases lexemes with
  | nil => cases h
  | cons lexeme following =>
    obtain ⟨marks, margin, after, tokens, hlays, hfollowing, heq⟩ := layoutFrom_cons_iff.1 h
    have hsplit : marks ++ ⟨lexeme.kind, lexeme.before, margin, lexeme.text⟩ :: tokens
        = [] ++ token :: rest := heq.symm
    rcases split_marks hlays.marks hkind hsplit with ⟨rfl, rfl, rfl⟩ | ⟨more, hnil, -⟩
    · exact ⟨lexeme, following, margin, after, rfl, hlays, hfollowing, rfl⟩
    · simp at hnil

theorem Lays.of_none {levels after : List Level} {lexeme : Lexeme} {marks : List Token} {margin : List Char}
    (h : Lays levels lexeme marks margin after) (hnone : lexeme.indentation = none)
    (hkind : lexeme.kind ≠ .finish) : margin = [] ∧ after = levels := by
  cases h with
  | finish hfinish => exact absurd hfinish hkind
  | within => exact ⟨rfl, rfl⟩
  | line _ hsome => cases hnone.symm.trans hsome

theorem exists_drops {levels : List Level} {fore rest : List Token} {outer opening literal closing : Token}
    (hscans : Scans mode lexemes) (hsound : mode.Sound)
    (h : layoutFrom levels lexemes = .ok (fore ++ outer :: opening :: literal :: closing :: rest))
    (houter : outer.kind = .operator ∧ outer.text = ['('])
    (hopening : opening.kind = .operator ∧ opening.text = ['(']) (hliteral : literal.kind = .string)
    (hclosing : closing.kind = .operator ∧ closing.text = [')'])
    (hquiet : Quiet straight (literal.before ++ closing.before)) :
    ∃ others, Drops straight new lexemes others ∧ layoutFrom levels others
      = .ok (fore ++ outer :: { opening with kind := .string, text := new } :: rest) := by
  induction hscans generalizing levels fore with
  | finish =>
    have hmem : outer ∈ fore ++ outer :: opening :: literal :: closing :: rest := by simp
    obtain ⟨lexeme, hlexeme, hsame, -⟩ := exists_lexeme_of_mem h hmem (by simp [houter.1])
    rcases kind_of_mem_lastLexemes hlexeme with hkind | hkind
    · simp [hkind, houter.1] at hsame
    · simp [hkind, houter.1] at hsame
  | @token mode middle ready next lexeme following hleads hready hemits hrest ih =>
    obtain ⟨marks, margin, after, tokens, hlays, hfollowing, heq⟩ := layoutFrom_cons_iff.1 h
    have hinside := hemits.sound (hready.sound (hleads.sound hsound))
    rcases split_marks hlays.marks (by simp [houter.1]) heq.symm with ⟨rfl, rfl, rfl⟩ | ⟨more, rfl, rfl⟩
    · obtain ⟨lexeme₁, more₁, margin₁, after₁, rfl, hlays₁, hmore₁, rfl⟩ :=
        exists_lexeme (by simp [hopening.1]) hfollowing
      obtain ⟨lexeme₂, more₂, margin₂, after₂, rfl, hlays₂, hmore₂, rfl⟩ :=
        exists_lexeme (by simp [hliteral]) hmore₁
      obtain ⟨lexeme₃, more₃, margin₃, after₃, rfl, hlays₃, hmore₃, rfl⟩ :=
        exists_lexeme (by simp [hclosing.1]) hmore₂
      simp only at houter hopening hliteral hclosing hquiet
      have hclosers : next.closers ≠ [] := by
        rw [houter.1, houter.2] at hemits
        rw [hemits.eq_opened.2.2]
        exact List.cons_ne_nil _ _
      obtain ⟨hnone₁, hnone₂, hnone₃, -⟩ := hrest.drop_parens hinside hclosers hopening hliteral hclosing
      obtain ⟨rfl, rfl⟩ := hlays₁.of_none hnone₁ (by simp [hopening.1])
      obtain ⟨rfl, rfl⟩ := hlays₂.of_none hnone₂ (by simp [hliteral])
      obtain ⟨rfl, rfl⟩ := hlays₃.of_none hnone₃ (by simp [hclosing.1])
      refine ⟨_, .here more₃ houter hopening hliteral hclosing hquiet,
        layoutFrom_cons_iff.2 ⟨_, _, _, _, hlays, layoutFrom_cons_iff.2 ?_, rfl⟩⟩
      exact ⟨[], [], _, rest, .within nofun rfl, hmore₃, rfl⟩
    · obtain ⟨others, hdrops, hothers⟩ := ih hinside hfollowing
      refine ⟨lexeme :: others, .there lexeme hdrops, ?_⟩
      rw [List.append_assoc, List.cons_append]
      exact layoutFrom_cons_iff.2 ⟨_, _, _, _, hlays, hothers, rfl⟩

/-! ### The whole text -/

/-- In the tokens, a string loses a pair of parentheses behind an opening one. -/
inductive Sheds (straight : Prop) : List Token → List Token → Prop
  | mk {fore rest : List Token} {outer opening literal closing : Token} {new : List Char}
      (houter : outer.kind = .operator ∧ outer.text = ['('])
      (hopening : opening.kind = .operator ∧ opening.text = ['(']) (hliteral : literal.kind = .string)
      (hclosing : closing.kind = .operator ∧ closing.text = [')']) (hnew : IsLiteral new)
      (hline : ∀ c ∈ new, isLineBreak c = false) (hquiet : Quiet straight (literal.before ++ closing.before)) :
    Sheds straight (fore ++ outer :: opening :: literal :: closing :: rest)
      (fore ++ outer :: { opening with kind := .string, text := new } :: rest)

theorem Sheds.between {tokens result : List Token} (h : Sheds straight tokens result) (fore rest : List Token) :
    Sheds straight (fore ++ tokens ++ rest) (fore ++ result ++ rest) := by
  cases h with
  | @mk first more outer opening literal closing _ houter hopening hliteral hclosing hnew hline hquiet =>
    have h : Sheds straight ((fore ++ first) ++ outer :: opening :: literal :: closing :: (more ++ rest)) _ :=
      .mk houter hopening hliteral hclosing hnew hline hquiet
    simpa using h

/-- The tokens without the parentheses are those of a text. -/
theorem Sheds.exists_tokens {text : List Char} {toks result : List Token} (h : Sheds straight toks result)
    (htokens : tokens text = .ok toks) (hstraight : straight → unjoined true text = true) :
    ∃ other, tokens other = .ok result ∧ (straight → unjoined true other = true) := by
  cases h with
  | mk houter hopening hliteral hclosing hnew hline hquiet =>
    obtain ⟨lexemes, hlexemes, hlayout⟩ := bind_eq_ok_iff.1 htokens
    obtain ⟨hscans, rfl⟩ := lexemes_eq_ok_iff.1 hlexemes
    obtain ⟨others, hdrops, hagain⟩ :=
      exists_drops hscans (sound_start _) hlayout houter hopening hliteral hclosing hquiet
    have hanew := hscans.drop (sound_start _) hnew (fun h => ⟨hstraight h, .inl rfl⟩) hdrops
    have hstart : Mode.start (lexemes.flatMap Lexeme.written) = .start (others.flatMap Lexeme.written) := by
      rw [Mode.start, Mode.start, hdrops.closed hnew]
    refine ⟨others.flatMap Lexeme.written, ?_, fun h => hdrops.unjoined hnew hline (hstraight h)⟩
    rw [tokens, lexemes_eq_ok_iff.2 ⟨hstart ▸ hanew, rfl⟩]
    exact hagain

/-- What holds of a token behind a number still holds. -/
theorem Sheds.isChain {toks result : List Token} {allowed : Token → Prop} (h : Sheds straight toks result)
    (hchain : toks.IsChain fun token later => token.kind = .number → allowed later) :
    result.IsChain fun token later => token.kind = .number → allowed later := by
  cases h with
  | @mk fore rest outer opening literal closing new houter =>
    rw [List.isChain_split, List.isChain_cons_cons, List.isChain_cons_cons, List.isChain_cons_cons] at hchain
    rw [List.isChain_split, List.isChain_cons_cons, List.isChain_cons]
    exact ⟨hchain.1, by simp [houter.1], by simp, hchain.2.2.2.2.tail⟩

end Drops

end Bundler.Source
