import Bundler.Proofs.Source.Layout
import Bundler.Proofs.Source.Recast

/-!
# Tokens that are written anew

The text of the tokens of a module has these tokens again, each line now indented as its block is. The
same holds when names and strings of calls are exchanged in the tokens (`tokens_shownText`), if no name
that gives way stands behind a number.
-/

namespace Bundler.Source

variable {load runtime : List Char} {mode next : Mode} {kind : TokenKind} {text new rest : List Char}

/-! ### Blocks -/

/-- The widths of a block are those of its own indentation. -/
def Level.Exact (level : Level) : Prop := widths level.margin = (level.column, level.narrow)

theorem exact_innermost {levels : List Level} (h : ∀ level ∈ levels, level.Exact) :
    (innermost levels).Exact := by
  cases levels with
  | nil => rfl
  | cons level outer => exact h level List.mem_cons_self

/-- A line may as well be indented as its block is. -/
theorem indent_margin {levels after : List Level} {indentation : List Char} {marks : List Token}
    (hlevels : ∀ level ∈ levels, level.Exact) (h : indent levels indentation = .ok (marks, after)) :
    indent levels (innermost after).margin = .ok (marks, after) ∧ ∀ level ∈ after, level.Exact := by
  rw [indent_eq_ok_iff] at h ⊢
  cases h with
  | stays => exact ⟨.stays (exact_innermost hlevels), hlevels⟩
  | begins hwidths hcolumn hnarrow hroom =>
    exact ⟨.begins hwidths hcolumn hnarrow hroom, List.forall_mem_cons.2 ⟨hwidths, hlevels⟩⟩
  | ends _ hcolumn hleft =>
    have hafter : ∀ level ∈ after, level.Exact := fun level hlevel =>
      hlevels level (mem_of_closeLevels hleft level hlevel)
    exact ⟨.ends (exact_innermost hafter) hcolumn hleft, hafter⟩

/-! ### From lexemes to tokens -/

/-- Tokens whose texts are exchanged. -/
inductive Swaps (load runtime : List Char) : Stage → List Token → List Token → Prop
  | nil : Swaps load runtime .free [] []
  | cons {stage after : Stage} {kind : TokenKind} {before margin text new : List Char}
      {others more : List Token} (hchange : Change load runtime stage kind text new after)
      (hrest : Swaps load runtime after others more) :
    Swaps load runtime stage (⟨kind, before, margin, text⟩ :: others) (⟨kind, before, margin, new⟩ :: more)

theorem Swaps.refl (tokens : List Token) :
    Swaps load runtime .free tokens tokens := by
  induction tokens with
  | nil => exact .nil
  | cons token rest ih => exact .cons (.kept _ _) ih

theorem Swaps.append {stage : Stage} {tokens others more last : List Token}
    (h : Swaps load runtime stage tokens others) (hmore : Swaps load runtime .free more last) :
    Swaps load runtime stage (tokens ++ more) (others ++ last) := by
  induction h with
  | nil => exact hmore
  | cons hchange _ ih => exact .cons hchange ih

theorem swaps_marks {stage : Stage} {marks others result : List Token}
    (hmarks : ∀ token ∈ marks, token = mark .indent ∨ token = mark .dedent)
    (h : Swaps load runtime stage (marks ++ others) result) :
    ∃ more, result = marks ++ more ∧ Swaps load runtime stage others more := by
  induction marks generalizing stage result with
  | nil => exact ⟨result, rfl, h⟩
  | cons token marks ih =>
    rw [List.forall_mem_cons] at hmarks
    have hkept : ∃ more, stage = .free ∧ result = token :: more
        ∧ Swaps load runtime .free (marks ++ others) more := by
      rcases hmarks.1 with rfl | rfl
      · cases h with
        | cons hchange hrest =>
        obtain ⟨rfl, rfl, rfl⟩ := hchange.of_ne nofun nofun nofun
        exact ⟨_, rfl, rfl, hrest⟩
      · cases h with
        | cons hchange hrest =>
        obtain ⟨rfl, rfl, rfl⟩ := hchange.of_ne nofun nofun nofun
        exact ⟨_, rfl, rfl, hrest⟩
    obtain ⟨more, rfl, rfl, hrest⟩ := hkept
    obtain ⟨last, rfl, hlast⟩ := ih hmarks.2 hrest
    exact ⟨last, rfl, hlast⟩

theorem shownText_marks {marks : List Token}
    (hmarks : ∀ token ∈ marks, token = mark .indent ∨ token = mark .dedent) : shownText marks = [] := by
  rw [shownText, List.flatMap_eq_nil_iff]
  intro token htoken
  rcases hmarks token htoken with rfl | rfl <;> rfl

theorem Lays.anew {levels after : List Level} {marks : List Token} {before text margin : List Char}
    {indentation : Option (List Char)} (hlevels : ∀ level ∈ levels, level.Exact ∧ IsBlank level.margin)
    (hblank : ∀ blanks, indentation = some blanks → IsBlank blanks)
    (h : Lays levels ⟨kind, before, indentation, text⟩ marks margin after) (new : List Char) :
    ∃ indented, Reindents indentation indented ∧ indented.getD [] = margin
      ∧ Lays levels ⟨kind, before, indented, new⟩ marks margin after
      ∧ ∀ level ∈ after, level.Exact ∧ IsBlank level.margin := by
  cases h with
  | finish hkind =>
    cases indentation with
    | none => exact ⟨none, .none, rfl, .finish hkind, nofun⟩
    | some blanks => exact ⟨some [], .some blanks nofun, rfl, .finish hkind, nofun⟩
  | within hkind hnone =>
    cases hnone
    exact ⟨none, .none, rfl, .within hkind rfl, hlevels⟩
  | line hkind hsome hindent =>
    cases hsome
    obtain ⟨hagain, hexact⟩ := indent_margin (fun level hlevel => (hlevels level hlevel).1) hindent
    have hafter : ∀ level ∈ after, level.Exact ∧ IsBlank level.margin := by
      intro level hlevel
      refine ⟨hexact level hlevel, ?_⟩
      rcases margin_of_indent hindent level hlevel with hlevel | hmargin
      · exact (hlevels level hlevel).2
      · exact hmargin ▸ hblank _ rfl
    have hmargin := isBlank_innermost fun level hlevel => (hafter level hlevel).2
    exact ⟨some _, .some _ hmargin, rfl, .line hkind rfl hagain, hafter⟩

/-- The lexemes of tokens that are written anew. -/
theorem exists_recast {stage : Stage} {levels : List Level} {lexemes : List Lexeme}
    {tokens others : List Token} (hlevels : ∀ level ∈ levels, level.Exact ∧ IsBlank level.margin)
    (hindented : ∀ lexeme ∈ lexemes, lexeme.Indented) (h : layoutFrom levels lexemes = .ok tokens)
    (hswaps : Swaps load runtime stage tokens others) :
    ∃ anew, Recast load runtime stage lexemes anew ∧ layoutFrom levels anew = .ok others
      ∧ anew.flatMap Lexeme.written = shownText others := by
  induction lexemes generalizing stage levels tokens others with
  | nil =>
    rw [layoutFrom] at h
    cases h
    cases hswaps
    exact ⟨[], .nil, by rw [layoutFrom], rfl⟩
  | cons lexeme rest ih =>
    obtain ⟨kind, before, indentation, text⟩ := lexeme
    rw [List.forall_mem_cons] at hindented
    obtain ⟨marks, margin, after, following, hlays, hfollowing, rfl⟩ := layoutFrom_cons_iff.1 h
    obtain ⟨more, rfl, hmore⟩ := swaps_marks hlays.marks hswaps
    cases hmore with
    | @cons _ _ _ _ _ _ new _ last hchange hlast =>
    obtain ⟨indented, hindents, rfl, hagain, hafter⟩ :=
      hlays.anew hlevels (fun blanks hblanks => (hindented.1 blanks hblanks).1) new
    obtain ⟨anew, hrecast, hlayout, hwritten⟩ := ih hafter hindented.2 hfollowing hlast
    refine ⟨⟨kind, before, indented, new⟩ :: anew, .cons hchange hindents hrecast,
      layoutFrom_cons_iff.2 ⟨_, _, _, _, hagain, hlayout, rfl⟩, ?_⟩
    rw [shownText_append, shownText_marks hlays.marks, List.flatMap_cons, hwritten]
    rfl

/-- Lexemes side by side are tokens side by side, unless a line starts with the second. -/
theorem isChain_lexemes {levels : List Level} {lexemes : List Lexeme} {tokens : List Token}
    (h : layoutFrom levels lexemes = .ok tokens)
    (hnumbers : tokens.IsChain fun token later =>
      token.kind = .number → ¬(later.kind = .name ∧ later.text = load)) :
    lexemes.IsChain fun lexeme later => lexeme.kind = .number → ¬later.IsBare load := by
  induction lexemes generalizing levels tokens with
  | nil => exact .nil
  | cons lexeme rest ih =>
    obtain ⟨marks, margin, after, following, -, hfollowing, rfl⟩ := layoutFrom_cons_iff.1 h
    have hchain := (List.isChain_append.1 hnumbers).2.1
    rw [List.isChain_cons] at hchain ⊢
    refine ⟨fun later hlater hkind hbare => ?_, ih hfollowing hchain.2⟩
    obtain ⟨others, rfl⟩ := List.head?_eq_some_iff.1 hlater
    obtain ⟨_, _, _, last, hlays, -, rfl⟩ := layoutFrom_cons_iff.1 hfollowing
    obtain ⟨hname, htext, -, hnone⟩ := hbare
    cases hlays with
    | finish hfinish =>
      rw [hname] at hfinish
      cases hfinish
    | line _ hsome =>
      rw [hnone] at hsome
      cases hsome
    | within => exact hchain.1 _ rfl hkind ⟨hname, htext⟩

/-! ### The end of the text -/

theorem getLast?_stringRest {quote : Char} {triple : Bool} {chars run left : List Char}
    (h : stringRest quote triple chars = some (run, left)) : run.getLast? = some quote := by
  have hcons : ∀ {first more : List Char}, more.getLast? = some quote →
      (first ++ more).getLast? = some quote := by
    intro first more hmore
    rw [List.getLast?_append, hmore]
    rfl
  fun_induction stringRest quote triple chars generalizing run with
  | case1 => cases h
  | case2 rest ih =>
    obtain ⟨more, hmore, rfl⟩ := exists_of_map ['\\', '\r', '\n'] h
    exact hcons (ih hmore)
  | case3 c rest hshape ih =>
    obtain ⟨more, hmore, rfl⟩ := exists_of_map ['\\', c] h
    exact hcons (ih hmore)
  | case4 =>
    cases h
    rfl
  | case5 rest _ _ _ _ ih =>
    obtain ⟨more, hmore, rfl⟩ := exists_of_map [quote] h
    exact hcons (ih hmore)
  | case6 =>
    cases h
    rfl
  | case7 => cases h
  | case8 c rest _ _ _ _ ih =>
    obtain ⟨more, hmore, rfl⟩ := exists_of_map [c] h
    exact hcons (ih hmore)

theorem getLast?_string (h : lexemeAt mode (text ++ rest) = .ok (.string, text, rest, next)) :
    ∃ c, text.getLast? = some c ∧ isLineBreak c = false := by
  cases hopens : stringPrefix? (text ++ rest) with
  | none =>
    obtain ⟨c, more, rfl⟩ := List.exists_cons_of_ne_nil (lexemeAt_ne_nil h)
    unfold lexemeAt at h
    rw [hopens] at h
    grind
  | some part =>
    obtain ⟨letters, quoted⟩ := part
    obtain ⟨quote, more, rfl, hquote⟩ := exists_quote_of_stringPrefix? hopens
    have hhead : (openingQuotes (quote :: more)).1.headD '"' = quote := by
      rw [openingQuotes]
      split <;> rfl
    unfold lexemeAt at h
    rw [hopens] at h
    simp only [hhead] at h
    split at h
    · cases h
    · split at h
      next hbody =>
        simp only [Except.ok.injEq, Prod.mk.injEq, true_and] at h
        refine ⟨quote, ?_, by rcases hquote with rfl | rfl <;> rfl⟩
        rw [← h.1, List.getLast?_append, getLast?_stringRest hbody]
        rfl
      · cases h

theorem getLast?_name (h : Text.isIdentifier text = true) :
    ∃ c, text.getLast? = some c ∧ isLineBreak c = false := by
  obtain ⟨⟨c, more, rfl, -⟩, hparts⟩ := isNamePart_of_isIdentifier h
  have hlast := List.getLast?_eq_some_getLast (List.cons_ne_nil c more)
  refine ⟨_, hlast, ?_⟩
  exact (isFirm_iff.1 (isFirm_of_isNamePart (hparts _ (List.mem_of_getLast? hlast)))).2.2.2

/-- The text ends with a line break or it does not, as before. -/
theorem Scans.closed {stage : Stage} {lexemes others : List Lexeme} (hload : Text.isIdentifier load = true)
    (hruntime : Text.isIdentifier runtime = true) (h : Scans mode lexemes)
    (hrecast : Recast load runtime stage lexemes others) :
    (others.flatMap Lexeme.written).getLast?.map isLineBreak
      = (lexemes.flatMap Lexeme.written).getLast?.map isLineBreak := by
  induction h generalizing stage others with
  | finish =>
    obtain ⟨rfl, -⟩ := recast_lastLexemes hrecast
    rfl
  | @token mode middle ready next lexeme following hleads hready hemits hrest ih =>
    cases hrecast with
    | @cons _ after kind before text new indentation margin _ more hchange hindent hmore =>
    simp only at hemits
    have hlast : ∃ c d, text.getLast? = some c ∧ new.getLast? = some d ∧ isLineBreak d = isLineBreak c := by
      cases hchange with
      | kept =>
        have hsome := List.getLast?_eq_some_getLast hemits.ne_nil
        exact ⟨_, _, hsome, hsome, rfl⟩
      | opening => exact ⟨'(', '(', rfl, rfl, rfl⟩
      | name =>
        obtain ⟨c, hc, hcbreak⟩ := getLast?_name hload
        obtain ⟨d, hd, hdbreak⟩ := getLast?_name hruntime
        exact ⟨c, d, hc, hd, by rw [hcbreak, hdbreak]⟩
      | literal _ hnew =>
        obtain ⟨c, hc, hcbreak⟩ := getLast?_string (hemits.eq_lexemeAt (.inr (.inl rfl))).2
        obtain ⟨d, hd, hdbreak⟩ := getLast?_string (hnew mode [])
        exact ⟨c, d, hc, hd, by rw [hcbreak, hdbreak]⟩
    obtain ⟨c, d, hc, hd, hbreak⟩ := hlast
    simp only [List.flatMap_cons, Lexeme.written, List.getLast?_append, Option.map_or, ih hmore, hc, hd,
      Option.some_or, Option.map_some, hbreak]

/-! ### The whole text -/

theorem isLineBreak_of_all {text : List Char} (h : text.all (fun c => !isLineBreak c) = true) :
    ∀ c ∈ text, isLineBreak c = false := by
  simpa using h

theorem sound_start (chars : List Char) : (Mode.start chars).Sound := ⟨nofun, nofun⟩

/-- The text of tokens that are exchanged has these tokens. -/
theorem tokens_shownText {chars : List Char} {toks others : List Token}
    (hload : Text.isIdentifier load = true) (hruntime : Text.isIdentifier runtime = true)
    (h : tokens chars = .ok toks) (hswaps : Swaps load runtime .free toks others)
    (hnumbers : toks.IsChain fun token later =>
      token.kind = .number → ¬(later.kind = .name ∧ later.text = load)) :
    tokens (shownText others) = .ok others := by
  obtain ⟨lexemes, hlexemes, hlayout⟩ := bind_eq_ok_iff.1 h
  obtain ⟨hscans, rfl⟩ := lexemes_eq_ok_iff.1 hlexemes
  have hindented := (written_lexemes hlexemes).2
  obtain ⟨anew, hrecast, hagain, hwritten⟩ := exists_recast (by simp) hindented hlayout hswaps
  have hanew := hscans.recast hload hruntime hrecast (sound_start _) (isChain_lexemes hlayout hnumbers)
  have hstart : Mode.start (lexemes.flatMap Lexeme.written) = .start (anew.flatMap Lexeme.written) := by
    rw [Mode.start, Mode.start, hscans.closed hload hruntime hrecast]
  rw [tokens, ← hwritten, lexemes_eq_ok_iff.2 ⟨hstart ▸ hanew, rfl⟩]
  exact hagain

end Bundler.Source
