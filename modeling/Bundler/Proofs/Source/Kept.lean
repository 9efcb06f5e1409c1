import Bundler.Proofs.Source.Modes

/-!
# Tokens before another text

A token that the lexer reads before one text it reads before another one, too, if the two start alike
(`Emits.kept`). A name may be read in the place of another, and a string that is complete in the place of
any token (`IsLiteral`).
-/

namespace Bundler.Source

variable {mode next : Mode} {kind : TokenKind} {text rest other : List Char}

/-! ### The text of formatted strings -/

theorem formatRun_eq_nil_iff {frame : Frame} {named : Bool} {c : Char} {rest : List Char}
    (hquote : frame.quote = '"' ∨ frame.quote = '\'') :
    formatRun frame named (c :: rest) = some ([], c :: rest) ↔
      c = '{' ∧ (frame.inSpec = true ∨ rest.head? ≠ some '{')
      ∨ c = '}' ∧ named = false ∧ (frame.inSpec = true ∨ rest.head? ≠ some '}')
      ∨ (c ≠ '\\' ∧ c ≠ '{' ∧ c ≠ '}') ∧ (frame.closing.isPrefixOf (c :: rest) = true
        ∨ isLineBreak c = true ∧ frame.triple = false ∧ frame.inSpec = true) := by
  have hhead : ∀ {d : Char} {others : List Char}, (∀ more, others ≠ d :: more) → others.head? ≠ some d := by
    intro d others h heq
    obtain ⟨more, rfl⟩ := List.head?_eq_some_iff.1 heq
    exact h more rfl
  have hback : ∀ others, ¬frame.closing <+: '\\' :: others := by
    rintro others ⟨more, heq⟩
    rw [Frame.closing] at heq
    split at heq <;> rcases hquote with hquote | hquote <;> simp [hquote] at heq
  generalize hchars : c :: rest = chars
  fun_cases formatRun frame named chars <;> simp_all
  case case14 hopens =>
    rintro rfl
    exact hback _ hopens
  case case15 hline _ =>
    rintro rfl
    cases hline.1

theorem closing_eq (frame : Frame) : ∃ more, frame.closing = frame.quote :: more := by
  rw [Frame.closing]
  split <;> exact ⟨_, rfl⟩

theorem isPrefixOf_closing_cons {frame : Frame} {c : Char} (hc : frame.quote ≠ c) (rest : List Char) :
    frame.closing.isPrefixOf (c :: rest) = false := by
  obtain ⟨more, hmore⟩ := closing_eq frame
  rw [hmore]
  simp [List.isPrefixOf, hc]

theorem formatRun_closing {frame : Frame} (hquote : frame.quote = '"' ∨ frame.quote = '\'') (named : Bool)
    (rest : List Char) :
    formatRun frame named (frame.closing ++ rest) = some ([], frame.closing ++ rest) := by
  obtain ⟨more, hmore⟩ := closing_eq frame
  have hopens : frame.closing.isPrefixOf (frame.closing ++ rest) = true := by simp
  rw [hmore, List.cons_append] at hopens ⊢
  refine (formatRun_eq_nil_iff hquote).2 (.inr (.inr ⟨?_, .inl (hmore ▸ hopens)⟩))
  rcases hquote with hquote | hquote <;> rw [hquote] <;> decide

/-- Text that ends somewhere while a character's name is open ends there all the same when none is. -/
theorem formatRun_true {frame : Frame} (hquote : frame.quote = '"' ∨ frame.quote = '\'')
    (hrest : rest ≠ []) (h : formatRun frame true rest = some ([], rest)) :
    rest.head? ≠ some '}' ∧ formatRun frame false rest = some ([], rest) := by
  obtain ⟨c, more, rfl⟩ := List.exists_cons_of_ne_nil hrest
  rw [formatRun_eq_nil_iff hquote] at h ⊢
  grind

theorem formatRun_of_false {frame : Frame} (hquote : frame.quote = '"' ∨ frame.quote = '\'')
    (hrest : rest ≠ []) (hhead : rest.head? ≠ some '}') (named : Bool)
    (h : formatRun frame false rest = some ([], rest)) :
    formatRun frame named rest = some ([], rest) := by
  obtain ⟨c, more, rfl⟩ := List.exists_cons_of_ne_nil hrest
  rw [formatRun_eq_nil_iff hquote] at h ⊢
  grind

theorem Mode.Sound.quote {frame : Frame} (h : mode.Sound) (hframe : mode.textFrame? = some frame) :
    frame.quote = '"' ∨ frame.quote = '\'' := by
  obtain ⟨hhead, -⟩ := Option.filter_eq_some_iff.1 hframe
  exact h.quoted frame (List.mem_of_head? hhead)

/-! ### A token that is kept -/

theorem Emits.kept (h : Emits mode kind text rest next) (hsound : mode.Sound)
    (hakin : next.lineStart = false → Akin rest other) (hnear : kind = .number → Near rest other)
    (hbreak : other.head? = some '\n' → rest.head? = some '\n')
    (htext : kind = .formatText → other.head? = rest.head? ∧ ∀ frame, mode.textFrame? = some frame →
      ∀ named, formatRun frame named rest = some ([], rest) →
        formatRun frame named other = some ([], other)) :
    Emits mode kind text other next := by
  have hline : ∀ {frame : Frame}, mode.textFrame? = some frame → mode.lineStart = false :=
    fun hframe => hsound.line (by simp [hframe])
  cases h with
  | formatText hframe hne hrun =>
    obtain ⟨hhead, hstop⟩ := htext rfl
    exact .formatText hframe hne (formatRun_append hrun hhead (hstop _ hframe))
  | formatEnd hframe => exact .formatEnd hframe (formatRun_closing (hsound.quote hframe) _ _)
  | @fieldStart frame _ hframe hrun =>
    have hne : frame.quote ≠ '{' := by rcases hsound.quote hframe with heq | heq <;> rw [heq] <;> decide
    refine .fieldStart hframe ?_ (isPrefixOf_closing_cons hne other)
    rw [formatRun_eq_nil_iff (hsound.quote hframe)] at hrun ⊢
    have hbrace := (hakin (hline hframe)).head_of_not (c := '{') rfl
    rcases hrun with ⟨-, hspec | hrest⟩ | ⟨heq, -⟩ | ⟨⟨-, heq, -⟩, -⟩
    · exact .inl ⟨rfl, .inl hspec⟩
    · exact .inl ⟨rfl, .inr fun hother => hrest (hbrace hother)⟩
    · cases heq
    · exact absurd rfl heq
  | @specEnd frame _ hframe _ _ hspec hcloser =>
    have hne : frame.quote ≠ '}' := by rcases hsound.quote hframe with heq | heq <;> rw [heq] <;> decide
    refine .specEnd hframe ?_ (isPrefixOf_closing_cons hne other) hspec hcloser
    exact (formatRun_eq_nil_iff (hsound.quote hframe)).2 (.inr (.inl ⟨rfl, rfl, .inl hspec⟩))
  | newline hframe hstart hend hblank hclosers =>
    refine .newline hframe hstart ?_ hblank hclosers
    rcases hend with rfl | rfl | ⟨rfl, hne⟩
    · exact .inl rfl
    · exact .inr (.inl rfl)
    · exact .inr (.inr ⟨rfl, fun hother => hne (hbreak hother)⟩)
  | lexeme hstarts hlexeme =>
    refine .lexeme ?_ (lexemeAt_append hlexeme (hakin ?_) hnear)
    · obtain ⟨hframe, hstart, c, hhead, hfirm⟩ := starts_iff.1 hstarts
      obtain ⟨d, more, rfl⟩ := List.exists_cons_of_ne_nil (lexemeAt_ne_nil hlexeme)
      exact starts_iff.2 ⟨hframe, hstart, c, hhead, hfirm⟩
    · rw [(lexes_of_lexemeAt hlexeme).lineStart]
      exact hstarts.2.1

theorem Emits.eq_lexemeAt (h : Emits mode kind text rest next)
    (hkind : kind = .name ∨ kind = .string ∨ kind = .operator ∧ text = ['(']) :
    Starts mode (text ++ rest) ∧ Source.lexemeAt mode (text ++ rest) = .ok (kind, text, rest, next) := by
  cases h with
  | lexeme hstarts hlexeme => exact ⟨hstarts, hlexeme⟩
  | _ => simp_all [Frame.closing]

theorem Emits.isFirm (h : Emits mode kind text rest next) (hkind : kind = .name ∨ kind = .string) :
    ∃ c, text.head? = some c ∧ IsFirm c := by
  obtain ⟨hstarts, -⟩ := h.eq_lexemeAt (by tauto)
  obtain ⟨-, -, c, hhead, hc⟩ := starts_iff.1 hstarts
  obtain ⟨d, run, rfl⟩ := List.exists_cons_of_ne_nil h.ne_nil
  exact ⟨c, hhead, hc⟩

theorem Emits.halts {frame : Frame} (h : Emits mode kind text rest next)
    (hframe : mode.textFrame? = some frame) :
    kind = .formatText ∧ formatRun frame false (text ++ rest) = some (text, rest)
      ∨ kind ≠ .formatText ∧ formatRun frame false (text ++ rest) = some ([], text ++ rest) := by
  cases h with
  | formatText hsome _ hrun =>
    cases hframe.symm.trans hsome
    exact .inl ⟨rfl, hrun⟩
  | formatEnd hsome hrun =>
    cases hframe.symm.trans hsome
    exact .inr ⟨nofun, hrun⟩
  | fieldStart hsome hrun =>
    cases hframe.symm.trans hsome
    exact .inr ⟨nofun, hrun⟩
  | specEnd hsome hrun =>
    cases hframe.symm.trans hsome
    exact .inr ⟨nofun, hrun⟩
  | newline hnone => cases hframe.symm.trans hnone
  | lexeme hstarts => cases hframe.symm.trans hstarts.1

theorem Emits.stop {frame : Frame} {after : Mode} {named : Bool}
    (hquote : frame.quote = '"' ∨ frame.quote = '\'') (h : Emits mode kind text rest next)
    (hother : Emits mode kind text other after) (hframe : mode.textFrame? = some frame)
    (hstop : formatRun frame named (text ++ rest) = some ([], text ++ rest)) :
    formatRun frame named (text ++ other) = some ([], text ++ other) := by
  obtain ⟨c, run, rfl⟩ := List.exists_cons_of_ne_nil h.ne_nil
  have hfalse : formatRun frame false (c :: run ++ rest) = some ([], c :: run ++ rest)
      ∧ (named = true → c ≠ '}') := by
    cases named with
    | false => exact ⟨hstop, nofun⟩
    | true =>
      obtain ⟨hhead, hfalse⟩ := formatRun_true hquote (List.cons_ne_nil _ _) hstop
      exact ⟨hfalse, fun _ heq => hhead (congrArg some heq)⟩
  have hagain : formatRun frame false (c :: run ++ other) = some ([], c :: run ++ other) := by
    rcases h.halts hframe with ⟨-, hrun⟩ | ⟨hkind, -⟩
    · rw [hfalse.1] at hrun
      cases hrun
    · rcases hother.halts hframe with ⟨htext, -⟩ | ⟨-, hrun⟩
      · exact absurd htext hkind
      · exact hrun
  cases named with
  | false => exact hagain
  | true =>
    refine formatRun_of_false hquote (List.cons_ne_nil _ _) (fun heq => ?_) _ hagain
    exact hfalse.2 rfl (Option.some.inj heq)

theorem Scans.of_text {frame : Frame} {lexemes : List Lexeme} (h : Scans mode lexemes)
    (hframe : mode.textFrame? = some frame) : ∃ kind text others next,
      lexemes = ⟨kind, [], none, text⟩ :: others
        ∧ Emits mode kind text (others.flatMap Lexeme.written) next := by
  have hne : mode.textFrame? ≠ none := by simp [hframe]
  cases h with
  | @token _ middle ready next lexeme others hleads hready hemits =>
    obtain ⟨kind, before, indentation, text⟩ := lexeme
    obtain ⟨rfl, rfl⟩ := hleads.of_text hne
    obtain ⟨rfl, rfl⟩ := hready.of_text hne
    exact ⟨kind, text, others, next, rfl, hemits⟩
  | finish hleads hnone =>
    obtain ⟨-, rfl⟩ := hleads.of_text hne
    exact absurd hnone hne

/-! ### Names and strings -/

/-- A string literal, whatever comes after it. -/
def IsLiteral (text : List Char) : Prop :=
  ∀ (mode : Mode) (rest : List Char), lexemeAt mode (text ++ rest) = .ok (.string, text, rest, mode)

theorem isNamePart_of_isIdentifier {name : List Char} (h : Text.isIdentifier name = true) :
    (∃ c more, name = c :: more ∧ startsName c = true) ∧ ∀ c ∈ name, isNamePart c = true := by
  have hstart : ∀ c, Text.isIdentifierStart c = true → startsName c = true := by
    intro c hc
    rw [Text.isIdentifierStart] at hc
    rw [startsName]
    split at hc
    · rw [hc, Bool.true_or]
    next hwide => simp [Nat.le_of_not_lt hwide]
  have hpart : ∀ c, Text.isIdentifierPart c = true → isNamePart c = true := by
    intro c hc
    rw [Text.isIdentifierPart] at hc
    rw [isNamePart]
    split at hc
    · rw [hc, Bool.true_or]
    next hwide => simp [Nat.le_of_not_lt hwide]
  cases name with
  | nil => cases h
  | cons c more =>
    rw [Text.isIdentifier, Bool.and_eq_true, List.all_eq_true] at h
    refine ⟨⟨c, more, rfl, hstart c h.1⟩, ?_⟩
    rw [List.forall_mem_cons]
    exact ⟨isNamePart_of_startsName (hstart c h.1), fun d hd => hpart d (h.2 d hd)⟩

theorem isAlpha_of_stringPrefix? {chars letters quoted : List Char}
    (h : stringPrefix? chars = some (letters, quoted)) : ∀ c ∈ letters, c.isAlpha = true := by
  unfold stringPrefix? at h
  rw [List.span_eq_takeWhile_dropWhile] at h
  simp only at h
  split at h
  · split at h
    · cases h
      exact fun c hc => List.mem_takeWhile_imp hc
    · cases h
  · cases h

theorem isNamePart_of_isAlpha {c : Char} (h : c.isAlpha = true) : isNamePart c = true := by
  apply isNamePart_of_startsName
  rw [startsName, h, Bool.true_or, Bool.true_or]

theorem exists_isFirm_of_stringPrefix? {chars : List Char} {part : List Char × List Char}
    (h : stringPrefix? chars = some part) : ∃ c, chars.head? = some c ∧ IsFirm c := by
  obtain ⟨letters, quoted⟩ := part
  obtain ⟨quote, more, rfl, hquote⟩ := exists_quote_of_stringPrefix? h
  have hletters := isAlpha_of_stringPrefix? h
  rw [← append_of_stringPrefix? h]
  cases letters with
  | nil => exact ⟨quote, rfl, by rcases hquote with rfl | rfl <;> decide⟩
  | cons c letters =>
    exact ⟨c, rfl, isFirm_of_isNamePart (isNamePart_of_isAlpha (hletters c List.mem_cons_self))⟩

/-- A name that no quotes follow is no prefix of a string. -/
theorem stringPrefix?_name {name : List Char} (hname : ∀ c ∈ name, isNamePart c = true)
    (hrest : ∀ c, rest.head? = some c → isNamePart c = false ∧ c ≠ '"' ∧ c ≠ '\'') :
    stringPrefix? (name ++ rest) = none := by
  cases hopens : stringPrefix? (name ++ rest) with
  | none => rfl
  | some part =>
    exfalso
    obtain ⟨letters, quoted⟩ := part
    obtain ⟨quote, more, rfl, hquote⟩ := exists_quote_of_stringPrefix? hopens
    have hletters := isAlpha_of_stringPrefix? hopens
    have happend := append_of_stringPrefix? hopens
    have hquotes : isNamePart quote = false := by rcases hquote with rfl | rfl <;> decide
    rcases List.append_eq_append_iff.1 happend with ⟨tail, rfl, htail⟩ | ⟨tail, rfl, rfl⟩
    · cases tail with
      | nil =>
        obtain ⟨-, hne⟩ := hrest quote (by rw [← List.nil_append rest, ← htail]; rfl)
        rcases hquote with rfl | rfl
        · exact hne.1 rfl
        · exact hne.2 rfl
      | cons c tail =>
        obtain ⟨rfl, -⟩ := List.cons.inj htail
        have hpart := hname quote (List.mem_append_right _ List.mem_cons_self)
        rw [hquotes] at hpart
        cases hpart
    · cases tail with
      | nil =>
        obtain ⟨-, hne⟩ := hrest quote rfl
        rcases hquote with rfl | rfl
        · exact hne.1 rfl
        · exact hne.2 rfl
      | cons c tail =>
        obtain ⟨hnot, -⟩ := hrest c rfl
        rw [isNamePart_of_isAlpha (hletters c (List.mem_append_right _ List.mem_cons_self))] at hnot
        cases hnot

theorem lexemeAt_identifier {name : List Char} (hname : Text.isIdentifier name = true)
    (hrest : ∀ c, rest.head? = some c → isNamePart c = false ∧ c ≠ '"' ∧ c ≠ '\'') :
    lexemeAt mode (name ++ rest) = .ok (.name, name, rest, mode) := by
  obtain ⟨⟨c, more, rfl, hstart⟩, hparts⟩ := isNamePart_of_isIdentifier hname
  exact lexemeAt_of_isIdentifier hstart hparts hname (fun d hd => (hrest d hd).1)
    (stringPrefix?_name hparts hrest)

/-- A string starts with a letter or with a quote. -/
theorem isFirm_of_string (h : lexemeAt mode (text ++ rest) = .ok (.string, text, rest, next)) :
    ∃ c, text.head? = some c ∧ IsFirm c := by
  obtain ⟨c, more, rfl⟩ := List.exists_cons_of_ne_nil (lexemeAt_ne_nil h)
  cases hopens : stringPrefix? (c :: more ++ rest) with
  | some part =>
    obtain ⟨d, hd, hfirm⟩ := exists_isFirm_of_stringPrefix? hopens
    exact ⟨d, hd, hfirm⟩
  | none =>
    exfalso
    unfold lexemeAt at h
    rw [hopens] at h
    grind

theorem IsLiteral.isFirm (h : IsLiteral text) : ∃ c, text.head? = some c ∧ IsFirm c :=
  isFirm_of_string (h ⟨[], [], false, false, false⟩ [])

end Bundler.Source
