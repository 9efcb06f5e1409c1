import Bundler.Proofs.Source.Anew

/-!
# Names in the text

The lexer reads a name as far as it goes, so something stands between two names side by side
(`parted_of_tokens`), and every name is spelt as one (`isIdentifier_of_tokens`).
-/

namespace Bundler.Source

variable {mode next : Mode} {text rest load runtime : List Char}

/-- Something stands between a name and the name after it. -/
def Token.Parted (token later : Token) : Prop :=
  token.kind = .name → later.kind = .name → later.before ≠ []

/-! ### Lexemes -/

theorem name_of_lexemeAt (h : lexemeAt mode (text ++ rest) = .ok (.name, text, rest, next)) :
    next = mode ∧ Text.isIdentifier text = true ∧ ∀ d, rest.head? = some d → isNamePart d = false := by
  have hstarts : ∃ c more, text ++ rest = c :: more ∧ startsName c = true ∧ stringPrefix? (c :: more) = none := by
    obtain ⟨c, more, heq⟩ := List.exists_cons_of_ne_nil (List.append_ne_nil_of_left_ne_nil
      (lexemeAt_ne_nil h) rest)
    refine ⟨c, more, heq, ?_⟩
    rw [heq] at h
    unfold lexemeAt at h
    split at h
    · simp only at h
      split at h
      · cases h
      · split at h <;> cases h
    next hopens =>
      refine ⟨?_, hopens⟩
      simp only at h
      split at h
      next hstart => exact hstart
      · split at h
        · split at h <;> cases h
        · split at h
          · split at h <;> cases h
          · cases h
  obtain ⟨c, more, heq, hstart, hopens⟩ := hstarts
  rw [heq] at h
  obtain ⟨-, hmode, hidentifier, -, hrest⟩ := lexemeAt_name hstart hopens h
  exact ⟨hmode, hidentifier, hrest⟩

/-- A name that follows where no name can go on has something before it. -/
theorem Scans.before_ne_nil {lexemes : List Lexeme} {later : Lexeme} (h : Scans mode lexemes)
    (hline : mode.lineStart = false)
    (hend : ∀ d, (lexemes.flatMap Lexeme.written).head? = some d → isNamePart d = false)
    (hlater : lexemes.head? = some later) (hname : later.kind = .name) : later.before ≠ [] := by
  cases h with
  | finish =>
    rw [lastLexemes] at hlater
    split at hlater
    · cases hlater
      cases hname
    · cases hlater
      cases hname
  | @token _ middle ready next lexeme following hleads hready hemits hrest =>
    cases hlater
    obtain ⟨kind, before, indentation, text⟩ := later
    simp only at hname hemits hleads hready
    rintro rfl
    subst hname
    obtain ⟨-, hidentifier, -⟩ := name_of_lexemeAt (hemits.eq_lexemeAt (.inl rfl)).2
    obtain ⟨⟨c, more, rfl, hc⟩, -⟩ := isNamePart_of_isIdentifier hidentifier
    rcases hleads.head hline with ⟨-, rfl⟩ | ⟨d, run, hrun, -⟩
    · cases hready with
      | none =>
        have hpart := hend c rfl
        rw [isNamePart_of_startsName hc] at hpart
        cases hpart
      | some _ hindents =>
        have hstart := hindents.line
        rw [hline] at hstart
        cases hstart
    · cases hrun

theorem Scans.parted {lexemes : List Lexeme} (h : Scans mode lexemes) :
    lexemes.IsChain fun lexeme later =>
      lexeme.kind = .name → later.kind = .name → later.before ≠ [] := by
  induction h with
  | finish =>
    rw [lastLexemes]
    split <;> simp
  | @token mode middle ready next lexeme following hleads hready hemits hrest ih =>
    rw [List.isChain_cons]
    refine ⟨fun later hlater hname => ?_, ih⟩
    rw [hname] at hemits
    obtain ⟨hstarts, hlexeme⟩ := hemits.eq_lexemeAt (.inl rfl)
    obtain ⟨rfl, -, hend⟩ := name_of_lexemeAt hlexeme
    exact hrest.before_ne_nil (starts_iff.1 hstarts).2.1 hend hlater

/-! ### Tokens -/

theorem parted_marks {marks tokens : List Token} (hmarks : ∀ token ∈ marks, token.kind ≠ .name)
    (h : tokens.IsChain Token.Parted) : (marks ++ tokens).IsChain Token.Parted := by
  induction marks with
  | nil => exact h
  | cons token marks ih =>
    rw [List.forall_mem_cons] at hmarks
    exact List.isChain_cons.2 ⟨fun _ _ hname => absurd hname hmarks.1, ih hmarks.2⟩

theorem parted_of_layoutFrom {levels : List Level} {lexemes : List Lexeme} {tokens : List Token}
    (hparted : lexemes.IsChain fun lexeme later =>
      lexeme.kind = .name → later.kind = .name → later.before ≠ [])
    (h : layoutFrom levels lexemes = .ok tokens) : tokens.IsChain Token.Parted := by
  have hname : ∀ {levels after : List Level} {lexeme : Lexeme} {marks : List Token} {margin : List Char},
      Lays levels lexeme marks margin after → ∀ token ∈ marks, token.kind ≠ .name := by
    intro levels after lexeme marks margin hlays token htoken
    rcases hlays.marks token htoken with rfl | rfl <;> decide
  induction lexemes generalizing levels tokens with
  | nil =>
    cases h
    exact .nil
  | cons lexeme rest ih =>
    obtain ⟨marks, margin, after, following, hlays, hfollowing, rfl⟩ := layoutFrom_cons_iff.1 h
    rw [List.isChain_cons] at hparted
    refine parted_marks (hname hlays) (List.isChain_cons.2 ⟨?_, ih hparted.2 hfollowing⟩)
    intro later hlater hkind hlaterkind
    cases rest with
    | nil =>
      cases hfollowing
      cases hlater
    | cons other rest =>
      obtain ⟨marks, _, _, _, hlays, -, rfl⟩ := layoutFrom_cons_iff.1 hfollowing
      cases marks with
      | nil =>
        cases hlater
        exact hparted.1 other rfl hkind hlaterkind
      | cons mark marks =>
        cases hlater
        exact absurd hlaterkind (hname hlays _ List.mem_cons_self)

theorem parted_of_tokens {chars : List Char} {toks : List Token} (h : tokens chars = .ok toks) :
    toks.IsChain Token.Parted := by
  obtain ⟨lexemes, hlexemes, hlayout⟩ := bind_eq_ok_iff.1 h
  exact parted_of_layoutFrom (lexemes_eq_ok_iff.1 hlexemes).1.parted hlayout

/-! ### Names -/

theorem exists_lexeme_of_mem {levels : List Level} {lexemes : List Lexeme} {tokens : List Token}
    {token : Token} (h : layoutFrom levels lexemes = .ok tokens) (htoken : token ∈ tokens)
    (hkind : token.kind ≠ .indent ∧ token.kind ≠ .dedent) :
    ∃ lexeme ∈ lexemes, lexeme.kind = token.kind ∧ lexeme.text = token.text := by
  induction lexemes generalizing levels tokens with
  | nil =>
    rw [layoutFrom] at h
    cases h
    cases htoken
  | cons lexeme following ih =>
    obtain ⟨marks, margin, after, others, hlays, hfollowing, rfl⟩ := layoutFrom_cons_iff.1 h
    rcases List.mem_append.1 htoken with hmark | hmem
    · rcases hlays.marks token hmark with rfl | rfl
      · exact absurd rfl hkind.1
      · exact absurd rfl hkind.2
    · rcases List.mem_cons.1 hmem with rfl | hmem
      · exact ⟨lexeme, List.mem_cons_self, rfl, rfl⟩
      · obtain ⟨other, hother, hsame⟩ := ih hfollowing hmem
        exact ⟨other, List.mem_cons_of_mem _ hother, hsame⟩

theorem kind_of_mem_lastLexemes {before : List Char} {lexeme : Lexeme}
    (h : lexeme ∈ lastLexemes mode before none) : lexeme.kind = .newline ∨ lexeme.kind = .finish := by
  unfold lastLexemes at h
  split at h
  · exact .inr (by rw [List.mem_singleton.1 h])
  · rcases List.mem_cons.1 h with rfl | h
    · exact .inl rfl
    · exact .inr (by rw [List.mem_singleton.1 h])

theorem Scans.isIdentifier {lexemes : List Lexeme} (h : Scans mode lexemes) :
    ∀ lexeme ∈ lexemes, lexeme.kind = .name → Text.isIdentifier lexeme.text = true := by
  induction h with
  | finish =>
    intro lexeme hmem hname
    rcases kind_of_mem_lastLexemes hmem with hkind | hkind <;> cases hname.symm.trans hkind
  | token hleads hready hemits hrest ih =>
    refine List.forall_mem_cons.2 ⟨fun hname => ?_, ih⟩
    rw [hname] at hemits
    exact (name_of_lexemeAt (hemits.eq_lexemeAt (.inl rfl)).2).2.1

/-- The names of a text are spelt as names. -/
theorem isIdentifier_of_tokens {chars : List Char} {toks : List Token} (h : tokens chars = .ok toks) :
    ∀ token ∈ toks, token.kind = .name → Text.isIdentifier token.text = true := by
  intro token htoken hname
  obtain ⟨lexemes, hlexemes, hlayout⟩ := bind_eq_ok_iff.1 h
  obtain ⟨lexeme, hmem, hkind, htext⟩ := exists_lexeme_of_mem hlayout htoken (by simp [hname])
  rw [← htext]
  exact (lexemes_eq_ok_iff.1 hlexemes).1.isIdentifier lexeme hmem (hkind.trans hname)

end Bundler.Source
