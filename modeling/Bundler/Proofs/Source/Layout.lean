import Bundler.Proofs.Attempt
import Bundler.Proofs.Source.Lexemes
import Bundler.Source.Layout

/-!
# Tokens and the text they come from

The tokens of a text say what its lexemes say, except that the indentation of a line is shown as the
margin of its block. `Laid` pairs every token with the indentation it was written with. `Aligns` says once
what the indentation of a line does to the open blocks (`indent_eq_ok_iff`), and `Lays` which tokens a
lexeme stands for (`layoutFrom_cons_iff`).
-/

namespace Bundler.Source

def IsBlank (text : List Char) : Prop := ∀ c ∈ text, isSpace c = true

/-- The text starts with something that is no blank. -/
def IsSolid (text : List Char) : Prop := ∃ c rest, text = c :: rest ∧ isSpace c = false

theorem IsSolid.append {text : List Char} (h : IsSolid text) (rest : List Char) :
    IsSolid (text ++ rest) := by
  obtain ⟨c, more, rfl, hc⟩ := h
  exact ⟨c, more ++ rest, rfl, hc⟩

theorem blanks_eq {blanks others left right : List Char} (hblanks : IsBlank blanks)
    (hothers : IsBlank others) (hleft : IsSolid left) (hright : IsSolid right)
    (h : blanks ++ left = others ++ right) : blanks = others := by
  have htake : ∀ run rest : List Char, IsBlank run → IsSolid rest →
      (run ++ rest).takeWhile isSpace = run := by
    rintro run _ hrun ⟨c, rest, rfl, hc⟩
    rw [List.takeWhile_append_of_pos hrun, List.takeWhile_cons_of_neg (by simp [hc]), List.append_nil]
  rw [← htake blanks left hblanks hleft, h, htake others right hothers hright]

/-- The token with an indentation in the place of its margin. -/
def Token.indented (token : Token) (indentation : List Char) : Token :=
  { token with margin := indentation }

/-- Only a token that starts a line has a margin, or has been indented. -/
def Token.Placed (token : Token) (indentation : List Char) : Prop :=
  (token.margin = [] ∧ indentation = []) ∨
    (IsBlank token.margin ∧ IsBlank indentation ∧ IsSolid token.text)

/-- The tokens, each with the indentation that it was written with, make up the text. -/
structure Laid (placed : List (Token × List Char)) (tokens : List Token) (chars : List Char) : Prop where
  tokens : placed.map Prod.fst = tokens
  written : placed.flatMap (fun place => (place.1.indented place.2).shown) = chars
  placed : ∀ place ∈ placed, place.1.Placed place.2

theorem Laid.append {first second : List (Token × List Char)} {tokens more : List Token}
    {chars rest : List Char} (hfirst : Laid first tokens chars) (hsecond : Laid second more rest) :
    Laid (first ++ second) (tokens ++ more) (chars ++ rest) where
  tokens := by rw [List.map_append, hfirst.tokens, hsecond.tokens]
  written := by rw [List.flatMap_append, hfirst.written, hsecond.written]
  placed := by
    intro place hplace
    rcases List.mem_append.1 hplace with hplace | hplace
    · exact hfirst.placed place hplace
    · exact hsecond.placed place hplace

/-- Marks have no text. -/
theorem laid_marks {tokens : List Token}
    (h : ∀ token ∈ tokens, token = mark .indent ∨ token = mark .dedent) :
    Laid (tokens.map (·, [])) tokens [] where
  tokens := by
    rw [List.map_map]
    exact List.map_id _
  written := by
    rw [List.flatMap_map, List.flatMap_eq_nil_iff]
    intro token htoken
    rcases h token htoken with rfl | rfl <;> rfl
  placed := by
    intro place hplace
    obtain ⟨token, htoken, rfl⟩ := List.mem_map.1 hplace
    rcases h token htoken with rfl | rfl <;> exact .inl ⟨rfl, rfl⟩

/-! ### Blocks -/

theorem mem_of_closeLevels {column count : Nat} {levels left : List Level}
    (h : closeLevels column levels = (count, left)) : ∀ level ∈ left, level ∈ levels := by
  induction levels generalizing count with
  | nil =>
    cases h
    exact nofun
  | cons first outer ih =>
    rw [closeLevels] at h
    split at h
    · cases hclosed : closeLevels column outer with
      | mk inner others =>
      rw [hclosed] at h
      cases h
      exact fun level hlevel => List.mem_cons_of_mem _ (ih hclosed level hlevel)
    · cases h
      exact fun level hlevel => hlevel

/-- What the indentation of a line does to the blocks that are open: they stay open, one begins, or some of
them end. -/
inductive Aligns (levels : List Level) (indentation : List Char) : List Token → List Level → Prop
  | stays (hwidths : widths indentation = ((innermost levels).column, (innermost levels).narrow)) :
    Aligns levels indentation [] levels
  | begins {column narrow : Nat} (hwidths : widths indentation = (column, narrow))
      (hcolumn : (innermost levels).column < column) (hnarrow : (innermost levels).narrow < narrow)
      (hroom : levels.length < maxLevels) :
    Aligns levels indentation [mark .indent] (⟨column, narrow, indentation⟩ :: levels)
  | ends {count : Nat} {left : List Level}
      (hwidths : widths indentation = ((innermost left).column, (innermost left).narrow))
      (hcolumn : (innermost left).column < (innermost levels).column)
      (hleft : closeLevels (innermost left).column levels = (count, left)) :
    Aligns levels indentation (List.replicate count (mark .dedent)) left

section Blocks

variable {levels after : List Level} {indentation : List Char} {marks : List Token}

theorem indent_eq_ok_iff :
    indent levels indentation = .ok (marks, after) ↔ Aligns levels indentation marks after := by
  constructor
  · intro h
    cases hwidths : widths indentation with
    | mk column narrow =>
    unfold indent at h
    rw [hwidths] at h
    simp only at h
    split at h
    next hcolumn =>
      split at h
      next hnarrow =>
        cases h
        exact .stays (hcolumn ▸ hnarrow ▸ hwidths)
      · cases h
    next hcolumn =>
      split at h
      next hdeeper =>
        split at h
        · cases h
        next hroom =>
          split at h
          · cases h
          next hnarrow =>
            cases h
            exact .begins hwidths hdeeper (Nat.lt_of_not_le hnarrow) (Nat.lt_of_not_le hroom)
      next hdeeper =>
        split at h
        · cases h
        next hfound =>
          split at h
          · cases h
          next hnarrow =>
            cases h
            rw [not_not] at hfound hnarrow
            have hless := Nat.lt_of_le_of_ne (Nat.le_of_not_lt hdeeper) hcolumn
            generalize hleft : closeLevels column levels = closed at hfound hnarrow
            subst hfound hnarrow
            exact .ends hwidths hless hleft
  · intro h
    rw [indent]
    cases h with
    | stays hwidths => simp [hwidths]
    | begins hwidths hcolumn hnarrow hroom =>
      rw [hwidths]
      simp only
      rw [if_neg (Nat.ne_of_gt hcolumn), if_pos hcolumn, if_neg (Nat.not_le_of_lt hroom),
        if_neg (Nat.not_le_of_lt hnarrow)]
    | ends hwidths hcolumn hleft =>
      rw [hwidths]
      simp only [hleft]
      rw [if_neg (Nat.ne_of_lt hcolumn), if_neg (Nat.lt_asymm hcolumn), if_neg (not_not.2 rfl),
        if_neg (not_not.2 rfl)]

theorem marks_of_indent (h : indent levels indentation = .ok (marks, after)) :
    ∀ token ∈ marks, token = mark .indent ∨ token = mark .dedent := by
  cases indent_eq_ok_iff.1 h with
  | stays => exact nofun
  | begins => simp
  | ends => exact fun token htoken => .inr (List.mem_replicate.1 htoken).2

/-- A block that is open in a line was open before, or is indented as the line is. -/
theorem margin_of_indent (h : indent levels indentation = .ok (marks, after)) :
    ∀ level ∈ after, level ∈ levels ∨ level.margin = indentation := by
  cases indent_eq_ok_iff.1 h with
  | stays => exact fun level hlevel => .inl hlevel
  | begins => exact List.forall_mem_cons.2 ⟨.inr rfl, fun level hlevel => .inl hlevel⟩
  | ends _ _ hleft => exact fun level hlevel => .inl (mem_of_closeLevels hleft level hlevel)

end Blocks

theorem isBlank_innermost {levels : List Level} (h : ∀ level ∈ levels, IsBlank level.margin) :
    IsBlank (innermost levels).margin := by
  cases levels with
  | nil => simp [innermost, Level.base, IsBlank]
  | cons level outer => exact h level List.mem_cons_self

/-! ### The tokens of a lexeme -/

/-- The tokens a lexeme stands for: marks, and a token of its kind with what is before it. -/
inductive Lays (levels : List Level) (lexeme : Lexeme) : List Token → List Char → List Level → Prop
  | finish (hkind : lexeme.kind = .finish) :
    Lays levels lexeme (levels.map fun _ => mark .dedent) [] []
  | within (hkind : lexeme.kind ≠ .finish) (hnone : lexeme.indentation = none) :
    Lays levels lexeme [] [] levels
  | line {blanks : List Char} {marks : List Token} {after : List Level} (hkind : lexeme.kind ≠ .finish)
      (hsome : lexeme.indentation = some blanks) (hindent : indent levels blanks = .ok (marks, after)) :
    Lays levels lexeme marks (innermost after).margin after

theorem layoutFrom_cons_iff {levels : List Level} {lexeme : Lexeme} {rest : List Lexeme}
    {tokens : List Token} : layoutFrom levels (lexeme :: rest) = .ok tokens ↔
      ∃ marks margin after others, Lays levels lexeme marks margin after
        ∧ layoutFrom after rest = .ok others
        ∧ tokens = marks ++ ⟨lexeme.kind, lexeme.before, margin, lexeme.text⟩ :: others := by
  constructor
  · intro h
    rw [layoutFrom] at h
    split at h
    next hkind =>
      obtain ⟨others, hothers, h⟩ := bind_eq_ok_iff.1 h
      cases h
      exact ⟨_, _, _, others, .finish hkind, hothers, rfl⟩
    next hkind =>
      split at h
      next hnone =>
        obtain ⟨others, hothers, h⟩ := bind_eq_ok_iff.1 h
        cases h
        exact ⟨_, _, _, others, .within hkind hnone, hothers, rfl⟩
      next blanks hsome =>
        obtain ⟨⟨marks, after⟩, hindent, h⟩ := bind_eq_ok_iff.1 h
        obtain ⟨others, hothers, h⟩ := bind_eq_ok_iff.1 h
        cases h
        exact ⟨_, _, _, others, .line hkind hsome hindent, hothers, rfl⟩
  · rintro ⟨marks, margin, after, others, hlays, hothers, rfl⟩
    rw [layoutFrom]
    cases hlays with
    | finish hkind =>
      rw [if_pos hkind, hothers]
      rfl
    | within hkind hnone =>
      rw [if_neg hkind, hnone]
      simp only
      rw [hothers]
      rfl
    | line hkind hsome hindent =>
      rw [if_neg hkind, hsome]
      simp only
      rw [hindent]
      show (do return _ ++ _ :: (← layoutFrom _ rest)) = _
      rw [hothers]
      rfl

theorem Lays.marks {levels after : List Level} {lexeme : Lexeme} {marks : List Token} {margin : List Char}
    (h : Lays levels lexeme marks margin after) :
    ∀ token ∈ marks, token = mark .indent ∨ token = mark .dedent := by
  cases h with
  | finish => simp
  | within => exact nofun
  | line _ _ hindent => exact marks_of_indent hindent

/-- Where the blocks that are open are indented by blanks, so are those of the next line. -/
theorem Lays.blank {levels after : List Level} {lexeme : Lexeme} {marks : List Token} {margin : List Char}
    (h : Lays levels lexeme marks margin after) (hlevels : ∀ level ∈ levels, IsBlank level.margin)
    (hlexeme : lexeme.Indented) : (∀ level ∈ after, IsBlank level.margin) ∧ IsBlank margin ∧
      (lexeme.indentation = none → margin = []) := by
  cases h with
  | finish => exact ⟨nofun, nofun, fun _ => rfl⟩
  | within => exact ⟨hlevels, nofun, fun _ => rfl⟩
  | line _ hsome hindent =>
    have hafter : ∀ level ∈ after, IsBlank level.margin := by
      intro level hlevel
      rcases margin_of_indent hindent level hlevel with hlevel | hmargin
      · exact hlevels level hlevel
      · exact hmargin ▸ (hlexeme _ hsome).1
    exact ⟨hafter, isBlank_innermost hafter, fun hnone => nomatch hsome.symm.trans hnone⟩

/-! ### The whole text -/

theorem laid_token {lexeme : Lexeme} {margin : List Char} (hindented : lexeme.Indented)
    (hmargin : IsBlank margin) (hnone : lexeme.indentation = none → margin = []) :
    Laid [(⟨lexeme.kind, lexeme.before, margin, lexeme.text⟩, lexeme.indentation.getD [])]
      [⟨lexeme.kind, lexeme.before, margin, lexeme.text⟩] lexeme.written where
  tokens := rfl
  written := List.flatMap_singleton _ _
  placed := by
    rw [List.forall_mem_singleton]
    cases hindentation : lexeme.indentation with
    | none => exact .inl ⟨hnone hindentation, rfl⟩
    | some blanks =>
      obtain ⟨hblanks, hsolid⟩ := hindented blanks hindentation
      exact .inr ⟨hmargin, hblanks, hsolid⟩

theorem laid_layoutFrom {levels : List Level} {lexemes : List Lexeme} {tokens : List Token}
    (hlevels : ∀ level ∈ levels, IsBlank level.margin) (hindented : ∀ lexeme ∈ lexemes, lexeme.Indented)
    (h : layoutFrom levels lexemes = .ok tokens) :
    ∃ placed, Laid placed tokens (lexemes.flatMap Lexeme.written) := by
  induction lexemes generalizing levels tokens with
  | nil =>
    rw [layoutFrom] at h
    cases h
    exact ⟨[], rfl, rfl, by simp⟩
  | cons lexeme rest ih =>
    rw [List.forall_mem_cons] at hindented
    obtain ⟨marks, margin, after, others, hlays, hothers, rfl⟩ := layoutFrom_cons_iff.1 h
    obtain ⟨hafter, hmargin, hnone⟩ := hlays.blank hlevels hindented.1
    obtain ⟨placed, hplaced⟩ := ih hafter hindented.2 hothers
    exact ⟨_, (laid_marks hlays.marks).append ((laid_token hindented.1 hmargin hnone).append hplaced)⟩

/-- The tokens of a text hold the text, but for the indentation of its lines. -/
theorem exists_laid {chars : List Char} {toks : List Token} (h : tokens chars = .ok toks) :
    ∃ placed, Laid placed toks chars := by
  obtain ⟨lexemes, hlexemes, hlayout⟩ := bind_eq_ok_iff.1 h
  obtain ⟨hwritten, hindented⟩ := written_lexemes hlexemes
  obtain ⟨placed, hplaced⟩ := laid_layoutFrom (by simp) hindented hlayout
  rw [hwritten] at hplaced
  exact ⟨placed, hplaced⟩

end Bundler.Source
