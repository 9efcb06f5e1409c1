import Bundler.Proofs.Source.Kept

/-!
# The rest of a text replaced

Where lexemes give way to others that begin with the same character, the lexemes before them stay as they
are, unless that character tells one of them where to end (`Scans.behind`). So a string may take the place
of another one behind a blank or a parenthesis (`Scans.string`, `Scans.opening`).
-/

namespace Bundler.Source

variable {mode : Mode} {front tail other back : List Lexeme} {before old new : List Char}

theorem Scans.behind {c : Char} {left right : List Char} (h : Scans mode (front ++ tail))
    (hsound : mode.Sound) (hfront : ∀ lexeme ∈ front, lexeme.kind ≠ .formatText)
    (hc : decides c = false) (hleft : tail.flatMap Lexeme.written = c :: left)
    (hright : other.flatMap Lexeme.written = c :: right)
    (htail : ∀ mode : Mode, mode.Sound → Scans mode tail → Scans mode other) :
    Scans mode (front ++ other) := by
  induction front generalizing mode with
  | nil => exact htail mode hsound h
  | cons lexeme front ih =>
    rw [List.forall_mem_cons] at hfront
    rw [List.cons_append] at h ⊢
    generalize hall : lexeme :: (front ++ tail) = lexemes at h
    cases h with
    | finish =>
      -- Nothing is left to be replaced behind the first of the last lexemes.
      exfalso
      have hmore := congrArg (List.flatMap Lexeme.written ∘ List.tail) hall
      rw [lastLexemes] at hmore
      split at hmore
      · simp [hleft] at hmore
      · simp [Lexeme.written, hleft] at hmore
    | @token _ middle ready next _ _ hleads hready hemits hrest =>
      obtain ⟨rfl, rfl⟩ := List.cons.inj hall
      have hready' := hready.sound (hleads.sound hsound)
      have hothers := ih hrest (hemits.sound hready') hfront.2
      have hhead : ((front ++ other).flatMap Lexeme.written).head?
          = ((front ++ tail).flatMap Lexeme.written).head? := by
        simp [List.flatMap_append, hleft, hright]
      have hagain : Emits ready lexeme.kind lexeme.text ((front ++ other).flatMap Lexeme.written) next := by
        refine hemits.kept hready' (fun _ => ?_) (fun _ => ?_) (fun hbreak => hhead ▸ hbreak)
          fun hkind => absurd hkind hfront.1
        · rw [List.flatMap_append, List.flatMap_append, hleft, hright]
          exact (Akin.stop hc _ _).append _
        · rw [List.flatMap_append, List.flatMap_append, hleft, hright]
          exact (Near.stop hc _ _).append _
      rw [List.head?_append, ← hhead, ← List.head?_append] at hleads hready
      exact .token hleads hready hagain hothers

theorem Scans.string (h : Scans mode (⟨.string, before, none, old⟩ :: back))
    (hnew : ∀ mode, lexemeAt mode (new ++ back.flatMap Lexeme.written)
      = .ok (.string, new, back.flatMap Lexeme.written, mode)) :
    Scans mode (⟨.string, before, none, new⟩ :: back) := by
  generalize hall : (⟨.string, before, none, old⟩ : Lexeme) :: back = lexemes at h
  cases h with
  | finish =>
    rw [lastLexemes] at hall
    split at hall <;> cases hall
  | @token _ middle ready next _ _ hleads hready hemits hrest =>
    cases hall
    cases hready
    obtain ⟨hstarts, hlexeme⟩ := hemits.eq_lexemeAt (.inr (.inl rfl))
    cases lexes_of_lexemeAt hlexeme
    obtain ⟨hframe, hline, c, hc, hfirm⟩ := starts_iff.1 hstarts
    obtain ⟨d, hd, hfirm'⟩ := isFirm_of_string (hnew middle)
    have hhead : (new ++ back.flatMap Lexeme.written).head? = some d := by
      rw [List.head?_append, hd]
      rfl
    refine .token (hleads.congr (.inr (.inl ⟨c, d, hc, hhead, hfirm, hfirm'⟩))) (.none _) ?_ hrest
    exact .lexeme (starts_iff.2 ⟨hframe, hline, d, hhead, hfirm'⟩) (hnew middle)

/-- A parenthesis opens whatever follows it. -/
theorem Scans.opening {lexeme : Lexeme} (h : Scans mode (lexeme :: tail)) (hkind : lexeme.kind = .operator)
    (htext : lexeme.text = ['(']) (hsound : mode.Sound)
    (htail : ∀ mode : Mode, mode.Sound → Scans mode tail → Scans mode other) :
    Scans mode (lexeme :: other) := by
  generalize hall : lexeme :: tail = lexemes at h
  cases h with
  | finish =>
    rw [lastLexemes] at hall
    split at hall <;> cases hall <;> cases hkind
  | @token _ middle ready next _ _ hleads hready hemits hrest =>
    cases hall
    have hready' := hready.sound (hleads.sound hsound)
    have hothers := htail next (hemits.sound hready') hrest
    obtain ⟨hstarts, hlexeme⟩ := hemits.eq_lexemeAt (.inr (.inr ⟨hkind, htext⟩))
    obtain ⟨hframe, hline, -⟩ := starts_iff.1 hstarts
    rw [hkind, htext, List.singleton_append, lexemeAt_opening] at hlexeme
    have hagain : Emits ready lexeme.kind lexeme.text (other.flatMap Lexeme.written) next := by
      cases hlexeme
      rw [hkind, htext]
      exact .lexeme (starts_iff.2 ⟨hframe, hline, '(', rfl, by decide⟩) (lexemeAt_opening _ _)
    have hne : lexeme.indentation.getD [] ++ lexeme.text ≠ [] := by simp [htext]
    rw [head?_append_of_ne_nil hne (other.flatMap Lexeme.written)] at hleads
    rw [head?_append_of_ne_nil hemits.ne_nil (other.flatMap Lexeme.written)] at hready
    exact .token hleads hready hagain hothers

/-- The lexemes of a text whose rest is replaced. -/
theorem lexemes_behind {chars : List Char} {c : Char} {left right : List Char}
    (h : lexemes chars = .ok (front ++ tail)) (hfront : ∀ lexeme ∈ front, lexeme.kind ≠ .formatText)
    (hc : decides c = false) (hleft : tail.flatMap Lexeme.written = c :: left)
    (hright : other.flatMap Lexeme.written = c :: right)
    (hlast : (other.flatMap Lexeme.written).getLast?.map isLineBreak
      = (tail.flatMap Lexeme.written).getLast?.map isLineBreak)
    (htail : ∀ mode : Mode, mode.Sound → Scans mode tail → Scans mode other) :
    lexemes ((front ++ other).flatMap Lexeme.written) = .ok (front ++ other) := by
  obtain ⟨hscans, rfl⟩ := lexemes_eq_ok_iff.1 h
  have hstart : Mode.start ((front ++ tail).flatMap Lexeme.written)
      = .start ((front ++ other).flatMap Lexeme.written) := by
    rw [Mode.start, Mode.start, List.flatMap_append, List.flatMap_append, List.getLast?_append,
      List.getLast?_append, Option.map_or, Option.map_or, hlast]
  rw [hstart] at hscans
  exact lexemes_eq_ok_iff.2 ⟨hscans.behind ⟨nofun, nofun⟩ hfront hc hleft hright htail, rfl⟩

end Bundler.Source
