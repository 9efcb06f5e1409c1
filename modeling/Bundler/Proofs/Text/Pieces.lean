import Bundler.Text.Pieces
import Mathlib.Data.List.Basic

/-!
# Texts in pieces

A text that is cut at a separator and a text made of pieces determine each other, where no piece holds the
separator (`pieces_glue`).
-/

namespace Bundler.Text

/-! ### Cutting -/

theorem pieces_append_cons (sep : Char) (before after : List Char) :
    pieces sep (before ++ sep :: after) = pieces sep before ++ pieces sep after := by
  induction before with
  | nil => simp [pieces]
  | cons c rest ih =>
    rw [List.cons_append, pieces, pieces, ih]
    split
    · rfl
    · cases hrest : pieces sep rest with
      | nil => exact absurd hrest (pieces_ne_nil sep rest)
      | cons first others => rfl

theorem pieces_of_notMem {sep : Char} {text : List Char} (h : sep ∉ text) : pieces sep text = [text] := by
  induction text with
  | nil => rfl
  | cons c rest ih =>
    rw [List.mem_cons, not_or] at h
    rw [pieces, if_neg (Ne.symm h.1), ih h.2]

theorem notMem_of_mem_pieces {sep : Char} {text : List Char} :
    ∀ piece ∈ pieces sep text, sep ∉ piece := by
  induction text with
  | nil => simp [pieces]
  | cons c rest ih =>
    intro piece hpiece
    rw [pieces] at hpiece
    split at hpiece
    · rcases List.mem_cons.1 hpiece with rfl | hpiece
      · simp
      · exact ih piece hpiece
    · next hc =>
      cases hrest : pieces sep rest with
      | nil => exact absurd hrest (pieces_ne_nil sep rest)
      | cons first others =>
        rw [hrest] at hpiece ih
        rcases List.mem_cons.1 hpiece with rfl | hpiece
        · have := ih first List.mem_cons_self
          simp [this, Ne.symm hc]
        · exact ih piece (List.mem_cons_of_mem _ hpiece)

theorem subset_of_mem_pieces {sep : Char} {text piece : List Char} (h : piece ∈ pieces sep text) :
    piece ⊆ text := by
  induction text generalizing piece with
  | nil =>
    obtain rfl := List.mem_singleton.1 h
    exact List.Subset.refl _
  | cons c rest ih =>
    rw [pieces] at h
    split at h
    · rcases List.mem_cons.1 h with rfl | h
      · exact List.nil_subset _
      · exact List.Subset.trans (ih h) (List.subset_cons_self c rest)
    · cases hrest : pieces sep rest with
      | nil => exact absurd hrest (pieces_ne_nil sep rest)
      | cons first others =>
        rw [hrest] at h ih
        rcases List.mem_cons.1 h with rfl | h
        · exact List.cons_subset_cons c (ih List.mem_cons_self)
        · exact List.Subset.trans (ih (List.mem_cons_of_mem _ h)) (List.subset_cons_self c rest)

theorem cut?_eq (sep : Char) (text : List Char) :
    cut? sep text
      = if sep ∈ text then some (text.takeWhile (· != sep), (text.dropWhile (· != sep)).tail)
        else none := by
  induction text with
  | nil => rfl
  | cons c rest ih =>
    rw [cut?, ih]
    by_cases hc : c = sep
    · simp [hc]
    · rw [if_neg hc, List.takeWhile_cons_of_pos (by simpa using hc),
        List.dropWhile_cons_of_pos (by simpa using hc)]
      by_cases hrest : sep ∈ rest
      · simp [hrest]
      · simp [hrest, Ne.symm hc]

/-! ### Joining -/

theorem glue_cons (sep : Char) (first : List Char) (others : List (List Char)) :
    glue sep (first :: others) = first ++ others.flatMap (sep :: ·) := by
  induction others generalizing first with
  | nil => simp [glue]
  | cons next others ih => rw [glue, ih, List.flatMap_cons, List.cons_append]

theorem glue_append (sep : Char) {before after : List (List Char)} (hbefore : before ≠ [])
    (hafter : after ≠ []) : glue sep (before ++ after) = glue sep before ++ sep :: glue sep after := by
  induction before with
  | nil => exact absurd rfl hbefore
  | cons first rest ih =>
    cases rest with
    | nil =>
      obtain ⟨next, others, rfl⟩ := List.exists_cons_of_ne_nil hafter
      rfl
    | cons second others =>
      have hrest := ih (List.cons_ne_nil second others)
      rw [List.cons_append] at hrest
      simp only [List.cons_append, glue, hrest, List.append_assoc]

theorem notMem_glue {sep c : Char} {texts : List (List Char)} (hsep : c ≠ sep)
    (h : ∀ text ∈ texts, c ∉ text) : c ∉ glue sep texts := by
  induction texts with
  | nil => exact List.not_mem_nil
  | cons text rest ih =>
    rw [List.forall_mem_cons] at h
    cases rest with
    | nil => exact h.1
    | cons next others =>
      rw [glue, List.mem_append, List.mem_cons, not_or, not_or]
      exact ⟨h.1, hsep, ih h.2⟩

theorem pieces_glue {sep : Char} {texts : List (List Char)} (hne : texts ≠ [])
    (hsep : ∀ text ∈ texts, sep ∉ text) : pieces sep (glue sep texts) = texts := by
  induction texts with
  | nil => exact absurd rfl hne
  | cons text rest ih =>
    rw [List.forall_mem_cons] at hsep
    cases rest with
    | nil => exact pieces_of_notMem hsep.1
    | cons next others =>
      rw [glue, pieces_append_cons, pieces_of_notMem hsep.1, ih (List.cons_ne_nil next others) hsep.2]
      rfl

end Bundler.Text
