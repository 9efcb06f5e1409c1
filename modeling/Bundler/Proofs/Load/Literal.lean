import Bundler.Load.Retarget
import Bundler.Proofs.Source.Parts
import Bundler.Proofs.Text.Quoted

/-!
# The literal that takes the place of another

`literalLike` writes an identity between the quotes of the literal it takes the place of, or quotes it
anew where that would not do. The value of the literal is the identity, unless the identity has a
carriage return or a null character and is written between the old quotes all the same
(`evaluate_literalLike_iff`).
-/

namespace Bundler.Load

open Source

variable {quote : Char} {quotes : List Char}

def IsQuotes (quote : Char) (quotes : List Char) : Prop :=
  (quote = '\'' ∨ quote = '"') ∧ (quotes = [quote] ∨ quotes = [quote, quote, quote])

theorem isQuotes_of_stringParts? {text letters body : List Char}
    (h : stringParts? text = some (letters, quotes, body)) : ∃ quote, IsQuotes quote quotes := by
  rw [stringParts?, Option.bind_eq_bind, Option.bind_eq_some_iff] at h
  obtain ⟨⟨prefixed, quoted⟩, hprefix, h⟩ := h
  obtain ⟨quote, more, rfl, hquote⟩ := exists_quote_of_stringPrefix? hprefix
  refine ⟨quote, hquote.symm, ?_⟩
  simp only [openingQuotes] at h
  split at h
  · cases h
    exact .inr rfl
  · cases h
    exact .inl rfl

theorem literalLike_eq (literal : List Char) (identity : Identity) :
    literalLike literal identity = Text.quoted identity.toList ∨
      ∃ quote quotes, IsQuotes quote quotes
        ∧ literalLike literal identity = quotes ++ identity.toList ++ quotes
        ∧ '\\' ∉ identity.toList ∧ quote ∉ identity.toList ∧ '\n' ∉ identity.toList := by
  have hquotes : ∃ quote, IsQuotes quote
      (((stringParts? literal).map fun parts => parts.2.1).getD ['"']) := by
    cases hparts : stringParts? literal with
    | none => exact ⟨'"', .inr rfl, .inl rfl⟩
    | some parts => exact isQuotes_of_stringParts? hparts
  obtain ⟨quote, hquotes⟩ := hquotes
  unfold literalLike
  generalize ((stringParts? literal).map fun parts => parts.2.1).getD ['"'] = quotes at hquotes
  have hhead : quotes.headD '"' = quote := by
    rcases hquotes.2 with rfl | rfl <;> rfl
  simp only [hhead]
  split
  · exact .inl rfl
  next hplain =>
    simp only [Bool.or_eq_true, List.contains_iff_mem, not_or] at hplain
    exact .inr ⟨quote, quotes, hquotes, rfl, hplain.1.1, hplain.1.2, hplain.2⟩

theorem openingQuotes_append {text : List Char} (rest : List Char)
    (hquotes : IsQuotes quote quotes) (htext : quote ∉ text) (hrest : text = [] → rest.head? ≠ some quote) :
    openingQuotes (quotes ++ (text ++ (quotes ++ rest)))
      = (quotes, decide (quotes.length = 3), text ++ (quotes ++ rest)) := by
  rcases hquotes.2 with rfl | rfl
  · have hprefix : [quote, quote].isPrefixOf (text ++ ([quote] ++ rest)) = false := by
      cases text with
      | nil =>
        cases rest with
        | nil => simp [List.isPrefixOf]
        | cons c rest =>
          have hne : c ≠ quote := fun heq => hrest rfl (congrArg some heq)
          simp [List.isPrefixOf, Ne.symm hne]
      | cons c text =>
        have hne : quote ≠ c := fun heq => htext (heq ▸ List.mem_cons_self)
        simp [List.isPrefixOf, hne]
    rw [List.singleton_append, openingQuotes, hprefix]
    rfl
  · rw [List.cons_append, openingQuotes]
    simp [List.isPrefixOf]

theorem stringParts?_between {text : List Char} (hquotes : IsQuotes quote quotes)
    (htext : quote ∉ text) :
    stringParts? (quotes ++ text ++ quotes) = some ([], quotes, text) := by
  have hopening := openingQuotes_append [] hquotes htext (fun _ => nofun)
  rw [List.append_nil] at hopening
  have hprefix : stringPrefix? (quotes ++ (text ++ quotes)) = some ([], quotes ++ (text ++ quotes)) := by
    rcases hquotes.2 with rfl | rfl
    · exact stringPrefix?_quote hquotes.1 _
    · exact stringPrefix?_quote hquotes.1 _
  rw [List.append_assoc, stringParts?, hprefix]
  simp only [Option.bind_eq_bind, Option.bind_some, hopening, List.map_nil, Option.pure_def]
  rw [List.length_append, Nat.add_sub_cancel, List.take_left]

theorem uniformBreaks_eq_iff {text : List Char} : Text.uniformBreaks text = text ↔ '\r' ∉ text := by
  refine ⟨fun h => ?_, uniformBreaks_of_notMem⟩
  have hnone : ∀ chars : List Char, '\r' ∉ Text.uniformBreaks chars := by
    intro chars
    fun_induction Text.uniformBreaks chars <;> simp_all [eq_comm]
  rw [← h]
  exact hnone text

theorem evaluate_between {characters : Text.Characters} {text : List Char}
    (hquotes : IsQuotes quote quotes) (htext : quote ∉ text) (hback : '\\' ∉ text) :
    evaluate characters (quotes ++ text ++ quotes) = .ok (.text text) ↔ '\r' ∉ text ∧ '\x00' ∉ text := by
  have hnull : '\x00' ∈ quotes ++ text ++ quotes ↔ '\x00' ∈ text := by
    rcases hquotes with ⟨rfl | rfl, rfl | rfl⟩ <;> simp
  have hplain : '\\' ∉ Text.uniformBreaks text := by
    have hbreaks : ∀ chars : List Char, '\\' ∉ chars → '\\' ∉ Text.uniformBreaks chars := by
      intro chars
      fun_induction Text.uniformBreaks chars <;> simp_all
    exact hbreaks text hback
  rw [evaluate, stringParts?_between hquotes htext]
  simp only [List.contains_iff_mem, hnull]
  by_cases hzero : '\x00' ∈ text
  · simp [hzero]
  · simp [hzero, hplain, uniformBreaks_eq_iff]

theorem evaluate_literalLike_iff (characters : Text.Characters) (literal : List Char) (identity : Identity) :
    evaluate characters (literalLike literal identity) = .ok (.text identity.toList)
      ↔ literalLike literal identity = Text.quoted identity.toList
        ∨ '\r' ∉ identity.toList ∧ '\x00' ∉ identity.toList := by
  rcases literalLike_eq literal identity with hquoted | ⟨quote, quotes, hquotes, heq, hback, hquote, -⟩
  · rw [hquoted]
    exact ⟨fun _ => .inl rfl, fun _ => evaluate_quoted characters _⟩
  · refine ⟨fun h => .inr ?_, fun h => ?_⟩
    · rw [heq] at h
      exact (evaluate_between hquotes hquote hback).1 h
    · rcases h with h | h
      · rw [h, evaluate_quoted]
      · rw [heq, evaluate_between hquotes hquote hback]
        exact h

end Bundler.Load
