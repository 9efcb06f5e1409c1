import Bundler.Proofs.Attempt
import Bundler.Proofs.Grammar.Apart
import Bundler.Proofs.Load.Bare
import Bundler.Proofs.Load.Shapes

/-!
# Reading a text again

A text that has tokens has no mark in front of it, so that it is read as it is printed
(`withoutMark_of_tokens`). Each load call of a module that is retargeted names a module
(`exists_names_of_retargetAll`).
-/

namespace Bundler.Grammar

open Bundler.Source (tokens)

/-! ### The mark in front of a text -/

theorem lexemeAt_byteOrderMark (mode : Source.Mode) (rest : List Char) :
    Source.lexemeAt mode (byteOrderMark :: rest) = .error .malformedName := by
  have hopens : Source.stringPrefix? (byteOrderMark :: rest) = none := by
    rw [Source.stringPrefix?_of_head (by decide)]
    rfl
  have hspan : (byteOrderMark :: rest).span
      (fun d => d.isAlphanum || d == '_' || decide (0x80 ≤ d.toNat))
      = (byteOrderMark :: rest.takeWhile Source.isNamePart, rest.dropWhile Source.isNamePart) := by
    rw [List.span_eq_takeWhile_dropWhile, List.takeWhile_cons_of_pos (by decide),
      List.dropWhile_cons_of_pos (by decide)]
    rfl
  have hname : Text.isIdentifier (byteOrderMark :: rest.takeWhile Source.isNamePart) = false := by
    rw [Text.isIdentifier, show Text.isIdentifierStart byteOrderMark = false from by decide +kernel,
      Bool.false_and]
  unfold Source.lexemeAt
  rw [hopens]
  simp only
  rw [if_pos (by decide), hspan]
  simp only [hname]
  rfl

/-- The mark is read only in front of a text, where it is taken away first. -/
theorem tokens_byteOrderMark (rest : List Char) :
    tokens (byteOrderMark :: rest) = .error .malformedName := by
  have hlexemes : Source.lexemes (byteOrderMark :: rest) = .error .malformedName := by
    rw [Source.lexemes]
    generalize ((byteOrderMark :: rest).getLast?.map Source.isLineBreak).getD true = closed
    have hindents : Source.Indents ⟨[], [], true, true, closed⟩ [] (byteOrderMark :: rest).head?
        ⟨[], [], false, false, closed⟩ := ⟨rfl, rfl, nofun, ⟨_, rfl, by decide, rfl⟩, rfl⟩
    have hbreak : Source.lineBreak? (byteOrderMark :: rest) = none :=
      Source.lineBreak?_cons_eq_none_iff.2 (by decide)
    rw [show byteOrderMark :: rest = [] ++ byteOrderMark :: rest from rfl, List.length_append,
      List.length_cons, Source.scan_of_indents rfl hindents, List.length_nil]
    rw [Source.scan.eq_def]
    simp [Source.Mode.textFrame?, hbreak, lexemeAt_byteOrderMark, bind, Except.bind,
      show Source.isSpace byteOrderMark = false from by decide,
      show byteOrderMark ≠ '#' from by decide, show byteOrderMark ≠ '\\' from by decide]
  rw [tokens, hlexemes]
  rfl

theorem withoutMark_of_tokens {chars : List Char} {toks : List Source.Token}
    (h : tokens chars = .ok toks) : withoutMark chars = chars := by
  cases chars with
  | nil => rfl
  | cons c rest =>
    rw [withoutMark, if_neg]
    rintro rfl
    rw [tokens_byteOrderMark] at h
    cases h

end Bundler.Grammar

namespace Bundler.Load

open Grammar Source

variable {naming : Naming} {directory : String}

/-! ### What load calls name -/

theorem exists_names_of_retargetAll {text : List Char} {module : Module} {identities : List Identity}
    (hread : read text = some module)
    (hall : (retargetAll naming directory module).toOption.map Prod.snd = some identities) :
    ∀ call ∈ loadCalls naming.load module, ∃ identity ∈ identities,
      Names naming directory call identity := by
  intro call hcall
  cases hanswer : retargetAll naming directory module with
  | error fault =>
    rw [hanswer] at hall
    cases hall
  | ok answer =>
    rw [hanswer] at hall
    cases hall
    have hretargeted := retargeted_of_retargetAll module (wellFormed_of_read hread) hanswer
    exact exists_of_forall₂ hretargeted.names.flip hcall

end Bundler.Load
