import Bundler.Proofs.Grammar.Called
import Bundler.Proofs.Load.Exchange
import Bundler.Proofs.Source.Anew

/-!
# The parts of load calls

What is written in the place of a literal is a literal again (`isLiteral_literalLike`). A load call whose callee
stands without parentheses is its name, an opening parenthesis, an argument and what closes it
(`exists_of_leafCall`).
-/

namespace Bundler.Load

open Grammar Source

variable {naming : Naming} {directory : String}

/-! ### The new literal -/

theorem isLiteral_of_stringRest {quote : Char} {quotes body : List Char} {triple : Bool}
    (hquotes : IsQuotes quote quotes)
    (hopening : ∀ rest, openingQuotes (quotes ++ (body ++ rest)) = (quotes, triple, body ++ rest))
    (hbody : ∀ rest, stringRest quote triple (body ++ rest) = some (body, rest)) :
    IsLiteral (quotes ++ body) := by
  intro mode rest
  have hopens : stringPrefix? (quotes ++ (body ++ rest)) = some ([], quotes ++ (body ++ rest)) := by
    rcases hquotes.2 with rfl | rfl
    · exact stringPrefix?_quote hquotes.1 _
    · exact stringPrefix?_quote hquotes.1 _
  have hhead : quotes.headD '"' = quote := by rcases hquotes.2 with rfl | rfl <;> rfl
  unfold lexemeAt
  rw [List.append_assoc, hopens]
  simp only [hopening, hhead, List.map_nil, hbody]
  rfl

theorem isLiteral_quoted {text : List Char} (hne : text ≠ []) : IsLiteral (Text.quoted text) := by
  have hquote := Text.quoteFor_eq text
  have hbody : Text.quoted text = [Text.quoteFor text] ++ (Text.quoted text).tail := rfl
  rw [hbody]
  refine isLiteral_of_stringRest ⟨hquote, .inl rfl⟩ (fun rest => ?_) (stringRest_quoted text)
  have hshort : [Text.quoteFor text, Text.quoteFor text].isPrefixOf ((Text.quoted text).tail ++ rest)
      = false := by
    obtain ⟨c, text, rfl⟩ := List.exists_cons_of_ne_nil hne
    rw [Text.quoted, List.cons_append, List.tail_cons, List.flatMap_cons, List.append_assoc,
      List.append_assoc]
    exact Text.isPrefixOf_escapeChar hquote c _ _
  rw [List.singleton_append, openingQuotes, hshort]
  rfl

theorem stringRest_between {quote : Char} {quotes text : List Char} (hquotes : IsQuotes quote quotes)
    (htext : ∀ c ∈ text, c ≠ quote ∧ c ≠ '\\' ∧ isLineBreak c = false) (rest : List Char) :
    stringRest quote (decide (quotes.length = 3)) (text ++ quotes ++ rest) = some (text ++ quotes, rest) := by
  have hback : quote ≠ '\\' := by rcases hquotes.1 with rfl | rfl <;> decide
  induction text with
  | nil =>
    rw [List.nil_append]
    rcases hquotes.2 with rfl | rfl
    · rw [List.singleton_append, stringRest.eq_4]
      · simp
      · exact fun _ h => absurd h hback
      · exact fun _ _ h => absurd h hback
    · rw [List.cons_append, stringRest.eq_4]
      · simp [List.isPrefixOf]
      · exact fun _ h => absurd h hback
      · exact fun _ _ h => absurd h hback
  | cons c text ih =>
    rw [List.forall_mem_cons] at htext
    obtain ⟨⟨hne, hc, hline⟩, htext⟩ := htext
    rw [List.cons_append, List.cons_append, stringRest.eq_4]
    · rw [if_neg hne, if_neg (by simp [hline]), ih htext]
      rfl
    · exact fun _ h => absurd h hc
    · exact fun _ _ h => absurd h hc

/-- The new literal is read as one, if no carriage return is written into it. -/
theorem isLiteral_literalLike (literal : List Char) {identity : Identity} (hne : identity.toList ≠ [])
    (hreturn : '\r' ∉ identity.toList) : IsLiteral (literalLike literal identity) := by
  rcases literalLike_eq literal identity with hquoted | ⟨quote, quotes, hquotes, heq, hback, hquote, hline⟩
  · rw [hquoted]
    exact isLiteral_quoted hne
  · rw [heq, List.append_assoc]
    refine isLiteral_of_stringRest hquotes (fun rest => ?_) (stringRest_between hquotes fun c hc => ?_)
    · rw [List.append_assoc]
      exact openingQuotes_append rest hquotes hquote fun hnil => absurd hnil hne
    · refine ⟨?_, ?_, ?_⟩
      · rintro rfl
        exact hquote hc
      · rintro rfl
        exact hback hc
      · rw [isLineBreak, Bool.or_eq_false_iff, beq_eq_false_iff_ne, beq_eq_false_iff_ne]
        refine ⟨?_, ?_⟩
        · rintro rfl
          exact hline hc
        · rintro rfl
          exact hreturn hc

theorem toList_ne_nil_of_ofTarget {extension target : String} {identity : Identity}
    (h : Identity.ofTarget extension directory target = .ok identity) : identity.toList ≠ [] := by
  rw [Identity.ofTarget] at h
  simp only at h
  split at h
  · cases h
  · split at h
    · cases h
    · split at h
      · cases h
      · cases h
        simp

/-! ### The call -/

theorem exists_of_leafCall {name : Token} {rest : List Tree} {literal : Token}
    (hformed : (Grammar.Tree.node .call (.leaf name :: rest)).WellFormed)
    (hcalls : (Grammar.Tree.node .call (.leaf name :: rest)).Calls)
    (hcall : callOf? naming.load (.node .call (.leaf name :: rest)) = some (.leaf name, rest))
    (hliteral : literalOf naming.load rest = .ok literal) :
    ∃ (opening : Token) (value : Tree) (closing : List Token), name.kind = .name
      ∧ name.text = naming.load.toList ∧ (opening.kind = .name ∨ opening.kind = .operator)
      ∧ opening.text = ['('] ∧ bare value = .leaf literal ∧ literal.kind = .string
      ∧ rest = .leaf opening :: .node .argument [value] :: closing.map .leaf := by
  obtain ⟨-, -, _, hleaf, hkind, htext⟩ := callOf?_eq_some hcall
  cases hleaf
  obtain ⟨-, opening, value, closing, rfl, -, hvalue, hstring⟩ := parts_of_literalOf hformed hliteral
  cases hcalls with
  | node _ _ hparens _ =>
  obtain ⟨_, _, heq, hparens⟩ := hparens rfl
  cases heq
  generalize hmore : opening.map Grammar.Tree.leaf ++ .node .argument [value] :: closing.map .leaf
    = more at hparens ⊢
  cases hparens with
  | @mk first inner last hopening hinner =>
  rw [Test.holds, Bool.and_eq_true, Bool.or_eq_true, beq_iff_eq, beq_iff_eq, beq_iff_eq] at hopening
  refine ⟨first, value, closing, hkind, htext, hopening.1, hopening.2, hvalue, hstring, ?_⟩
  rw [← hmore]
  cases opening with
  | nil => cases hmore
  | cons token opening =>
    obtain ⟨htoken, hmore'⟩ := List.cons.inj hmore
    cases htoken
    cases opening with
    | nil => rfl
    | cons other opening =>
      exfalso
      cases inner with
      | nil => cases opening <;> cases hmore'
      | cons tree inner =>
        obtain ⟨htree, -⟩ := List.cons.inj hmore'
        exact hinner other inner (by rw [← htree])

end Bundler.Load
