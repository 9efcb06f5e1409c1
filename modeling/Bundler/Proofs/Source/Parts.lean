import Bundler.Source.Lexer
import Mathlib.Data.List.TakeDrop

/-!
# Splitting a text

Each function of the lexer that splits a text gives two parts that make up the text, and the text of a
token is never empty.
-/

namespace Bundler.Source

variable {chars run left rest : List Char}

/-- What comes behind the characters that pass a test does not pass it. -/
theorem eq_false_of_dropWhile {p : Char → Bool} {c : Char} (h : (chars.dropWhile p).head? = some c) :
    p c = false := by
  have hhead := List.head?_dropWhile_not p chars
  rw [h] at hhead
  simpa using hhead

/-- A split of the rest of a text gives a split of the text. -/
theorem append_of_map {split : Option (List Char × List Char)} (first : List Char)
    (h : (split.map fun part => (first ++ part.1, part.2)) = some (run, left))
    (hsplit : ∀ more, split = some (more, left) → more ++ left = rest) :
    run ++ left = first ++ rest := by
  obtain ⟨⟨more, others⟩, hmore, heq⟩ := Option.map_eq_some_iff.1 h
  obtain ⟨rfl, rfl⟩ := Prod.mk.inj heq
  rw [List.append_assoc, hsplit more hmore]

theorem append_of_nothing (h : some ([], chars) = some (run, left)) : run ++ left = chars := by
  cases h
  rfl

theorem append_of_digitRun {isDigit : Char → Bool} (h : digitRun isDigit chars = some (run, left)) :
    run ++ left = chars := by
  induction chars using digitRun.induct isDigit generalizing run with
  | case1 =>
    rw [digitRun] at h
    cases h
    rfl
  | case2 c rest hdigit ih =>
    rw [digitRun, if_pos hdigit] at h
    exact append_of_map ['_', c] h fun _ => ih
  | case3 c rest hdigit =>
    rw [digitRun, if_neg hdigit] at h
    cases h
  | case4 c rest hshape hdigit ih =>
    rw [digitRun.eq_3 _ _ _ hshape, if_pos hdigit] at h
    exact append_of_map [c] h fun _ => ih
  | case5 rest hshape hdigit =>
    rw [digitRun.eq_3 _ _ _ hshape, if_neg hdigit, if_pos rfl] at h
    cases h
  | case6 c rest hshape hdigit hunderscore =>
    rw [digitRun.eq_3 _ _ _ hshape, if_neg hdigit, if_neg hunderscore] at h
    cases h
    rfl

theorem append_of_exponent (h : exponent chars = some (run, left)) : run ++ left = chars := by
  unfold exponent at h
  split at h
  next e sign digit rest =>
    split at h
    · split at h
      · split at h
        · exact append_of_map [e, sign, digit] h fun _ => append_of_digitRun
        · cases h
      · split at h
        · exact append_of_map [e, sign] h fun _ => append_of_digitRun
        · exact append_of_nothing h
    · exact append_of_nothing h
  next e c =>
    split at h
    · split at h
      · cases h
      · split at h
        · cases h
          rfl
        · exact append_of_nothing h
    · exact append_of_nothing h
  · exact append_of_nothing h

theorem append_imaginaryMark (chars : List Char) :
    (imaginaryMark chars).1 ++ (imaginaryMark chars).2 = chars := by
  unfold imaginaryMark
  split
  · split <;> rfl
  · rfl

theorem append_of_power {digits : List Char}
    (h : ((exponent rest).bind fun part =>
      some (digits ++ part.1 ++ (imaginaryMark part.2).1, (imaginaryMark part.2).2)) = some (run, left)) :
    run ++ left = digits ++ rest := by
  obtain ⟨⟨power, others⟩, hpower, heq⟩ := Option.bind_eq_some_iff.1 h
  cases heq
  rw [List.append_assoc, List.append_assoc, append_imaginaryMark, append_of_exponent hpower]

theorem append_of_fraction (h : fraction chars = some (run, left)) : run ++ left = chars := by
  unfold fraction at h
  simp only [Option.bind_eq_bind, Option.bind_some] at h
  split at h
  next c rest =>
    split at h
    · obtain ⟨⟨digits, others⟩, hdigits, h⟩ := Option.bind_eq_some_iff.1 h
      rw [append_of_power h, append_of_digitRun hdigits]
    · exact append_of_power h
  · exact append_of_power h

theorem append_of_decimalNumber (h : decimalNumber chars = some (run, left)) : run ++ left = chars := by
  unfold decimalNumber at h
  simp only [Option.bind_eq_bind] at h
  obtain ⟨⟨whole, rest⟩, hwhole, h⟩ := Option.bind_eq_some_iff.1 h
  rw [← append_of_digitRun hwhole]
  simp only at h
  split at h
  next more =>
    obtain ⟨⟨tail, others⟩, htail, h⟩ := Option.bind_eq_some_iff.1 h
    cases h
    rw [List.append_assoc, List.cons_append, append_of_fraction htail]
  · obtain ⟨⟨power, others⟩, hpower, h⟩ := Option.bind_eq_some_iff.1 h
    simp only at h
    split at h
    · cases h
    · cases h
      rw [List.append_assoc, List.append_assoc, append_imaginaryMark, append_of_exponent hpower]

theorem append_of_number (h : number chars = some (run, left)) : run ++ left = chars := by
  unfold number at h
  split at h
  · exact append_of_map ['.'] h fun _ => append_of_fraction
  next letter rest =>
    split at h
    next isDigit hradix =>
      split at h
      · split at h
        · split at h
          next digits others hdigits =>
            split at h
            · cases h
            · cases h
              rw [List.cons_append, List.cons_append, append_of_digitRun hdigits]
          · cases h
        · cases h
      · cases h
    · exact append_of_decimalNumber h
  · exact append_of_decimalNumber h

theorem append_of_stringRest {quote : Char} {triple : Bool}
    (h : stringRest quote triple chars = some (run, left)) : run ++ left = chars := by
  fun_induction stringRest quote triple chars generalizing run with
  | case1 => cases h
  | case2 rest ih => exact append_of_map ['\\', '\r', '\n'] h fun _ => ih
  | case3 c rest _ ih => exact append_of_map ['\\', c] h fun _ => ih
  | case4 rest htriple hquotes =>
    obtain ⟨others, rfl⟩ := List.isPrefixOf_iff_prefix.1 hquotes
    cases h
    rfl
  | case5 rest htriple hquotes _ _ ih => exact append_of_map [quote] h fun _ => ih
  | case6 rest htriple =>
    cases h
    rfl
  | case7 c rest => cases h
  | case8 c rest hquote hline _ _ ih => exact append_of_map [c] h fun _ => ih

theorem append_of_stringPrefix? (h : stringPrefix? chars = some (run, left)) : run ++ left = chars := by
  unfold stringPrefix? at h
  rw [List.span_eq_takeWhile_dropWhile] at h
  simp only at h
  split at h
  next quote rest hrest =>
    split at h
    · cases h
      exact List.takeWhile_append_dropWhile
    · cases h
  · cases h

theorem exists_quote_of_stringPrefix? (h : stringPrefix? chars = some (run, left)) :
    ∃ quote more, left = quote :: more ∧ (quote = '"' ∨ quote = '\'') := by
  unfold stringPrefix? at h
  rw [List.span_eq_takeWhile_dropWhile] at h
  simp only at h
  split at h
  next quote rest hrest =>
    split at h
    next hquote =>
      cases h
      refine ⟨quote, rest, hrest, ?_⟩
      simpa using (Bool.and_eq_true_iff.1 hquote).1
    · cases h
  · cases h

theorem openingQuotes_ne_nil (quote : Char) (rest : List Char) :
    (openingQuotes (quote :: rest)).1 ≠ [] := by
  rw [openingQuotes]
  split
  · exact List.cons_ne_nil _ _
  · exact List.cons_ne_nil _ _

theorem append_openingQuotes (chars : List Char) :
    (openingQuotes chars).1 ++ (openingQuotes chars).2.2 = chars := by
  unfold openingQuotes
  split
  next quote rest =>
    split
    next hquotes =>
      obtain ⟨others, rfl⟩ := List.isPrefixOf_iff_prefix.1 hquotes
      rfl
    · rfl
  · rfl

theorem append_of_formatRun {frame : Frame} {named : Bool}
    (h : formatRun frame named chars = some (run, left)) : run ++ left = chars := by
  fun_induction formatRun frame named chars generalizing run with
  | case1 => cases h
  | case2 named rest ih => exact append_of_map ['\\', '\r', '\n'] h fun _ => ih
  | case3 named rest hnamed ih => exact append_of_map ['\\', 'N', '{'] h fun _ => ih
  | case4 named rest hnamed ih => exact append_of_map ['\\', 'N'] h fun _ => ih
  | case5 named c rest _ _ _ ih => exact append_of_map ['\\'] h fun _ => ih
  | case6 named c rest _ _ _ ih => exact append_of_map ['\\', c] h fun _ => ih
  | case7 => exact append_of_nothing h
  | case8 named hspec rest ih => exact append_of_map ['{', '{'] h fun _ => ih
  | case9 => exact append_of_nothing h
  | case10 rest ih => exact append_of_map ['}'] h fun _ => ih
  | case11 => exact append_of_nothing h
  | case12 named hnamed hspec rest ih => exact append_of_map ['}', '}'] h fun _ => ih
  | case13 => exact append_of_nothing h
  | case14 => exact append_of_nothing h
  | case15 => exact append_of_nothing h
  | case16 => cases h
  | case17 named c rest hclosing hline _ _ _ _ _ ih => exact append_of_map [c] h fun _ => ih

theorem append_of_operator? (h : operator? chars = some (run, left)) : run ++ left = chars := by
  obtain ⟨text, htext, heq⟩ := Option.map_eq_some_iff.1 h
  obtain ⟨rfl, rfl⟩ := Prod.mk.inj heq
  have hprefix := List.find?_some htext
  obtain ⟨others, rfl⟩ := List.isPrefixOf_iff_prefix.1 hprefix
  rw [List.drop_left]

theorem operator?_ne_nil (h : operator? chars = some (run, left)) : run ≠ [] := by
  obtain ⟨text, htext, heq⟩ := Option.map_eq_some_iff.1 h
  obtain ⟨rfl, rfl⟩ := Prod.mk.inj heq
  have hall : (operators.all fun text => !text.isEmpty) = true := by decide
  have hempty := List.all_eq_true.1 hall text (List.mem_of_find?_eq_some htext)
  rintro rfl
  cases hempty

theorem append_of_fieldOperator? {mode : Mode} (h : fieldOperator? mode chars = some (run, left)) :
    run ++ left = chars := by
  unfold fieldOperator? at h
  split at h
  · split at h
    · cases h
      rfl
    · cases h
  · split at h
    · cases h
      rfl
    · cases h
  · cases h

theorem fieldOperator?_ne_nil {mode : Mode} (h : fieldOperator? mode chars = some (run, left)) :
    run ≠ [] := by
  unfold fieldOperator? at h
  split at h
  · split at h
    · cases h
      exact List.cons_ne_nil _ _
    · cases h
  · split at h
    · cases h
      exact List.cons_ne_nil _ _
    · cases h
  · cases h

theorem append_of_lexemeAt {mode next : Mode} {kind : TokenKind}
    (h : lexemeAt mode chars = .ok (kind, run, left, next)) : run ++ left = chars := by
  unfold lexemeAt at h
  split at h
  next letters quoted hprefix =>
    have hquotes := append_openingQuotes quoted
    rw [← append_of_stringPrefix? hprefix, ← hquotes]
    simp only at h
    split at h
    · cases h
      rw [List.append_assoc]
    · split at h
      next body others hbody =>
        cases h
        rw [List.append_assoc, List.append_assoc, append_of_stringRest hbody]
      · cases h
  next hprefix =>
    split at h
    · cases h
    next c rest =>
      split at h
      · rw [List.span_eq_takeWhile_dropWhile] at h
        simp only at h
        split at h
        · cases h
          exact List.takeWhile_append_dropWhile
        · cases h
      · split at h
        · split at h
          next text others hnumber =>
            cases h
            exact append_of_number hnumber
          · cases h
        · split at h
          next text others hoperator =>
            split at h
            · cases h
              rcases Option.or_eq_some_iff.1 hoperator with hfield | ⟨-, hoperator⟩
              · exact append_of_fieldOperator? hfield
              · exact append_of_operator? hoperator
            · cases h
          · cases h

theorem decimalNumber_ne_nil {c : Char} (hc : c.isDigit = true)
    (h : decimalNumber (c :: rest) = some (run, left)) : run ≠ [] := by
  have hshape : ∀ (d : Char) (more : List Char), c = '_' → rest = d :: more → False := by
    rintro d more rfl
    cases hc
  unfold decimalNumber at h
  simp only [Option.bind_eq_bind] at h
  obtain ⟨⟨whole, others⟩, hwhole, h⟩ := Option.bind_eq_some_iff.1 h
  rw [digitRun.eq_3 _ _ _ hshape, if_pos hc] at hwhole
  obtain ⟨⟨digits, more⟩, -, heq⟩ := Option.map_eq_some_iff.1 hwhole
  cases heq
  simp only at h
  split at h
  · obtain ⟨⟨tail, more⟩, -, heq⟩ := Option.bind_eq_some_iff.1 h
    cases heq
    exact List.cons_ne_nil _ _
  · obtain ⟨⟨power, more⟩, -, h⟩ := Option.bind_eq_some_iff.1 h
    simp only at h
    split at h
    · cases h
    · cases h
      exact List.cons_ne_nil _ _

theorem number_ne_nil {c : Char} (hc : c.isDigit = true ∨ c = '.')
    (h : number (c :: rest) = some (run, left)) : run ≠ [] := by
  unfold number at h
  split at h
  · obtain ⟨⟨tail, more⟩, -, heq⟩ := Option.map_eq_some_iff.1 h
    cases heq
    exact List.cons_ne_nil _ _
  next letter more heq =>
    split at h
    · split at h
      · split at h
        · split at h
          · split at h
            · cases h
            · cases h
              exact List.cons_ne_nil _ _
          · cases h
        · cases h
      · cases h
    · obtain ⟨rfl, rfl⟩ := List.cons.inj heq
      exact decimalNumber_ne_nil rfl h
  next hpoint _ =>
    refine decimalNumber_ne_nil (hc.resolve_right ?_) h
    rintro rfl
    exact hpoint rest rfl

theorem lexemeAt_ne_nil {mode next : Mode} {kind : TokenKind}
    (h : lexemeAt mode chars = .ok (kind, run, left, next)) : run ≠ [] := by
  unfold lexemeAt at h
  split at h
  next letters quoted hprefix =>
    obtain ⟨quote, more, rfl, -⟩ := exists_quote_of_stringPrefix? hprefix
    have hquotes := openingQuotes_ne_nil quote more
    simp only at h
    split at h
    · cases h
      simp [hquotes]
    · split at h
      · cases h
        simp [hquotes]
      · cases h
  next hprefix =>
    split at h
    · cases h
    next c rest =>
      split at h
      next hname =>
        rw [List.span_eq_takeWhile_dropWhile] at h
        simp only at h
        split at h
        · cases h
          have hpart : (c.isAlphanum || c == '_' || decide (0x80 ≤ c.toNat)) = true := by
            rw [Bool.or_eq_true, Bool.or_eq_true] at hname ⊢
            rw [Char.isAlphanum, Bool.or_eq_true]
            exact hname.imp_left (Or.imp_left .inl)
          rw [List.takeWhile_cons, if_pos hpart]
          exact List.cons_ne_nil _ _
        · cases h
      · split at h
        next hnumber =>
          split at h
          next text others htext =>
            cases h
            refine number_ne_nil ?_ htext
            rw [Bool.or_eq_true, Bool.and_eq_true, beq_iff_eq] at hnumber
            exact hnumber.imp_right And.left
          · cases h
        · split at h
          next text others hoperator =>
            split at h
            · cases h
              rcases Option.or_eq_some_iff.1 hoperator with hfield | ⟨-, hoperator⟩
              · exact fieldOperator?_ne_nil hfield
              · exact operator?_ne_nil hoperator
            · cases h
          · cases h

end Bundler.Source
