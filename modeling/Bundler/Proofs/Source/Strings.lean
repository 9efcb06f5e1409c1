import Bundler.Proofs.Source.Scanning

/-!
# Strings before another text

A string ends with its closing quotes, whatever follows. The text of a formatted string ends where it
ended before when what follows stops it as well.
-/

namespace Bundler.Source

variable {chars run left other : List Char}

theorem exists_of_map {split : Option (List Char × List Char)} (first : List Char)
    (h : (split.map fun part => (first ++ part.1, part.2)) = some (run, left)) :
    ∃ more, split = some (more, left) ∧ run = first ++ more := by
  obtain ⟨⟨more, others⟩, hmore, heq⟩ := Option.map_eq_some_iff.1 h
  cases heq
  exact ⟨more, hmore, rfl⟩

/-! ### Strings -/

theorem stringRest_length {quote : Char} (h : stringRest quote true chars = some (run, left)) :
    3 ≤ run.length := by
  have hmap : ∀ {rest run : List Char} (first : List Char),
      (∀ {more}, stringRest quote true rest = some (more, left) → 3 ≤ more.length) →
      ((stringRest quote true rest).map fun part => (first ++ part.1, part.2)) = some (run, left) →
      3 ≤ run.length := by
    intro rest run first ih h
    obtain ⟨more, hmore, rfl⟩ := exists_of_map first h
    rw [List.length_append]
    exact Nat.le_add_left_of_le (ih hmore)
  fun_induction stringRest quote true chars generalizing run with
  | case1 => cases h
  | case2 rest ih => exact hmap ['\\', '\r', '\n'] ih h
  | case3 c rest _ ih => exact hmap ['\\', c] ih h
  | case4 =>
    cases h
    exact Nat.le_refl _
  | case5 rest _ _ _ _ ih => exact hmap [quote] ih h
  | case6 _ hfalse => exact absurd rfl hfalse
  | case7 => cases h
  | case8 c rest _ _ _ _ ih => exact hmap [c] ih h

theorem head?_append_of_ne_nil (h : run ≠ []) (left other : List Char) :
    (run ++ other).head? = (run ++ left).head? := by
  cases run with
  | nil => exact absurd rfl h
  | cons => rfl

theorem stringRest_ne_nil {quote : Char} {triple : Bool}
    (h : stringRest quote triple chars = some (run, left)) : run ≠ [] := by
  have hmap : ∀ {rest : List Char} (c : Char) (first : List Char),
      ((stringRest quote triple rest).map fun part => (c :: first ++ part.1, part.2)) = some (run, left) →
      run ≠ [] := by
    intro rest c first h
    obtain ⟨more, -, rfl⟩ := exists_of_map (c :: first) h
    exact List.cons_ne_nil _ _
  unfold stringRest at h
  split at h
  · cases h
  · exact hmap '\\' ['\r', '\n'] h
  next c _ _ => exact hmap '\\' [c] h
  next c _ _ _ =>
    split at h
    · split at h
      · split at h
        · cases h
          exact List.cons_ne_nil _ _
        · exact hmap c [] h
      · cases h
        exact List.cons_ne_nil _ _
    · split at h
      · cases h
      · exact hmap c [] h

theorem stringRest_append {quote : Char} {triple : Bool} (hquote : quote ≠ '\\')
    (h : stringRest quote triple chars = some (run, left)) (other : List Char) :
    stringRest quote triple (run ++ other) = some (run, other) := by
  fun_induction stringRest quote triple chars generalizing run with
  | case1 => cases h
  | case2 rest ih =>
    obtain ⟨more, hmore, rfl⟩ := exists_of_map ['\\', '\r', '\n'] h
    show stringRest quote triple ('\\' :: '\r' :: '\n' :: (more ++ other)) = _
    rw [stringRest, ih hmore]
    rfl
  | case3 c rest hshape ih =>
    obtain ⟨more, hmore, rfl⟩ := exists_of_map ['\\', c] h
    show stringRest quote triple ('\\' :: c :: (more ++ other)) = _
    rw [stringRest, ih hmore]
    · rfl
    · intro others hreturn heq
      have hhead := head?_append_of_ne_nil (stringRest_ne_nil hmore) left other
      rw [heq, append_of_stringRest hmore] at hhead
      obtain ⟨more, hrest⟩ := List.head?_eq_some_iff.1 hhead.symm
      exact hshape more hreturn hrest
  | case4 rest htriple hquotes hback hshape =>
    cases h
    show stringRest quote triple (quote :: quote :: quote :: other) = _
    rw [stringRest]
    · simp [htriple]
    · exact fun _ heq => absurd heq hquote
    · exact fun _ _ heq => absurd heq hquote
  | case5 rest htriple hquotes hback hshape ih =>
    obtain ⟨more, hmore, rfl⟩ := exists_of_map [quote] h
    obtain rfl : triple = true := htriple
    have hlength := stringRest_length hmore
    have hmiddle : ¬[quote, quote].isPrefixOf (more ++ other) = true := by
      rw [← append_of_stringRest hmore] at hquotes
      match more, hlength with
      | first :: second :: third :: more, _ => simpa using hquotes
    show stringRest quote true (quote :: (more ++ other)) = _
    rw [stringRest]
    · rw [if_pos rfl, if_pos rfl, if_neg hmiddle, ih hmore]
      rfl
    · exact fun _ heq => absurd heq hquote
    · exact fun _ _ heq => absurd heq hquote
  | case6 rest htriple hback hshape =>
    cases h
    rw [List.singleton_append, stringRest]
    · simp [htriple]
    · exact fun _ heq => absurd heq hquote
    · exact fun _ _ heq => absurd heq hquote
  | case7 c rest => cases h
  | case8 c rest hback hshape hne hline ih =>
    obtain ⟨more, hmore, rfl⟩ := exists_of_map [c] h
    have hplain : c ≠ '\\' := by
      rintro rfl
      obtain ⟨d, more, rfl⟩ := List.exists_cons_of_ne_nil (stringRest_ne_nil hmore)
      rw [← append_of_stringRest hmore] at hshape
      exact hshape d _ rfl rfl
    show stringRest quote triple (c :: (more ++ other)) = _
    rw [stringRest]
    · rw [if_neg hne, if_neg hline, ih hmore]
      rfl
    · exact fun _ heq => absurd heq hplain
    · exact fun _ _ heq => absurd heq hplain

theorem stringPrefix?_append {quote : Char} {letters more : List Char}
    (h : stringPrefix? chars = some (letters, quote :: more)) (other : List Char) :
    stringPrefix? (letters ++ quote :: other) = some (letters, quote :: other) := by
  unfold stringPrefix? at h ⊢
  rw [List.span_eq_takeWhile_dropWhile] at h
  simp only at h
  split at h
  next found rest hrest =>
    split at h
    next hquote =>
      rw [hrest] at h
      cases h
      have hletters : ∀ c ∈ chars.takeWhile Char.isAlpha, c.isAlpha = true :=
        fun c hc => List.mem_takeWhile_imp hc
      have hnext : ∀ c, (quote :: other).head? = some c → c.isAlpha = false := by
        rintro c ⟨⟩
        exact eq_false_of_dropWhile (congrArg List.head? hrest)
      rw [span_append hletters hnext]
      simp only
      rw [if_pos hquote]
    · cases h
  · cases h

theorem stringPrefix?_of_head {c : Char} (hc : c.isAlpha = false) (more : List Char) :
    stringPrefix? (c :: more) = if c == '"' || c == '\'' then some ([], c :: more) else none := by
  have hspan : (c :: more).span Char.isAlpha = ([], c :: more) := by
    rw [List.span_eq_takeWhile_dropWhile, List.takeWhile_cons_of_neg (by simp [hc]),
      List.dropWhile_cons_of_neg (by simp [hc])]
  rw [stringPrefix?, hspan]
  simp

theorem stringPrefix?_eq_none_append {text : List Char} (hhead : other.head? = left.head?)
    (hleft : ∀ c, left.head? = some c → c.isAlpha = false) (h : stringPrefix? (text ++ left) = none) :
    stringPrefix? (text ++ other) = none := by
  have hspan : ∀ rest : List Char, (∀ c, rest.head? = some c → c.isAlpha = false) →
      (text ++ rest).span Char.isAlpha
        = (text.takeWhile Char.isAlpha, text.dropWhile Char.isAlpha ++ rest) := by
    intro rest hrest
    have hnext : ∀ c, (text.dropWhile Char.isAlpha ++ rest).head? = some c → c.isAlpha = false := by
      intro c hc
      cases hmore : text.dropWhile Char.isAlpha with
      | nil =>
        rw [hmore] at hc
        exact hrest c hc
      | cons d more =>
        rw [hmore] at hc
        cases hc
        exact eq_false_of_dropWhile (congrArg List.head? hmore)
    have hletters : ∀ c ∈ text.takeWhile Char.isAlpha, c.isAlpha = true :=
      fun c hc => List.mem_takeWhile_imp hc
    have happend := span_append hletters hnext
    rwa [← List.append_assoc, List.takeWhile_append_dropWhile] at happend
  have hsame : (text.dropWhile Char.isAlpha ++ other).head?
      = (text.dropWhile Char.isAlpha ++ left).head? := by
    rw [List.head?_append, List.head?_append, hhead]
  unfold stringPrefix? at h ⊢
  rw [hspan left hleft] at h
  rw [hspan other (hhead ▸ hleft)]
  simp only at h ⊢
  cases hmore : text.dropWhile Char.isAlpha ++ other with
  | nil => rfl
  | cons c more =>
    rw [hmore] at hsame
    obtain ⟨others, hothers⟩ := List.head?_eq_some_iff.1 hsame.symm
    rw [hothers] at h
    simp only at h ⊢
    split at h
    · cases h
    next hquote => rw [if_neg hquote]

theorem openingQuotes_eq {quote : Char} {quotes more : List Char} {triple : Bool}
    (h : openingQuotes (quote :: more) = (quotes, triple, left)) :
    (∃ others, quotes = quote :: others) ∧ (triple = false → [quote, quote].isPrefixOf left = false)
      ∧ ∀ other, (triple = false → [quote, quote].isPrefixOf other = false) →
        openingQuotes (quotes ++ other) = (quotes, triple, other) := by
  rw [openingQuotes] at h
  split at h
  · cases h
    exact ⟨⟨_, rfl⟩, by simp, fun other _ => by simp [openingQuotes]⟩
  next hquotes =>
    cases h
    rw [Bool.not_eq_true] at hquotes
    refine ⟨⟨_, rfl⟩, fun _ => hquotes, fun other hother => ?_⟩
    rw [List.singleton_append, openingQuotes, if_neg (by simp [hother rfl])]

/-! ### Formatted strings -/

/-- In a long string, a quote stops the text only where the closing quotes begin. -/
theorem isPrefixOf_closing {frame : Frame} {named : Bool} {c : Char} (htriple : frame.triple = true)
    (hback : c ≠ '\\') (hopen : c ≠ '{') (hclose : c ≠ '}')
    (h : formatRun frame named (c :: rest) = some ([], c :: rest)) :
    frame.closing.isPrefixOf (c :: rest) = true := by
  rw [formatRun] at h
  · split at h
    next hclosing => exact hclosing
    · rw [if_neg (by simp [htriple])] at h
      obtain ⟨more, -, heq⟩ := exists_of_map [c] h
      cases heq
  · exact fun _ heq => absurd heq hback
  · exact fun _ heq => absurd heq hback
  · exact fun _ _ heq => absurd heq hback
  · exact fun heq => absurd heq hopen
  · exact fun heq => absurd heq hclose

theorem not_isPrefixOf_closing {frame : Frame} {named : Bool} {c : Char} (hback : c ≠ '\\')
    (hopen : c ≠ '{') (hclose : c ≠ '}') (hclosing : ¬frame.closing.isPrefixOf (c :: (run ++ left)) = true)
    (hrun : formatRun frame named (run ++ left) = some (run, left)) (hhead : other.head? = left.head?) :
    ¬frame.closing.isPrefixOf (c :: (run ++ other)) = true := by
  intro h
  unfold Frame.closing at hclosing h
  split at h
  next htriple =>
    rw [if_pos htriple] at hclosing
    match run with
    | first :: second :: run => exact hclosing (by simpa using h)
    | [first] =>
      simp only [List.cons_append, List.nil_append, List.isPrefixOf, Bool.and_eq_true, beq_iff_eq] at h
      obtain ⟨rfl, rfl, h⟩ := h
      cases other with
      | nil => cases h
      | cons d other =>
        simp only [List.isPrefixOf, Bool.and_true, beq_iff_eq] at h
        obtain ⟨more, rfl⟩ := List.head?_eq_some_iff.1 hhead.symm
        exact hclosing (by simp [h])
    | [] =>
      simp only [List.nil_append, List.isPrefixOf, Bool.and_eq_true, beq_iff_eq] at h
      obtain ⟨rfl, h⟩ := h
      cases other with
      | nil => cases h
      | cons d other =>
        simp only [List.isPrefixOf, Bool.and_eq_true, beq_iff_eq] at h
        obtain ⟨more, rfl⟩ := List.head?_eq_some_iff.1 hhead.symm
        rw [← h.1] at hrun hclosing
        have hleft := isPrefixOf_closing htriple hback hopen hclose hrun
        rw [Frame.closing, if_pos htriple] at hleft
        obtain ⟨others, heq⟩ := List.isPrefixOf_iff_prefix.1 hleft
        rw [List.nil_append, ← heq] at hclosing
        exact hclosing (by simp)
  next htriple =>
    rw [if_neg htriple] at hclosing
    exact hclosing (by simpa using h)

/-- An escape that is not one of a line break or a name reads on in the same way where the text behind it begins
in the same way. -/
theorem formatRun_escape {frame : Frame} {named : Bool} {c : Char} {rest : List Char} (hbrace : ¬(c = '{' ∨ c = '}'))
    (hbreak : ∀ others, c = '\r' → rest = '\n' :: others → False)
    (hname : ∀ others, c = 'N' → rest = '{' :: others → False) (hrest : rest = run ++ left)
    (hhead : other.head? = left.head?) (hagain : formatRun frame named (run ++ other) = some (run, other)) :
    formatRun frame named ('\\' :: c :: (run ++ other)) = some ('\\' :: c :: run, other) := by
  have hnext : ∀ {d : Char} {others : List Char}, run ++ other = d :: others → ∃ more, rest = d :: more := by
    intro d others heq
    rw [← List.head?_eq_some_iff, hrest, List.head?_append, ← hhead, ← List.head?_append, heq]
    rfl
  rw [formatRun, if_neg hbrace, hagain]
  · rfl
  · intro others hreturn heq
    obtain ⟨more, hmore⟩ := hnext heq
    exact hbreak more hreturn hmore
  · intro others hletter heq
    obtain ⟨more, hmore⟩ := hnext heq
    exact hname more hletter hmore

theorem formatRun_brace {frame : Frame} {named : Bool} {c : Char} {rest : List Char} (hbrace : c = '{' ∨ c = '}')
    (h : formatRun frame named (c :: rest) = some (run, left)) :
    formatRun frame named ('\\' :: c :: rest) = some ('\\' :: run, left) := by
  rw [formatRun, if_pos hbrace, h]
  · rfl
  · rcases hbrace with rfl | rfl <;> (intro _ heq; cases heq)
  · rcases hbrace with rfl | rfl <;> (intro _ heq; cases heq)

/-- A character that stands for itself is read in front of text that begins in the same way, as the closing quotes
do not begin with it there either. -/
theorem formatRun_plain {frame : Frame} {named : Bool} {c : Char} {rest : List Char}
    (hback : ∀ d others, c = '\\' → rest = d :: others → False) (hopen : c ≠ '{') (hclose : c ≠ '}')
    (hclosing : ¬frame.closing.isPrefixOf (c :: rest) = true) (hline : ¬(isLineBreak c && !frame.triple) = true)
    (hrest : formatRun frame named rest = some (run, left)) (hhead : other.head? = left.head?)
    (hagain : formatRun frame named (run ++ other) = some (run, other)) :
    formatRun frame named (c :: (run ++ other)) = some (c :: run, other) := by
  have hplain : c ≠ '\\' := by
    rintro rfl
    cases rest with
    | nil =>
      rw [formatRun] at hrest
      cases hrest
    | cons d rest => exact hback d rest rfl rfl
  have hrun := append_of_formatRun hrest
  rw [← hrun] at hrest hclosing
  have hopened := not_isPrefixOf_closing hplain hopen hclose hclosing hrest hhead
  rw [formatRun, if_neg hopened, if_neg hline, hagain]
  · rfl
  · exact fun _ heq => absurd heq hplain
  · exact fun _ heq => absurd heq hplain
  · exact fun _ _ heq => absurd heq hplain
  · exact hopen
  · exact hclose

/-- Text that was read in front of other text is read again in front of text that begins in the same way, and at which
reading stops if it stopped there. -/
theorem formatRun_append {frame : Frame} {named : Bool}
    (h : formatRun frame named chars = some (run, left)) (hhead : other.head? = left.head?)
    (hstop : ∀ named, formatRun frame named left = some ([], left) →
      formatRun frame named other = some ([], other)) :
    formatRun frame named (run ++ other) = some (run, other) := by
  have hempty : ∀ {named : Bool} {rest : List Char}, formatRun frame named rest = some ([], left) →
      formatRun frame named ([] ++ other) = some ([], other) := by
    intro named rest hrest
    have hleft := append_of_formatRun hrest
    rw [List.nil_append] at hleft
    exact hstop named (hleft ▸ hrest)
  rcases eq_or_ne run [] with rfl | hrun
  · exact hempty h
  have hagain : ∀ {named : Bool} {rest more : List Char}, formatRun frame named rest = some (more, left) →
      (more ≠ [] → formatRun frame named (more ++ other) = some (more, other)) →
      formatRun frame named (more ++ other) = some (more, other) := by
    intro named rest more hmore hread
    rcases eq_or_ne more [] with rfl | hsome
    · exact hempty hmore
    · exact hread hsome
  have hfirst : ∀ {named : Bool} {c : Char} {rest more : List Char},
      formatRun frame named (c :: rest) = some (more, left) → ∃ others, more ++ other = c :: others := by
    intro named c rest more hmore
    rw [← List.head?_eq_some_iff, List.head?_append, hhead, ← List.head?_append, append_of_formatRun hmore]
    rfl
  -- where nothing is read the run is empty, so that only the cases are left that read on
  fun_induction formatRun frame named chars generalizing run with
  | case1 | case16 => cases h
  | case7 | case9 | case11 | case13 | case14 | case15 =>
    cases h
    exact absurd rfl hrun
  | case2 named rest ih =>
    obtain ⟨more, hmore, rfl⟩ := exists_of_map ['\\', '\r', '\n'] h
    show formatRun frame named ('\\' :: '\r' :: '\n' :: (more ++ other)) = _
    rw [formatRun, hagain hmore (ih hmore)]
    rfl
  | case3 named rest hnamed ih =>
    obtain ⟨more, hmore, rfl⟩ := exists_of_map ['\\', 'N', '{'] h
    show formatRun frame named ('\\' :: 'N' :: '{' :: (more ++ other)) = _
    rw [formatRun, if_pos hnamed, hagain hmore (ih hmore)]
    rfl
  | case4 named rest hnamed ih =>
    obtain ⟨more, hmore, rfl⟩ := exists_of_map ['\\', 'N'] h
    obtain ⟨others, heq⟩ := hfirst hmore
    have hread := hagain hmore (ih hmore)
    show formatRun frame named ('\\' :: 'N' :: (more ++ other)) = _
    rw [heq] at hread ⊢
    rw [formatRun, if_neg hnamed, hread]
    rfl
  | case5 named c rest hbreak hname hc ih =>
    obtain ⟨more, hmore, rfl⟩ := exists_of_map ['\\'] h
    obtain ⟨others, heq⟩ := hfirst hmore
    have hread := hagain hmore (ih hmore)
    show formatRun frame named ('\\' :: (more ++ other)) = _
    rw [heq] at hread ⊢
    exact formatRun_brace hc hread
  | case6 named c rest hbreak hname hc ih =>
    obtain ⟨more, hmore, rfl⟩ := exists_of_map ['\\', c] h
    exact formatRun_escape hc hbreak hname (append_of_formatRun hmore).symm hhead (hagain hmore (ih hmore))
  | case8 named hspec rest ih =>
    obtain ⟨more, hmore, rfl⟩ := exists_of_map ['{', '{'] h
    show formatRun frame named ('{' :: '{' :: (more ++ other)) = _
    rw [formatRun, if_neg hspec]
    simp only [hagain hmore (ih hmore)]
    rfl
  | case10 rest ih =>
    obtain ⟨more, hmore, rfl⟩ := exists_of_map ['}'] h
    show formatRun frame true ('}' :: (more ++ other)) = _
    rw [formatRun.eq_def]
    simp only [if_true, hagain hmore (ih hmore)]
    rfl
  | case12 named hnamed hspec rest ih =>
    obtain ⟨more, hmore, rfl⟩ := exists_of_map ['}', '}'] h
    show formatRun frame named ('}' :: '}' :: (more ++ other)) = _
    rw [formatRun, if_neg hnamed, if_neg hspec]
    simp only [hagain hmore (ih hmore)]
    rfl
  | case17 named c rest hreturn hletter hback hopen hclose hclosing hline ih =>
    obtain ⟨more, hmore, rfl⟩ := exists_of_map [c] h
    exact formatRun_plain hback hopen hclose hclosing hline hmore hhead (hagain hmore (ih hmore))

end Bundler.Source
