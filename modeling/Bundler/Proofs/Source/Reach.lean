import Bundler.Proofs.Source.Number
import Bundler.Proofs.Source.Strings
import Mathlib.Data.List.Find

/-!
# How far the lexer looks

Where a token ends depends on a few characters after it. Two texts are `Akin` if a token before them
cannot tell them apart: they have the same characters up to one that decides nothing, or up to the
beginning of a name. The lexer reads the same token before both (`lexemeAt_append`).
-/

namespace Bundler.Source

variable {left rest other : List Char}

/-! ### Texts that start alike -/

def startsName (c : Char) : Bool := c.isAlpha || c == '_' || 0x80 ≤ c.toNat

def isNamePart (c : Char) : Bool := c.isAlphanum || c == '_' || 0x80 ≤ c.toNat

theorem isNamePart_of_startsName {c : Char} (h : startsName c = true) : isNamePart c = true := by
  rw [startsName, Bool.or_eq_true, Bool.or_eq_true] at h
  rw [isNamePart, Bool.or_eq_true, Bool.or_eq_true, Char.isAlphanum, Bool.or_eq_true]
  exact h.imp_left (Or.imp_left .inl)

theorem startsName_of_isDigit {c : Char} (h : c.isDigit = true) : startsName c = false := by
  have hval : 48 ≤ c.toNat ∧ c.toNat ≤ 57 := by
    simpa [Char.isDigit, UInt32.le_iff_toNat_le] using h
  have hupper : c.isUpper = false := by
    refine decide_eq_false fun hletter => ?_
    have hleast : 65 ≤ c.toNat := UInt32.le_iff_toNat_le.1 hletter.1
    omega
  have hlower : c.isLower = false := by
    refine Bool.and_eq_false_iff.2 (.inl (decide_eq_false fun hletter => ?_))
    have hleast : 97 ≤ c.toNat := UInt32.le_iff_toNat_le.1 hletter
    omega
  have hne : c ≠ '_' := by
    rintro rfl
    cases h
  have hletter : c.isAlpha = false := Bool.or_eq_false_iff.2 ⟨hupper, hlower⟩
  rw [startsName, hletter, beq_eq_false_iff_ne.2 hne, decide_eq_false (by omega)]
  rfl

/-- The character may be one of several that decide where the token before them ends. -/
def decides (c : Char) : Bool := "*/<>=.\"'eE".toList.contains c

/-- The texts start alike, as far as a token before them can see: they have the same characters up to one
that does not decide anything, or up to a name. -/
inductive Akin : List Char → List Char → Prop
  | nil : Akin [] []
  | stop {c : Char} (hc : decides c = false) (left other : List Char) : Akin (c :: left) (c :: other)
  | names {c d : Char} (hc : startsName c = true) (hd : startsName d = true) (left other : List Char) :
    Akin (c :: left) (d :: other)
  | cons (c : Char) {left other : List Char} (h : Akin left other) : Akin (c :: left) (c :: other)

theorem Akin.append (run : List Char) (h : Akin left other) : Akin (run ++ left) (run ++ other) := by
  induction run with
  | nil => exact h
  | cons c run ih => exact .cons c ih

theorem Akin.head_eq (h : Akin left other)
    (hleft : ∀ c, left.head? = some c → startsName c = false) : other.head? = left.head? := by
  cases h with
  | nil => rfl
  | stop => rfl
  | names hc =>
    have hnot := hleft _ rfl
    rw [hc] at hnot
    cases hnot
  | cons => rfl

/-- A character that no name starts with comes next in both or in neither. -/
theorem Akin.head_of_not (h : Akin left other) {c : Char} (hc : startsName c = false)
    (hother : other.head? = some c) : left.head? = some c := by
  cases h with
  | nil => exact hother
  | stop => exact hother
  | names _ hd =>
    cases hother
    rw [hd] at hc
    cases hc
  | cons => exact hother

theorem Akin.isPrefixOf (h : Akin left other) {word : List Char}
    (hword : ∀ c ∈ word, decides c = true ∧ startsName c = false) :
    word.isPrefixOf other = word.isPrefixOf left := by
  induction h generalizing word with
  | nil => rfl
  | stop hstop =>
    cases word with
    | nil => rfl
    | cons k word =>
      have hne : (k == _) = false := beq_eq_false_iff_ne.2 fun heq => by
        have hk := (hword k List.mem_cons_self).1
        rw [heq, hstop] at hk
        cases hk
      simp [List.isPrefixOf, hne]
  | names hc hd =>
    cases word with
    | nil => rfl
    | cons k word =>
      have hne : ∀ d, startsName d = true → (k == d) = false := by
        intro d hd
        refine beq_eq_false_iff_ne.2 fun heq => ?_
        have hk := (hword k List.mem_cons_self).2
        rw [heq, hd] at hk
        cases hk
      simp [List.isPrefixOf, hne _ hc, hne _ hd]
  | cons c _ ih =>
    cases word with
    | nil => rfl
    | cons k word =>
      rw [List.forall_mem_cons] at hword
      simp only [List.isPrefixOf, ih hword.2]

theorem Near.stop {c : Char} (hc : decides c = false) (left other : List Char) :
    Near (c :: left) (c :: other) := by
  refine ⟨rfl, fun e he hpower => ?_⟩
  cases he
  rcases hpower with rfl | rfl <;> cases hc

theorem Akin.near_cons (c : Char) (h : Akin left other) : Near (c :: left) (c :: other) := by
  refine ⟨rfl, fun e _ _ d hd hpower => h.head_of_not ?_ hd⟩
  rcases hpower with hdigit | rfl | rfl
  · exact startsName_of_isDigit hdigit
  · rfl
  · rfl

theorem Akin.digit_head (h : Akin left other) :
    (other.head?.map Char.isDigit).getD false = (left.head?.map Char.isDigit).getD false := by
  cases h with
  | nil => rfl
  | stop => rfl
  | names hc hd =>
    have hnot : ∀ c, startsName c = true → c.isDigit = false := by
      intro c hc
      rw [Bool.eq_false_iff]
      intro hdigit
      rw [startsName_of_isDigit hdigit] at hc
      cases hc
    simp [hnot _ hc, hnot _ hd]
  | cons => rfl

theorem Akin.head_beq (h : Akin left other) {c : Char} (hc : startsName c = false) :
    (other.head? != some c) = (left.head? != some c) := by
  cases h with
  | nil => rfl
  | stop => rfl
  | names hd he =>
    have hne : ∀ d, startsName d = true → d ≠ c := by
      rintro d hd rfl
      rw [hd] at hc
      cases hc
    simp [bne, hne _ hd, hne _ he]
  | cons => rfl

/-! ### Tokens -/

theorem operator?_append {text : List Char} (h : operator? (text ++ rest) = some (text, rest))
    (hakin : Akin rest other) : operator? (text ++ other) = some (text, other) := by
  have hoperators : ∀ word ∈ operators, ∀ c ∈ word.tail, decides c = true ∧ startsName c = false := by
    have hall : (operators.all fun word => word.tail.all fun c => decides c && !startsName c) = true := by
      decide
    intro word hword c hc
    simpa using List.all_eq_true.1 (List.all_eq_true.1 hall word hword) c hc
  have hne := operator?_ne_nil h
  obtain ⟨c, more, rfl⟩ := List.exists_cons_of_ne_nil hne
  have hfind : operators.find? (·.isPrefixOf (c :: more ++ other))
      = operators.find? (·.isPrefixOf (c :: more ++ rest)) := by
    refine List.find?_congr fun word hword => ?_
    cases word with
    | nil => rfl
    | cons k word =>
      have hrest : word.isPrefixOf (more ++ other) = word.isPrefixOf (more ++ rest) :=
        (hakin.append more).isPrefixOf (hoperators _ hword)
      rw [List.cons_append, List.cons_append, List.isPrefixOf, List.isPrefixOf, hrest]
  obtain ⟨text, htext, heq⟩ := Option.map_eq_some_iff.1 h
  obtain ⟨rfl, -⟩ := Prod.mk.inj heq
  rw [operator?, hfind, htext, Option.map_some, List.drop_left]

theorem fieldOperator?_append {mode : Mode} {c : Char} {more : List Char} (hakin : Akin rest other) :
    fieldOperator? mode (c :: more ++ other)
      = (fieldOperator? mode (c :: more ++ rest)).map fun part => (part.1, more ++ other) := by
  have hhead := (hakin.append more).head_beq (show startsName '=' = false from rfl)
  rw [List.cons_append, List.cons_append]
  unfold fieldOperator?
  cases mode.frames.head? with
  | none => rfl
  | some frame =>
    by_cases hcolon : c = ':'
    · subst hcolon
      simp only
      split <;> rfl
    · by_cases hmark : c = '!'
      · subst hmark
        simp only [hhead]
        split <;> rfl
      · simp [hcolon, hmark]

theorem fieldOperator?_cons {mode : Mode} {c : Char}
    (h : fieldOperator? mode (c :: rest) = some (run, left)) : run = [c] ∧ left = rest := by
  unfold fieldOperator? at h
  split at h
  next heq =>
    cases heq
    split at h
    · cases h
      exact ⟨rfl, rfl⟩
    · cases h
  next heq =>
    cases heq
    split at h
    · cases h
      exact ⟨rfl, rfl⟩
    · cases h
  · cases h

variable {mode next : Mode} {kind : TokenKind} {text : List Char}

theorem lexemeAt_append_of_prefix {part : List Char × List Char}
    (hopens : stringPrefix? (text ++ rest) = some part)
    (h : lexemeAt mode (text ++ rest) = .ok (kind, text, rest, next)) (hakin : Akin rest other) :
    lexemeAt mode (text ++ other) = .ok (kind, text, other, next) := by
  obtain ⟨letters, quoted⟩ := part
  obtain ⟨quote, more, rfl, hquote⟩ := exists_quote_of_stringPrefix? hopens
  have hplain : quote ≠ '\\' ∧ decides quote = true ∧ startsName quote = false := by
    rcases hquote with rfl | rfl <;> decide
  have hword : ∀ c ∈ [quote, quote], decides c = true ∧ startsName c = false := by
    simp [hplain.2]
  unfold lexemeAt at h
  rw [hopens] at h
  cases hopening : openingQuotes (quote :: more) with
  | mk quotes others =>
  obtain ⟨triple, body⟩ := others
  obtain ⟨⟨tail, rfl⟩, hshort, hagain⟩ := openingQuotes_eq hopening
  simp only [hopening] at h
  split at h
  next hformatted =>
    simp only [Except.ok.injEq, Prod.mk.injEq] at h
    obtain ⟨rfl, rfl, rfl, rfl⟩ := h
    have hquotes : triple = false → [quote, quote].isPrefixOf other = false := by
      intro htriple
      rw [hakin.isPrefixOf hword]
      exact hshort htriple
    have hfirst := stringPrefix?_append hopens (tail ++ other)
    unfold lexemeAt
    rw [List.append_assoc, List.cons_append, hfirst]
    simp only [← List.cons_append, hagain other hquotes, hformatted, if_true]
  next hformatted =>
    split at h
    next string after hstring =>
      simp only [Except.ok.injEq, Prod.mk.injEq] at h
      obtain ⟨rfl, rfl, rfl, rfl⟩ := h
      have hquotes : triple = false → [quote, quote].isPrefixOf (string ++ other) = false := by
        intro htriple
        rw [(hakin.append string).isPrefixOf hword, append_of_stringRest hstring]
        exact hshort htriple
      have hfirst := stringPrefix?_append hopens (tail ++ (string ++ other))
      have hlast := stringRest_append hplain.1 hstring other
      unfold lexemeAt
      rw [List.append_assoc, List.append_assoc, List.cons_append, hfirst]
      simp only [← List.cons_append, hagain _ hquotes, hformatted, Bool.false_eq_true, if_false]
      rw [List.headD_cons, hlast]
    · cases h

theorem lexemeAt_of_isIdentifier {c : Char} {more : List Char} (hname : startsName c = true)
    (hpart : ∀ d ∈ c :: more, isNamePart d = true) (hidentifier : Text.isIdentifier (c :: more) = true)
    (hrest : ∀ d, rest.head? = some d → isNamePart d = false)
    (hopens : stringPrefix? (c :: more ++ rest) = none) :
    lexemeAt mode (c :: more ++ rest) = .ok (.name, c :: more, rest, mode) := by
  have hspan : (c :: (more ++ rest)).span
      (fun d => d.isAlphanum || d == '_' || decide (0x80 ≤ d.toNat)) = (c :: more, rest) :=
    span_append hpart hrest
  unfold lexemeAt
  rw [hopens]
  simp only [List.cons_append]
  have hfirst : (c.isAlpha || c == '_' || decide (0x80 ≤ c.toNat)) = true := hname
  rw [if_pos hfirst, hspan]
  simp only [hidentifier, if_true]

theorem lexemeAt_name {c : Char} {more : List Char} (hname : startsName c = true)
    (hopens : stringPrefix? (c :: more) = none)
    (h : lexemeAt mode (c :: more) = .ok (kind, text, rest, next)) :
    kind = .name ∧ next = mode ∧ Text.isIdentifier text = true ∧ (∀ d ∈ text, isNamePart d = true)
      ∧ ∀ d, rest.head? = some d → isNamePart d = false := by
  unfold lexemeAt at h
  rw [hopens] at h
  have hfirst : (c.isAlpha || c == '_' || decide (0x80 ≤ c.toNat)) = true := hname
  simp only at h
  rw [if_pos hfirst, List.span_eq_takeWhile_dropWhile] at h
  simp only at h
  split at h
  next hidentifier =>
    simp only [Except.ok.injEq, Prod.mk.injEq] at h
    obtain ⟨rfl, rfl, rfl, rfl⟩ := h
    refine ⟨rfl, rfl, hidentifier, fun d hd => ?_, fun d hd => ?_⟩
    · have hmem : d ∈ (c :: more).takeWhile isNamePart := hd
      exact List.mem_takeWhile_imp hmem
    · have hrest : ((c :: more).dropWhile isNamePart).head? = some d := hd
      exact eq_false_of_dropWhile hrest
  · cases h

theorem startsName_eq_false {c : Char} (h : isNamePart c = false) : startsName c = false := by
  rw [Bool.eq_false_iff] at h ⊢
  exact fun hstarts => h (isNamePart_of_startsName hstarts)

theorem isAlpha_eq_false {c : Char} (h : startsName c = false) : c.isAlpha = false := by
  rw [startsName, Bool.or_eq_false_iff, Bool.or_eq_false_iff] at h
  exact h.1.1

theorem lexemeAt_append_of_plain {c : Char} {more : List Char} (hname : startsName c = false)
    (hopens : stringPrefix? (c :: more ++ rest) = none)
    (h : lexemeAt mode (c :: more ++ rest) = .ok (kind, c :: more, rest, next)) (hakin : Akin rest other)
    (hnumber : kind = .number → Near rest other) :
    lexemeAt mode (c :: more ++ other) = .ok (kind, c :: more, other, next) := by
  have hnone : stringPrefix? (c :: (more ++ other)) = none := by
    rw [List.cons_append, stringPrefix?_of_head (isAlpha_eq_false hname)] at hopens
    rw [stringPrefix?_of_head (isAlpha_eq_false hname)]
    split at hopens
    · cases hopens
    next hquote => rw [if_neg hquote]
  have hfirst : ¬(c.isAlpha || c == '_' || decide (0x80 ≤ c.toNat)) = true := by
    rw [Bool.not_eq_true]
    exact hname
  have hdot := (hakin.append more).digit_head
  unfold lexemeAt at h
  rw [hopens] at h
  simp only [List.cons_append] at h
  rw [if_neg hfirst] at h
  unfold lexemeAt
  rw [List.cons_append, hnone]
  simp only
  rw [if_neg hfirst, hdot]
  split at h
  next hdigit =>
    rw [if_pos hdigit]
    split at h
    next found left hfound =>
      simp only [Except.ok.injEq, Prod.mk.injEq] at h
      obtain ⟨rfl, rfl, rfl, rfl⟩ := h
      have hagain := number_append hfound (hnumber rfl)
      rw [List.cons_append] at hagain
      rw [hagain]
    · cases h
  next hdigit =>
    rw [if_neg hdigit]
    split at h
    next found left hfound =>
      split at h
      next after hafter =>
        simp only [Except.ok.injEq, Prod.mk.injEq] at h
        obtain ⟨rfl, rfl, rfl, rfl⟩ := h
        have hagain : (fieldOperator? mode (c :: (more ++ other))).or (operator? (c :: (more ++ other)))
            = some (c :: more, other) := by
          have hfield := @fieldOperator?_append left other mode c more hakin
          rw [List.cons_append, List.cons_append] at hfield
          rw [hfield]
          rcases Option.or_eq_some_iff.1 hfound with hfield | ⟨hfield, hoperator⟩
          · obtain ⟨hmore, -⟩ := fieldOperator?_cons hfield
            obtain rfl : more = [] := (List.cons.inj hmore).2
            rw [hfield]
            rfl
          · rw [hfield, Option.map_none, Option.none_or, ← List.cons_append]
            rw [← List.cons_append] at hoperator
            exact operator?_append hoperator hakin
        rw [hagain]
        simp only [hafter]
      · cases h
    · cases h

/-- The same token is read before a text that is akin to the first; a number asks for more. -/
theorem lexemeAt_append (h : lexemeAt mode (text ++ rest) = .ok (kind, text, rest, next))
    (hakin : Akin rest other) (hnumber : kind = .number → Near rest other) :
    lexemeAt mode (text ++ other) = .ok (kind, text, other, next) := by
  cases hopens : stringPrefix? (text ++ rest) with
  | some part => exact lexemeAt_append_of_prefix hopens h hakin
  | none =>
  obtain ⟨c, more, rfl⟩ := List.exists_cons_of_ne_nil (lexemeAt_ne_nil h)
  by_cases hname : startsName c = true
  · obtain ⟨rfl, rfl, hidentifier, hpart, hrest⟩ := lexemeAt_name hname hopens h
    have hhead := hakin.head_eq fun d hd => startsName_eq_false (hrest d hd)
    have hnone : stringPrefix? (c :: more ++ other) = none :=
      stringPrefix?_eq_none_append hhead
        (fun d hd => isAlpha_eq_false (startsName_eq_false (hrest d hd))) hopens
    exact lexemeAt_of_isIdentifier hname hpart hidentifier (hhead ▸ hrest) hnone
  · rw [Bool.not_eq_true] at hname
    exact lexemeAt_append_of_plain hname hopens h hakin hnumber

end Bundler.Source
