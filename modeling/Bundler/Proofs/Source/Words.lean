import Bundler.Proofs.Source.Anew
import Bundler.Proofs.Text.Quoted

/-!
# Words of a line

Where a name, an operator or a string ends depends on the word itself and on the character behind it. So the
words of a line are checked one by one (`reads`), and they are its lexemes whatever its names and strings are
(`scans_words`).
-/

namespace Bundler.Source

variable {closers after : List Char} {words : List Lexeme} {rest others : List Lexeme} {last : Char}

/-! ### Words -/

def inside (closers : List Char) : Mode := ⟨closers, [], false, false, true⟩

/-- Operators that end behind their character. -/
def separators : List (List Char) := [['('], [')'], ['['], [']'], ['\x7b'], ['\x7d'], [',']]

def endsBefore (kind : TokenKind) (text : List Char) (next : Option Char) : Bool :=
  match kind with
  | .name => next.any fun c => !isNamePart c && c != '"' && c != '\''
  | .string => next.any fun c => c != '"' && c != '\''
  | .operator => separators.contains text
      || next.any fun c => !decides c && !c.isDigit && operator? (text ++ [c]) == some (text, [c])
  | _ => false

/-- The brackets to be closed behind the word. -/
def closersAfter (closers : List Char) (kind : TokenKind) (text : List Char) : Option (List Char) :=
  match kind with
  | .operator => ((inside closers).afterOperator text).map Mode.closers
  | _ => some closers

/-- Blanks stand before the word, or between brackets a line break and blanks. -/
def isSpaced (closers before : List Char) : Bool :=
  before.all isSpace || !closers.isEmpty && before.head? == some '\n' && before.tail.all isSpace

/-- The words are read one by one up to the given character, and all brackets are closed. -/
def reads (last : Char) : List Char → List Lexeme → Bool
  | closers, [] => closers.isEmpty
  | closers, word :: words =>
    isSpaced closers word.before && word.indentation.isNone
      && endsBefore word.kind word.text (words.flatMap Lexeme.written ++ [last]).head?
      && (closersAfter closers word.kind word.text).any fun after => reads last after words

/-- A name is a name, and a string is a string where no quote comes next. -/
def Lexeme.IsWord (word : Lexeme) : Prop :=
  (word.kind = .name → Text.isIdentifier word.text = true)
    ∧ (word.kind = .string → ∀ (mode : Mode) (rest : List Char),
      (∀ c, rest.head? = some c → c ≠ '"' ∧ c ≠ '\'') →
      lexemeAt mode (word.text ++ rest) = .ok (.string, word.text, rest, mode))

namespace Lexeme

/-- A name, with nothing before it. -/
def name (text : List Char) : Lexeme := ⟨.name, [], none, text⟩

def word (text : String) : Lexeme := .name text.toList

def sign (text : String) : Lexeme := ⟨.operator, [], none, text.toList⟩

def string (text : List Char) : Lexeme := ⟨.string, [], none, text⟩

def behind (before : String) (lexeme : Lexeme) : Lexeme := { lexeme with before := before.toList }

end Lexeme

/-! ### Single words -/

theorem lexemeAt_quoted (text : List Char) (mode : Mode) {rest : List Char}
    (hrest : ∀ c, rest.head? = some c → c ≠ '"' ∧ c ≠ '\'') :
    lexemeAt mode (Text.quoted text ++ rest) = .ok (.string, Text.quoted text, rest, mode) := by
  have hquote := Text.quoteFor_eq text
  have hbody : Text.quoted text = Text.quoteFor text :: (Text.quoted text).tail := rfl
  have hopens : stringPrefix? (Text.quoted text ++ rest) = some ([], Text.quoted text ++ rest) := by
    rw [hbody]
    exact stringPrefix?_quote hquote _
  have hshort : [Text.quoteFor text, Text.quoteFor text].isPrefixOf ((Text.quoted text).tail ++ rest)
      = false := by
    cases text with
    | nil =>
      cases rest with
      | nil => rfl
      | cons c rest =>
        have hne := (hrest c rfl).2
        simp [Text.quoted, Text.quoteFor, List.isPrefixOf, Ne.symm hne]
    | cons c text =>
      rw [Text.quoted, List.cons_append, List.tail_cons, List.flatMap_cons, List.append_assoc,
        List.append_assoc]
      exact Text.isPrefixOf_escapeChar hquote c _ _
  have hopening : openingQuotes (Text.quoted text ++ rest)
      = ([Text.quoteFor text], false, (Text.quoted text).tail ++ rest) := by
    rw [hbody, List.cons_append, List.tail_cons, openingQuotes, hshort]
    rfl
  unfold lexemeAt
  rw [hopens]
  simp only [hopening, List.headD_cons, List.map_nil, stringRest_quoted]
  rw [hbody]
  rfl

namespace Lexeme

@[simp] theorem isWord_name {text : List Char} : (name text).IsWord ↔ Text.isIdentifier text = true :=
  ⟨fun h => h.1 rfl, fun h => ⟨fun _ => h, nofun⟩⟩

@[simp] theorem isWord_word {text : String} : (word text).IsWord ↔ Text.isIdentifier text.toList = true :=
  isWord_name

@[simp] theorem isWord_sign (text : String) : (sign text).IsWord := ⟨nofun, nofun⟩

@[simp] theorem isWord_quoted (text : List Char) : (string (Text.quoted text)).IsWord :=
  ⟨nofun, fun _ mode _ hrest => lexemeAt_quoted text mode hrest⟩

@[simp] theorem isWord_behind {before : String} {lexeme : Lexeme} : (behind before lexeme).IsWord ↔ lexeme.IsWord :=
  Iff.rfl

theorem isWord_literal {text : List Char} (h : IsLiteral text) : (string text).IsWord :=
  ⟨nofun, fun _ mode rest _ => h mode rest⟩

end Lexeme

/-- The first character of an operator begins nothing else, but for a point before a digit. -/
theorem head_of_operators : ∀ text ∈ operators, ∃ c more, text = c :: more ∧ startsName c = false
    ∧ c.isDigit = false ∧ c ≠ '"' ∧ c ≠ '\'' ∧ IsFirm c
    ∧ (c = '.' → ∀ d, more.head? = some d → d.isDigit = false) := by
  have hall : (operators.all fun text => text.head?.any fun c => !startsName c && !c.isDigit && c != '"'
      && c != '\'' && decide (IsFirm c) && text.tail.all fun d => !d.isDigit) = true := by decide
  intro text htext
  have h := List.all_eq_true.1 hall text htext
  cases text with
  | nil => cases h
  | cons c more =>
    simp only [List.head?_cons, Option.any_some, Bool.and_eq_true, Bool.not_eq_true', bne_iff_ne,
      decide_eq_true_eq, List.tail_cons, List.all_eq_true] at h
    obtain ⟨⟨⟨⟨⟨hname, hdigit⟩, hdouble⟩, hsingle⟩, hfirm⟩, hmore⟩ := h
    exact ⟨c, more, rfl, hname, hdigit, hdouble, hsingle, hfirm,
      fun _ d hd => hmore d (List.mem_of_mem_head? hd)⟩

theorem mem_of_operator? {chars text left : List Char} (h : operator? chars = some (text, left)) :
    text ∈ operators := by
  obtain ⟨found, hfound, heq⟩ := Option.map_eq_some_iff.1 h
  cases heq
  exact List.mem_of_find?_eq_some hfound

theorem lexemeAt_sign {text rest : List Char} {mode next : Mode} (hframes : mode.frames = [])
    (hoperator : operator? (text ++ rest) = some (text, rest))
    (hpoint : text = ['.'] → ∀ c, rest.head? = some c → c.isDigit = false)
    (hafter : mode.afterOperator text = some next) :
    lexemeAt mode (text ++ rest) = .ok (.operator, text, rest, next) := by
  obtain ⟨c, more, rfl, hname, hdigit, hdouble, hsingle, -, hdots⟩ :=
    head_of_operators text (mem_of_operator? hoperator)
  have hopens : stringPrefix? (c :: (more ++ rest)) = none := by
    rw [stringPrefix?_of_head (isAlpha_eq_false hname), if_neg (by simp [hdouble, hsingle])]
  have hfield : fieldOperator? mode (c :: (more ++ rest)) = none := by
    unfold fieldOperator?
    rw [hframes]
    rfl
  have hnumber : (c.isDigit || c == '.' && ((more ++ rest).head?.map Char.isDigit).getD false) = false := by
    rw [hdigit, Bool.false_or, Bool.and_eq_false_iff]
    by_cases hc : c = '.'
    · subst hc
      refine .inr ?_
      cases more with
      | nil =>
        cases hrest : rest.head? with
        | none => simp [hrest]
        | some d => simp [hrest, hpoint rfl d hrest]
      | cons d more => simp [hdots rfl d rfl]
    · exact .inl (beq_eq_false_iff_ne.2 hc)
  unfold lexemeAt
  rw [List.cons_append, hopens]
  rw [List.cons_append] at hoperator
  simp only
  rw [if_neg (by simpa [startsName] using hname), if_neg (Bool.not_eq_true _ ▸ hnumber), hfield,
    hoperator]
  simp only [Option.none_or, hafter]

theorem operator?_separator {text : List Char} (h : text ∈ separators) (rest : List Char) :
    operator? (text ++ rest) = some (text, rest) := by
  simp only [separators, List.mem_cons, List.not_mem_nil, or_false] at h
  rcases h with rfl | rfl | rfl | rfl | rfl | rfl | rfl <;> rfl

theorem afterOperator_inside {text : List Char}
    (h : ((inside closers).afterOperator text).map Mode.closers = some after) :
    (inside closers).afterOperator text = some (inside after) := by
  obtain ⟨mode, hmode, rfl⟩ := Option.map_eq_some_iff.1 h
  rw [hmode]
  unfold Mode.afterOperator at hmode
  repeat' split at hmode
  all_goals cases hmode <;> rfl

theorem leads_inside {before : List Char} {c : Char} (h : isSpaced closers before = true) (hc : IsFirm c) :
    Leads (inside closers) before (some c) (inside closers) := by
  have hspaces : ∀ blanks : List Char, (∀ d ∈ blanks, isSpace d = true) →
      Leads (inside closers) blanks (some c) (inside closers) := by
    intro blanks hblanks
    induction blanks with
    | nil => exact .nil _ _
    | cons d blanks ih =>
      rw [List.forall_mem_cons] at hblanks
      exact .cons rfl (.space _ rfl hblanks.1) (ih hblanks.2)
  rw [isSpaced, Bool.or_eq_true, Bool.and_eq_true, Bool.and_eq_true, List.all_eq_true, List.all_eq_true,
    beq_iff_eq, Bool.not_eq_true', List.isEmpty_eq_false_iff] at h
  obtain hblanks | ⟨⟨hclosers, hhead⟩, hblanks⟩ := h
  · exact hspaces before hblanks
  obtain ⟨blanks, rfl⟩ := List.head?_eq_some_iff.1 hhead
  have hblank : isBlankLine (some c) = false := hc.2
  -- behind the line break a line starts, whose blanks are skipped as well
  have hlast : Skip { inside closers with lineStart := true } blanks (some c) (inside closers) := by
    have hskip : Skip { inside closers with lineStart := true } blanks (some c) _ :=
      .lineStart rfl hblanks (fun d hd => by cases hd; exact hc.1) (.inr hclosers)
    rwa [hblank] at hskip
  have hend : Leads { inside closers with lineStart := true } blanks (some c) (inside closers) := by
    have hmore := Leads.cons rfl hlast (.nil _ _)
    rwa [List.append_nil] at hmore
  have hbreak : Skip (inside closers) ['\n'] (blanks.head?.or (some c)) { inside closers with lineStart := true } :=
    .lineEnd rfl (.inr (.inl rfl)) (.inr hclosers)
  exact .cons rfl hbreak hend

theorem emits_word {word : Lexeme} {chars : List Char} (hword : word.IsWord)
    (hend : endsBefore word.kind word.text chars.head? = true)
    (hafter : closersAfter closers word.kind word.text = some after) :
    (∃ c more, word.text = c :: more ∧ IsFirm c)
      ∧ Emits (inside closers) word.kind word.text chars (inside after) := by
  obtain ⟨kind, before, indentation, text⟩ := word
  have hemits : (∃ c more, text = c :: more ∧ IsFirm c) →
      lexemeAt (inside closers) (text ++ chars) = .ok (kind, text, chars, inside after) →
      (∃ c more, text = c :: more ∧ IsFirm c) ∧ Emits (inside closers) kind text chars (inside after) := by
    intro hfirm hlexeme
    refine ⟨hfirm, .lexeme (starts_iff.2 ⟨rfl, rfl, ?_⟩) hlexeme⟩
    obtain ⟨c, more, rfl, hc⟩ := hfirm
    exact ⟨c, rfl, hc⟩
  unfold endsBefore at hend
  unfold closersAfter at hafter
  unfold Lexeme.IsWord at hword
  simp only at hend hafter hword
  cases kind with
  | name =>
    cases hafter
    obtain ⟨c, hhead, hc⟩ := (Option.any_eq_true _ _).1 hend
    simp only [Bool.and_eq_true, Bool.not_eq_true', bne_iff_ne] at hc
    obtain ⟨⟨d, more, rfl, hstart⟩, -⟩ := isNamePart_of_isIdentifier (hword.1 rfl)
    refine hemits ⟨d, more, rfl, isFirm_of_isNamePart (isNamePart_of_startsName hstart)⟩
      (lexemeAt_identifier (hword.1 rfl) fun e he => ?_)
    obtain rfl := Option.some.inj (hhead.symm.trans he)
    exact ⟨hc.1.1, hc.1.2, hc.2⟩
  | string =>
    cases hafter
    obtain ⟨c, hhead, hc⟩ := (Option.any_eq_true _ _).1 hend
    simp only [Bool.and_eq_true, bne_iff_ne] at hc
    have hlexeme := hword.2 rfl (inside closers) chars fun e he => by
      obtain rfl := Option.some.inj (hhead.symm.trans he)
      exact hc
    obtain ⟨d, hd, hfirm⟩ := isFirm_of_string hlexeme
    obtain ⟨more, rfl⟩ := List.head?_eq_some_iff.1 hd
    exact hemits ⟨d, more, rfl, hfirm⟩ hlexeme
  | operator =>
    have hsign : operator? (text ++ chars) = some (text, chars)
        ∧ (text = ['.'] → ∀ d, chars.head? = some d → d.isDigit = false) := by
      rw [Bool.or_eq_true, List.contains_iff_mem] at hend
      obtain hmem | hend := hend
      · refine ⟨operator?_separator hmem chars, ?_⟩
        rintro rfl
        exact absurd hmem (by decide)
      · obtain ⟨c, hhead, hc⟩ := (Option.any_eq_true _ _).1 hend
        obtain ⟨chars, rfl⟩ := List.head?_eq_some_iff.1 hhead
        simp only [Bool.and_eq_true, Bool.not_eq_true', beq_iff_eq] at hc
        refine ⟨operator?_append hc.2 (.stop hc.1.1 [] chars), fun _ d hd => ?_⟩
        cases hd
        exact hc.1.2
    obtain ⟨c, more, heq, -, -, -, -, hfirm, -⟩ := head_of_operators text (mem_of_operator? hsign.1)
    exact hemits ⟨c, more, heq, hfirm⟩ (lexemeAt_sign rfl hsign.1 hsign.2 (afterOperator_inside hafter))
  | _ => cases hend

theorem reads_cons {word : Lexeme} (h : reads last closers (word :: words) = true) :
    word.indentation = none ∧ word.kind ≠ .finish ∧ isSpaced closers word.before = true
      ∧ ∃ after, reads last after words = true ∧ ∀ chars : List Char, word.IsWord →
        (words.flatMap Lexeme.written ++ [last]).head? = chars.head? →
        (∃ c more, word.text = c :: more ∧ IsFirm c)
          ∧ Emits (inside closers) word.kind word.text chars (inside after) := by
  rw [reads] at h
  simp only [Bool.and_eq_true, Option.isNone_iff_eq_none] at h
  obtain ⟨⟨⟨hspaced, hindentation⟩, hend⟩, hmore⟩ := h
  obtain ⟨after, hafter, hmore⟩ := (Option.any_eq_true _ _).1 hmore
  refine ⟨hindentation, fun hkind => ?_, hspaced, after, hmore, fun chars hword hhead => ?_⟩
  · rw [hkind] at hend
    cases hend
  · rw [hhead] at hend
    exact emits_word hword hend hafter

theorem scans_words (hreads : reads last closers words = true) (hwords : ∀ word ∈ words, word.IsWord)
    (hrest : Scans (inside []) rest) (hlast : (rest.flatMap Lexeme.written).head? = some last) :
    Scans (inside closers) (words ++ rest) := by
  induction words generalizing closers with
  | nil =>
    obtain rfl : closers = [] := List.isEmpty_iff.1 hreads
    exact hrest
  | cons word words ih =>
    rw [List.forall_mem_cons] at hwords
    obtain ⟨hindentation, -, hspaced, after, hmore, hemits⟩ := reads_cons hreads
    obtain ⟨⟨c, more, htext, hfirm⟩, hemits⟩ := hemits ((words ++ rest).flatMap Lexeme.written) hwords.1
      (by rw [List.flatMap_append, List.head?_append, List.head?_append, hlast, List.head?_cons])
    have hleads : Leads (inside closers) word.before (word.indentation.getD [] ++ word.text
        ++ (words ++ rest).flatMap Lexeme.written).head? (inside closers) := by
      rw [hindentation, htext]
      exact leads_inside hspaced hfirm
    have hready : Ready (inside closers) word.indentation
        (word.text ++ (words ++ rest).flatMap Lexeme.written).head? (inside closers) := by
      rw [hindentation]
      exact .none _
    exact .token hleads hready hemits (ih hmore hwords.2)

theorem word_of_reads (hreads : reads last closers words = true) :
    ∀ word ∈ words, word.indentation = none ∧ word.kind ≠ .finish := by
  induction words generalizing closers with
  | nil => exact nofun
  | cons word words ih =>
    obtain ⟨hindentation, hkind, -, after, hmore, -⟩ := reads_cons hreads
    exact List.forall_mem_cons.2 ⟨⟨hindentation, hkind⟩, ih hmore⟩

end Bundler.Source
