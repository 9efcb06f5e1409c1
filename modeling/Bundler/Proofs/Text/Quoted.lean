import Bundler.Source.Literal
import Mathlib.Data.List.TakeDrop
import Mathlib.Tactic.IntervalCases

/-!
# Quoted texts are read back

A quoted text is a literal whose value is the text (`evaluate_quoted`), and reading a literal stops right
behind it, whatever follows (`stringRest_quoted`). All its characters are printable, so it lies on one
line. Each of these facts goes through the text character by character, and `Escape` says what one
character becomes.
-/

namespace Bundler

namespace Text

variable {quote c d : Char} {written : List Char}

/-! ### What one character becomes -/

/-- The ways a character is written inside a literal. -/
inductive Escape (quote c : Char) : List Char → Prop
  | guarded (h : c = quote ∨ c = '\\') : Escape quote c ['\\', c]
  | short (letter : Char) (h : (letter, c) ∈ [('t', '\t'), ('n', '\n'), ('r', '\r')]) :
      Escape quote c ['\\', letter]
  | plain (hprintable : isPrintable c = true) (hquote : c ≠ quote) (hback : c ≠ '\\') :
      Escape quote c [c]
  | code (letter : Char) (width : Nat) (h : (letter, width) ∈ [('x', 2), ('u', 4), ('U', 8)])
      (hlt : c.toNat < 16 ^ width) : Escape quote c ('\\' :: letter :: hexDigits width c.toNat)

theorem escape_escapeChar (quote c : Char) : Escape quote c (escapeChar quote c) := by
  rw [escapeChar]
  split
  · next h => exact .guarded h
  next hplain =>
  rw [not_or] at hplain
  split
  · next h => exact .short 't' (by simp [h])
  split
  · next h => exact .short 'n' (by simp [h])
  split
  · next h => exact .short 'r' (by simp [h])
  split
  · next h => exact .plain h hplain.1 hplain.2
  split
  · next h => exact .code 'x' 2 (by simp) h
  split
  · next h => exact .code 'u' 4 (by simp) h
  · refine .code 'U' 8 (by simp) ?_
    have hvalid : c.toNat.isValidChar := c.valid
    rw [Nat.isValidChar] at hvalid
    omega

theorem isPrefixOf_escapeChar (hquote : quote = '\'' ∨ quote = '"') (c : Char) (more rest : List Char) :
    (quote :: more).isPrefixOf (escapeChar quote c ++ rest) = false := by
  have hback : '\\' ≠ quote := by rcases hquote with rfl | rfl <;> decide
  have hescape := escape_escapeChar quote c
  generalize escapeChar quote c = written at hescape
  cases hescape with
  | guarded h => simp [List.isPrefixOf, hback.symm]
  | short letter h => simp [List.isPrefixOf, hback.symm]
  | plain hprintable hne => simp [List.isPrefixOf, Ne.symm hne]
  | code letter width h hlt => simp [List.isPrefixOf, hback.symm]

theorem mem_hexDigits {width value : Nat} (h : c ∈ hexDigits width value) :
    c ∈ "0123456789abcdef".toList := by
  induction width generalizing value with
  | zero => cases h
  | succ width ih =>
    rw [hexDigits, List.mem_append, List.mem_singleton] at h
    rcases h with h | rfl
    · exact ih h
    have hlt : value % 16 < 16 := Nat.mod_lt _ (by decide)
    rw [hexDigit]
    generalize value % 16 = digit at hlt
    interval_cases digit <;> decide

theorem Escape.isPrintable (h : Escape quote c written) (hquote : Text.isPrintable quote = true)
    (hd : d ∈ written) : Text.isPrintable d = true := by
  have hletters := List.all_eq_true.1 (rfl : ['\\', 't', 'n', 'r', 'x', 'u', 'U'].all Text.isPrintable = true)
  have hdigits := List.all_eq_true.1 (rfl : "0123456789abcdef".toList.all Text.isPrintable = true)
  cases h with
  | guarded h =>
    simp only [List.mem_cons, List.not_mem_nil, or_false] at hd
    rcases hd with rfl | rfl
    · exact hletters _ (by simp)
    rcases h with rfl | rfl
    · exact hquote
    · exact hletters _ (by simp)
  | short letter h =>
    simp only [List.mem_cons, Prod.mk.injEq, List.not_mem_nil, or_false] at h hd
    rcases hd with rfl | rfl
    · exact hletters _ (by simp)
    · rcases h with ⟨rfl, -⟩ | ⟨rfl, -⟩ | ⟨rfl, -⟩ <;> exact hletters _ (by simp)
  | plain hprintable =>
    rw [List.mem_singleton] at hd
    exact hd ▸ hprintable
  | code letter width h hlt =>
    simp only [List.mem_cons, Prod.mk.injEq, List.not_mem_nil, or_false] at h hd
    rcases hd with rfl | rfl | hd
    · exact hletters _ (by simp)
    · rcases h with ⟨rfl, -⟩ | ⟨rfl, -⟩ | ⟨rfl, -⟩ <;> exact hletters _ (by simp)
    · exact hdigits d (mem_hexDigits hd)

theorem quoteFor_eq (text : List Char) : quoteFor text = '\'' ∨ quoteFor text = '"' := by
  rw [quoteFor]
  split
  · exact .inr rfl
  · exact .inl rfl

/-- Every character of a quoted text is printable. -/
theorem isPrintable_of_mem_quoted {text : List Char} (hd : d ∈ quoted text) :
    isPrintable d = true := by
  have hquote : isPrintable (quoteFor text) = true := by
    rcases quoteFor_eq text with h | h <;> rw [h] <;> decide
  simp only [quoted, List.cons_append, List.mem_cons, List.mem_append, List.not_mem_nil, or_false,
    List.mem_flatMap] at hd
  rcases hd with rfl | ⟨c, -, hd⟩ | rfl
  · exact hquote
  · exact (escape_escapeChar _ c).isPrintable hquote hd
  · exact hquote

end Text

namespace Source

open Text

variable {characters : Text.Characters} {quote c : Char} {written : List Char}

/-! ### Reading past a literal -/

theorem stringRest_cons {rest : List Char} (hquote : c ≠ quote) (hback : c ≠ '\\')
    (hline : isLineBreak c = false) :
    stringRest quote false (c :: rest)
      = (stringRest quote false rest).map fun (body, left) => (c :: body, left) := by
  rw [stringRest.eq_4]
  · simp [hquote, hline]
  · exact fun _ h => absurd h hback
  · exact fun _ _ h => absurd h hback

theorem stringRest_guarded {rest : List Char} (hline : c ≠ '\r') :
    stringRest quote false ('\\' :: c :: rest)
      = (stringRest quote false rest).map fun (body, left) => ('\\' :: c :: body, left) :=
  stringRest.eq_3 _ _ _ _ fun _ h => absurd h hline

theorem stringRest_digits {part : List Char} (rest : List Char)
    (hquote : quote = '\'' ∨ quote = '"') (hpart : ∀ d ∈ part, d ∈ "0123456789abcdef".toList) :
    stringRest quote false (part ++ rest)
      = (stringRest quote false rest).map fun (body, left) => (part ++ body, left) := by
  have hplain : ∀ d ∈ "0123456789abcdef".toList, d ≠ '\'' ∧ d ≠ '"' ∧ d ≠ '\\'
      ∧ isLineBreak d = false := by
    simp [isLineBreak]
  induction part with
  | nil => simp
  | cons d part ih =>
    rw [List.forall_mem_cons] at hpart
    obtain ⟨hsingle, hdouble, hback, hline⟩ := hplain d hpart.1
    have hne : d ≠ quote := by
      rcases hquote with rfl | rfl
      · exact hsingle
      · exact hdouble
    rw [List.cons_append, stringRest_cons hne hback hline, ih hpart.2]
    cases stringRest quote false rest <;> rfl

theorem stringRest_escape (h : Escape quote c written) (hquote : quote = '\'' ∨ quote = '"')
    (rest : List Char) :
    stringRest quote false (written ++ rest)
      = (stringRest quote false rest).map fun (body, left) => (written ++ body, left) := by
  cases h with
  | guarded h =>
    refine stringRest_guarded ?_
    rcases h with rfl | rfl
    · rcases hquote with rfl | rfl <;> decide
    · decide
  | short letter h =>
    refine stringRest_guarded ?_
    rintro rfl
    revert h
    simp
  | plain hprintable hne hback =>
    refine stringRest_cons hne hback ?_
    cases hline : isLineBreak c with
    | false => rfl
    | true =>
      simp only [isLineBreak, Bool.or_eq_true, beq_iff_eq] at hline
      rcases hline with rfl | rfl <;> exact absurd hprintable (by decide)
  | code letter width h hlt =>
    have hletter : letter ≠ '\r' := by
      rintro rfl
      revert h
      simp
    rw [List.cons_append, List.cons_append, stringRest_guarded hletter,
      stringRest_digits rest hquote fun d hd => mem_hexDigits hd]
    cases stringRest quote false rest <;> rfl

theorem stringRest_quoted (text rest : List Char) :
    stringRest (quoteFor text) false ((quoted text).tail ++ rest) = some ((quoted text).tail, rest) := by
  have hquote := quoteFor_eq text
  rw [quoted, List.cons_append, List.tail_cons]
  generalize quoteFor text = quote at hquote
  induction text with
  | nil =>
    have hback : quote ≠ '\\' := by rcases hquote with rfl | rfl <;> decide
    rw [List.flatMap_nil, List.nil_append, List.singleton_append, stringRest.eq_4]
    · simp
    · exact fun _ h => absurd h hback
    · exact fun _ _ h => absurd h hback
  | cons c text ih =>
    rw [List.flatMap_cons, List.append_assoc, List.append_assoc,
      stringRest_escape (escape_escapeChar quote c) hquote, ← List.append_assoc, ih]
    simp

/-! ### Reading a value -/

theorem hexDigit_read (value : Nat) :
    isHexDigit (hexDigit value) = true ∧ hexValue (hexDigit value) = value % 16 := by
  have hlt : value % 16 < 16 := Nat.mod_lt _ (by decide)
  rw [hexDigit]
  generalize value % 16 = digit at hlt
  interval_cases digit <;> decide

theorem hexRun_append (width more value read : Nat) (rest : List Char) :
    hexRun (width + more) read (hexDigits width value ++ rest)
      = (width + (hexRun more (read * 16 ^ width + value % 16 ^ width) rest).1,
          (hexRun more (read * 16 ^ width + value % 16 ^ width) rest).2) := by
  induction width generalizing value more rest with
  | zero => simp [hexDigits, Nat.mod_one]
  | succ width ih =>
    obtain ⟨hdigit, hvalue⟩ := hexDigit_read value
    have hnumber : (read * 16 ^ width + value / 16 % 16 ^ width) * 16 + value % 16
        = read * 16 ^ (width + 1) + value % 16 ^ (width + 1) := by
      rw [Nat.pow_succ, Nat.mul_comm (16 ^ width) 16, Nat.mod_mul, Nat.add_mul,
        Nat.mul_left_comm read 16, Nat.mul_comm 16 (read * 16 ^ width)]
      omega
    rw [hexDigits, List.append_assoc, List.singleton_append, Nat.add_assoc, Nat.add_comm 1 more, ih,
      hexRun, if_pos hdigit, hvalue, hnumber]
    refine Prod.ext ?_ rfl
    simp only
    omega

theorem hexRun_hexDigits {width value : Nat} (hlt : value < 16 ^ width) (rest : List Char) :
    hexRun width 0 (hexDigits width value ++ rest) = (width, value, rest) := by
  have happend := hexRun_append width 0 value 0 rest
  have hstop : ∀ read, hexRun 0 read rest = (0, read, rest) := by
    intro read
    cases rest <;> rfl
  rw [hstop, Nat.add_zero, Nat.zero_mul, Nat.zero_add, Nat.mod_eq_of_lt hlt] at happend
  exact happend

theorem escaped_simple {letter value : Char} (hvalue : simpleEscape? letter = some value)
    (position : Nat) (rest : List Char) :
    escaped characters position (letter :: rest) = .ok ([value], 2, rest) := by
  have hline : letter ≠ '\n' := by
    rintro rfl
    cases hvalue
  unfold escaped
  split
  · next h => cases h
  · next h => exact absurd (List.cons.inj h).1 hline
  · next h =>
    obtain ⟨rfl, rfl⟩ := List.cons.inj h
    rw [hvalue]

theorem escaped_code {letter : Char} {width : Nat}
    (h : (letter, width) ∈ [('x', 2), ('u', 4), ('U', 8)]) (hlt : c.toNat < 16 ^ width)
    (position : Nat) (rest : List Char) :
    escaped characters position (letter :: (hexDigits width c.toNat ++ rest)) = .ok ([c], width + 2, rest) := by
  have hvalid : c.toNat.isValidChar := c.valid
  rw [Nat.isValidChar] at hvalid
  have hletter : letter ≠ '\n' ∧ simpleEscape? letter = none ∧ isOctalDigit letter = false
      ∧ ∃ fault, codeEscape? letter = some (width, fault) := by
    simp only [List.mem_cons, Prod.mk.injEq, List.not_mem_nil, or_false] at h
    rcases h with ⟨rfl, rfl⟩ | ⟨rfl, rfl⟩ | ⟨rfl, rfl⟩
    · exact ⟨by decide, rfl, by decide, _, rfl⟩
    · exact ⟨by decide, rfl, by decide, _, rfl⟩
    · exact ⟨by decide, rfl, by decide, _, rfl⟩
  obtain ⟨hline, hsimple, hoctal, fault, hcode⟩ := hletter
  unfold escaped
  split
  · next h => cases h
  · next h => exact absurd (List.cons.inj h).1 hline
  · next h =>
    obtain ⟨rfl, rfl⟩ := List.cons.inj h
    rw [hsimple]
    simp only [hoctal, Bool.false_eq_true, if_false, hcode, hexRun_hexDigits hlt]
    rw [if_neg (by omega), if_neg (by omega), if_neg (by omega), Char.ofNat_toNat]

theorem unescape_escape (h : Escape quote c written) (hquote : quote = '\'' ∨ quote = '"')
    (fuel position : Nat) (rest : List Char) :
    ∃ further, unescape characters (fuel + 1) position (written ++ rest)
      = (unescape characters fuel further rest).map fun more => c :: more := by
  cases h with
  | guarded h =>
    have hsimple : simpleEscape? c = some c := by
      rcases h with rfl | rfl
      · rcases hquote with rfl | rfl <;> rfl
      · rfl
    refine ⟨position + 2, ?_⟩
    rw [List.cons_append, List.singleton_append, unescape, escaped_simple hsimple]
    rfl
  | short letter h =>
    have hsimple : simpleEscape? letter = some c := by
      simp only [List.mem_cons, Prod.mk.injEq, List.not_mem_nil, or_false] at h
      rcases h with ⟨rfl, rfl⟩ | ⟨rfl, rfl⟩ | ⟨rfl, rfl⟩ <;> rfl
    refine ⟨position + 2, ?_⟩
    rw [List.cons_append, List.singleton_append, unescape, escaped_simple hsimple]
    rfl
  | plain hprintable hne hback =>
    refine ⟨position + places c, ?_⟩
    rw [List.singleton_append, unescape.eq_4 _ _ _ _ _ hback]
    rfl
  | code letter width h hlt =>
    refine ⟨position + (width + 2), ?_⟩
    rw [List.cons_append, List.cons_append, unescape, escaped_code h hlt]
    rfl

theorem unescape_flatMap {text : List Char} (hquote : quote = '\'' ∨ quote = '"') {fuel : Nat}
    (hfuel : text.length < fuel) (position : Nat) :
    unescape characters fuel position (text.flatMap (escapeChar quote)) = .ok text := by
  induction text generalizing fuel position with
  | nil =>
    obtain ⟨fuel, rfl⟩ := Nat.exists_eq_succ_of_ne_zero (Nat.ne_zero_of_lt hfuel)
    rfl
  | cons c text ih =>
    obtain ⟨fuel, rfl⟩ := Nat.exists_eq_succ_of_ne_zero (Nat.ne_zero_of_lt hfuel)
    obtain ⟨further, hstep⟩ := unescape_escape (escape_escapeChar quote c) hquote fuel position
      (text.flatMap (escapeChar quote))
    rw [List.flatMap_cons, hstep, ih (Nat.lt_of_succ_lt_succ hfuel)]
    rfl

theorem length_le_flatMap_escapeChar (quote : Char) (text : List Char) :
    text.length ≤ (text.flatMap (escapeChar quote)).length := by
  induction text with
  | nil => exact Nat.zero_le _
  | cons c text ih =>
    have hescape := escape_escapeChar quote c
    have hpos : 0 < (escapeChar quote c).length := by
      generalize escapeChar quote c = written at hescape
      cases hescape <;> exact Nat.succ_pos _
    rw [List.flatMap_cons, List.length_append, List.length_cons]
    omega

theorem flatMap_escapeChar_eq {text : List Char}
    (hback : '\\' ∉ text.flatMap (escapeChar quote)) : text.flatMap (escapeChar quote) = text := by
  induction text with
  | nil => rfl
  | cons c text ih =>
    rw [List.flatMap_cons, List.mem_append, not_or] at hback
    rw [List.flatMap_cons, ih hback.2]
    have hescape := escape_escapeChar quote c
    generalize escapeChar quote c = written at hescape hback
    cases hescape with
    | guarded h => exact absurd List.mem_cons_self hback.1
    | short letter h => exact absurd List.mem_cons_self hback.1
    | plain hprintable hne hback => rfl
    | code letter width h hlt => exact absurd List.mem_cons_self hback.1

theorem uniformBreaks_of_notMem {text : List Char} (h : '\r' ∉ text) : uniformBreaks text = text := by
  induction text with
  | nil => rfl
  | cons c text ih =>
    rw [List.mem_cons, not_or] at h
    rw [uniformBreaks.eq_3, ih h.2]
    · exact fun _ heq => absurd heq.symm h.1
    · exact fun heq => absurd heq.symm h.1

theorem stringPrefix?_quote (hquote : quote = '\'' ∨ quote = '"') (rest : List Char) :
    stringPrefix? (quote :: rest) = some ([], quote :: rest) := by
  have halpha : quote.isAlpha = false := by rcases hquote with rfl | rfl <;> rfl
  have hquotes : (quote == '"' || quote == '\'') = true := by rcases hquote with rfl | rfl <;> rfl
  simp [stringPrefix?, List.span_eq_takeWhile_dropWhile, halpha, hquotes]

/-- What stands behind the opening quote never makes it three quotes. -/
theorem openingQuotes_quoted (hquote : quote = '\'' ∨ quote = '"') (text : List Char) :
    openingQuotes (quote :: (text.flatMap (escapeChar quote) ++ [quote]))
      = ([quote], false, text.flatMap (escapeChar quote) ++ [quote]) := by
  have hprefix : [quote, quote].isPrefixOf (text.flatMap (escapeChar quote) ++ [quote]) = false := by
    cases text with
    | nil => simp [List.isPrefixOf]
    | cons c text =>
      rw [List.flatMap_cons, List.append_assoc]
      exact isPrefixOf_escapeChar hquote c _ _
  rw [openingQuotes, hprefix]
  simp

theorem stringParts?_quoted (text : List Char) :
    stringParts? (quoted text)
      = some ([], [quoteFor text], text.flatMap (escapeChar (quoteFor text))) := by
  have hquote := quoteFor_eq text
  simp [stringParts?, quoted, stringPrefix?_quote hquote, openingQuotes_quoted hquote]

theorem evaluate_quoted (characters : Text.Characters) (text : List Char) :
    evaluate characters (quoted text) = .ok (.text text) := by
  have hquote := quoteFor_eq text
  have hnull : (quoted text).contains '\x00' = false := by
    simpa using fun h => absurd (isPrintable_of_mem_quoted h) (by decide)
  have hbreaks : '\r' ∉ text.flatMap (escapeChar (quoteFor text)) := by
    intro h
    have hmem : '\r' ∈ quoted text := by simp [quoted, h]
    exact absurd (isPrintable_of_mem_quoted hmem) (by decide)
  rw [evaluate, hnull, stringParts?_quoted]
  simp only [Bool.false_eq_true, if_false, uniformBreaks_of_notMem hbreaks, List.contains_nil,
    Bool.false_or]
  cases hback : (text.flatMap (escapeChar (quoteFor text))).contains '\\' with
  | false =>
    have hnot : '\\' ∉ text.flatMap (escapeChar (quoteFor text)) := by simpa using hback
    simp [flatMap_escapeChar_eq hnot]
  | true =>
    have hlength := length_le_flatMap_escapeChar (quoteFor text) text
    rw [unescape_flatMap hquote (Nat.lt_succ_of_le hlength)]
    simp

end Source
end Bundler
