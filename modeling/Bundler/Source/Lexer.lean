import Bundler.Source.Token
import Bundler.Text.Identifier

/-!
# Cutting a module into lexemes

`lexemes` goes through a text once. Every character ends up in exactly one lexeme, as its text or in
front of it.
-/

namespace Bundler.Source

/-- The line break a text starts with, and what follows it. -/
def lineBreak? : List Char → Option (List Char × List Char)
  | '\r' :: '\n' :: rest => some (['\r', '\n'], rest)
  | '\r' :: rest => some (['\r'], rest)
  | '\n' :: rest => some (['\n'], rest)
  | _ => none

def isLineBreak (c : Char) : Bool := c == '\n' || c == '\r'

/-- The blanks allowed between tokens and in an indentation. -/
def isSpace (c : Char) : Bool := c == ' ' || c == '\t' || c == '\x0c'

/-! ### Numbers -/

/-- Splits off digits with single underscores between them, given that a digit or a radix prefix
came just before. An underscore without a digit after it is malformed. -/
def digitRun (isDigit : Char → Bool) : List Char → Option (List Char × List Char)
  | [] => some ([], [])
  | '_' :: c :: rest =>
    if isDigit c then (digitRun isDigit rest).map fun (run, left) => ('_' :: c :: run, left) else none
  | c :: rest =>
    if isDigit c then (digitRun isDigit rest).map fun (run, left) => (c :: run, left)
    else if c = '_' then none
    else some ([], c :: rest)

def isHexDigit (c : Char) : Bool :=
  c.isDigit || ('a' ≤ c && c ≤ 'f') || ('A' ≤ c && c ≤ 'F')

/-- The digits that go with a radix letter. -/
def radixDigits? (letter : Char) : Option (Char → Bool) :=
  if letter = 'x' ∨ letter = 'X' then some isHexDigit
  else if letter = 'o' ∨ letter = 'O' then some fun c => '0' ≤ c && c ≤ '7'
  else if letter = 'b' ∨ letter = 'B' then some fun c => c == '0' || c == '1'
  else none

/-- An exponent, if one follows. A sign without a digit after it is malformed, a letter alone is no
exponent. -/
def exponent (chars : List Char) : Option (List Char × List Char) :=
  match chars with
  | e :: sign :: digit :: rest =>
    if e = 'e' ∨ e = 'E' then
      if sign = '+' ∨ sign = '-' then
        if digit.isDigit then
          (digitRun Char.isDigit rest).map fun (run, left) => (e :: sign :: digit :: run, left)
        else none
      else if sign.isDigit then
        (digitRun Char.isDigit (digit :: rest)).map fun (run, left) => (e :: sign :: run, left)
      else some ([], chars)
    else some ([], chars)
  | [e, c] =>
    if e = 'e' ∨ e = 'E' then
      if c = '+' ∨ c = '-' then none
      else if c.isDigit then some ([e, c], [])
      else some ([], chars)
    else some ([], chars)
  | _ => some ([], chars)

/-- The mark of an imaginary number, if it follows. -/
def imaginaryMark : List Char → List Char × List Char
  | c :: rest => if c = 'j' ∨ c = 'J' then ([c], rest) else ([], c :: rest)
  | [] => ([], [])

/-- The part of a number after its point: digits, exponent and imaginary mark, all optional. -/
def fraction (chars : List Char) : Option (List Char × List Char) := do
  let (digits, rest) ← match chars with
    | c :: _ => if c.isDigit then digitRun Char.isDigit chars else some ([], chars)
    | [] => some ([], [])
  let (power, rest) ← exponent rest
  let (mark, rest) := imaginaryMark rest
  return (digits ++ power ++ mark, rest)

/-- A number in decimal notation. A whole number other than zero does not start with `0`. -/
def decimalNumber (chars : List Char) : Option (List Char × List Char) := do
  let (whole, rest) ← digitRun Char.isDigit chars
  match rest with
  | '.' :: rest =>
    let (tail, rest) ← fraction rest
    return (whole ++ '.' :: tail, rest)
  | _ =>
    let (power, rest) ← exponent rest
    let (mark, rest) := imaginaryMark rest
    if whole.head? = some '0' ∧ whole.any (fun c => c.isDigit && c != '0') ∧ power = [] ∧ mark = [] then
      none
    else return (whole ++ power ++ mark, rest)

/-- The number a text starts with, given that it starts with a digit or with a point and a digit. -/
def number (chars : List Char) : Option (List Char × List Char) :=
  match chars with
  | '.' :: rest => (fraction rest).map fun (tail, left) => ('.' :: tail, left)
  | '0' :: letter :: rest =>
    match radixDigits? letter with
    | some isDigit =>
      match rest with
      | c :: _ =>
        if isDigit c || c == '_' then
          match digitRun isDigit rest with
          | some (run, left) =>
            if (left.head?.map Char.isDigit).getD false then none else some ('0' :: letter :: run, left)
          | none => none
        else none
      | [] => none
    | none => decimalNumber chars
  | _ => decimalNumber chars

/-! ### Strings -/

/-- The rest of a string, up to and with its closing quotes. A backslash protects the character after
it; a string in single quotes ends on its line. -/
def stringRest (quote : Char) (triple : Bool) : List Char → Option (List Char × List Char)
  | [] => none
  | '\\' :: '\r' :: '\n' :: rest =>
    (stringRest quote triple rest).map fun (body, left) => ('\\' :: '\r' :: '\n' :: body, left)
  | '\\' :: c :: rest =>
    (stringRest quote triple rest).map fun (body, left) => ('\\' :: c :: body, left)
  | c :: rest =>
    if c = quote then
      if triple then
        if [quote, quote].isPrefixOf rest then some ([c, quote, quote], rest.drop 2)
        else (stringRest quote triple rest).map fun (body, left) => (c :: body, left)
      else some ([c], rest)
    else if isLineBreak c && !triple then none
    else (stringRest quote triple rest).map fun (body, left) => (c :: body, left)

/-- The letters that may stand before the quotes of a string. -/
def stringPrefixes : List (List Char) :=
  ["u", "b", "r", "br", "rb", "f", "fr", "rf", "t", "tr", "rt"].map String.toList

/-- The letters in front of a quote, in any case, when a string starts here. -/
def stringPrefix? (chars : List Char) : Option (List Char × List Char) :=
  let (letters, rest) := chars.span Char.isAlpha
  match rest with
  | quote :: _ =>
    if (quote == '"' || quote == '\'') &&
        (letters == [] || stringPrefixes.contains (letters.map Char.toLower)) then
      some (letters, rest)
    else none
  | [] => none

def openingQuotes : List Char → List Char × Bool × List Char
  | quote :: rest =>
    if [quote, quote].isPrefixOf rest then ([quote, quote, quote], true, rest.drop 2)
    else ([quote], false, rest)
  | [] => ([], false, [])

/-- A formatted string that is being read: how it is quoted, how many brackets are open in it, and how
many format specifications. -/
structure Frame where
  quote : Char
  triple : Bool
  raw : Bool
  brackets : Nat
  specs : Nat
  deriving DecidableEq, Repr

namespace Frame

/-- A field is being read, not text. -/
def inField (frame : Frame) : Bool := frame.specs < frame.brackets

/-- Text of a format specification is being read. -/
def inSpec (frame : Frame) : Bool := !frame.inField && 0 < frame.specs

/-- A colon here ends the expression of a field. -/
def colonStartsSpec (frame : Frame) : Bool := frame.brackets == frame.specs + 1

def openBracket (frame : Frame) : Frame := { frame with brackets := frame.brackets + 1 }

def closeBracket (frame : Frame) : Frame :=
  { frame with
    specs := if frame.inSpec then frame.specs - 1 else frame.specs
    brackets := frame.brackets - 1 }

def openSpec (frame : Frame) : Frame := { frame with specs := frame.specs + 1 }

def closing (frame : Frame) : List Char :=
  if frame.triple then [frame.quote, frame.quote, frame.quote] else [frame.quote]

end Frame

/-- Splits off the text of a formatted string up to a field, a bracket that closes a specification, or
the closing quotes. `named` says that the braces of a character name are open. -/
def formatRun (frame : Frame) : Bool → List Char → Option (List Char × List Char)
  | _, [] => none
  | named, '\\' :: '\r' :: '\n' :: rest =>
    (formatRun frame named rest).map fun (run, left) => ('\\' :: '\r' :: '\n' :: run, left)
  | named, '\\' :: 'N' :: '{' :: rest =>
    if !frame.raw && !frame.inSpec then
      (formatRun frame true rest).map fun (run, left) => ('\\' :: 'N' :: '{' :: run, left)
    else (formatRun frame named ('{' :: rest)).map fun (run, left) => ('\\' :: 'N' :: run, left)
  | named, '\\' :: c :: rest =>
    if c = '{' ∨ c = '}' then
      (formatRun frame named (c :: rest)).map fun (run, left) => ('\\' :: run, left)
    else (formatRun frame named rest).map fun (run, left) => ('\\' :: c :: run, left)
  | named, '{' :: rest =>
    if frame.inSpec then some ([], '{' :: rest)
    else
      match rest with
      | '{' :: rest => (formatRun frame named rest).map fun (run, left) => ('{' :: '{' :: run, left)
      | _ => some ([], '{' :: rest)
  | named, '}' :: rest =>
    if named then (formatRun frame false rest).map fun (run, left) => ('}' :: run, left)
    else if frame.inSpec then some ([], '}' :: rest)
    else
      match rest with
      | '}' :: rest => (formatRun frame named rest).map fun (run, left) => ('}' :: '}' :: run, left)
      | _ => some ([], '}' :: rest)
  | named, c :: rest =>
    if frame.closing.isPrefixOf (c :: rest) then some ([], c :: rest)
    else if isLineBreak c && !frame.triple then
      if frame.inSpec then some ([], c :: rest) else none
    else (formatRun frame named rest).map fun (run, left) => (c :: run, left)
termination_by _ chars => chars.length

/-! ### Operators -/

/-- Operators and delimiters, the longest first. -/
def operators : List (List Char) :=
  ["**=", "//=", ">>=", "<<=", "...", "**", "//", ">>", "<<", "<=", ">=", "==", "!=", "->", "+=",
    "-=", "*=", "/=", "%=", "&=", "|=", "^=", "@=", ":=", "+", "-", "*", "/", "%", "&", "|", "^", "~",
    "<", ">", "(", ")", "[", "]", "\x7b", "\x7d", ",", ":", ".", ";", "@", "="].map String.toList

/-- The longest operator a text starts with. -/
def operator? (chars : List Char) : Option (List Char × List Char) :=
  (operators.find? (·.isPrefixOf chars)).map fun text => (text, chars.drop text.length)

def closer? : List Char → Option Char
  | ['('] => some ')'
  | ['['] => some ']'
  | ['{'] => some '}'
  | _ => none

/-! ### The lexer -/

/-- What the lexer has to remember: the brackets to be closed, the formatted strings being read, whether
a line starts here, whether the line counts as blank, and whether the text ends with a line break. -/
structure Mode where
  closers : List Char
  frames : List Frame
  lineStart : Bool
  blank : Bool
  closed : Bool
  deriving DecidableEq, Repr

namespace Mode

/-- Text of a formatted string comes next. -/
def textFrame? (mode : Mode) : Option Frame :=
  mode.frames.head?.filter fun frame => !frame.inField

def onFrame (mode : Mode) (change : Frame → Frame) : Mode :=
  { mode with frames := mode.frames.modifyHead change }

/-- Records an operator: brackets are matched, and a colon may start a format specification. -/
def afterOperator (mode : Mode) (text : List Char) : Option Mode :=
  match closer? text with
  | some closer =>
    some { mode.onFrame Frame.openBracket with closers := closer :: mode.closers }
  | none =>
    match text with
    | [c] =>
      if c = ')' ∨ c = ']' ∨ c = '}' then
        match mode.closers with
        | expected :: closers =>
          if c = expected then some { mode.onFrame Frame.closeBracket with closers := closers } else none
        | [] => none
      else if c = ':' ∧ (mode.frames.head?.map Frame.colonStartsSpec).getD false then
        some (mode.onFrame Frame.openSpec)
      else some mode
    | _ => some mode

end Mode

/-- A field's colon is an operator of its own, and so is the mark of a conversion. -/
def fieldOperator? (mode : Mode) (chars : List Char) : Option (List Char × List Char) :=
  match mode.frames.head?, chars with
  | some frame, ':' :: rest => if frame.colonStartsSpec then some ([':'], rest) else none
  | some frame, '!' :: rest =>
    if frame.colonStartsSpec && rest.head? != some '=' then some (['!'], rest) else none
  | _, _ => none

/-- The token that starts at a character that is no blank: its kind, its text, what follows, and how
the lexer goes on. -/
def lexemeAt (mode : Mode) (chars : List Char) :
    Except LexicalFault (TokenKind × List Char × List Char × Mode) :=
  match stringPrefix? chars with
  | some (letters, quoted) =>
    let (quotes, triple, rest) := openingQuotes quoted
    let quote := quotes.headD '"'
    let lower := letters.map Char.toLower
    if lower.contains 'f' || lower.contains 't' then
      .ok (.formatStart, letters ++ quotes, rest,
        { mode with frames := ⟨quote, triple, lower.contains 'r', 0, 0⟩ :: mode.frames })
    else
      match stringRest quote triple rest with
      | some (body, left) => .ok (.string, letters ++ quotes ++ body, left, mode)
      | none => .error .unterminatedString
  | none =>
    match chars with
    | [] => .error .exhausted
    | c :: rest =>
      if c.isAlpha || c == '_' || 0x80 ≤ c.toNat then
        let (name, left) := chars.span fun c => c.isAlphanum || c == '_' || 0x80 ≤ c.toNat
        if Text.isIdentifier name then .ok (.name, name, left, mode) else .error .malformedName
      else if c.isDigit || (c == '.' && (rest.head?.map Char.isDigit).getD false) then
        match number chars with
        | some (text, left) => .ok (.number, text, left, mode)
        | none => .error .malformedNumber
      else
        match (fieldOperator? mode chars).or (operator? chars) with
        | some (text, left) =>
          match mode.afterOperator text with
          | some mode => .ok (.operator, text, left, mode)
          | none => .error .unmatchedBracket
        | none => .error (.strayCharacter c)

/-- Goes through the text. `before` holds what has been read since the last lexeme, `indentation` the
indentation of a line whose first token comes next. -/
def scan : Nat → Mode → List Char → Option (List Char) → List Char →
    Except LexicalFault (List Lexeme)
  | 0, _, _, _, _ => .error .exhausted
  | fuel + 1, mode, before, indentation, chars =>
    match mode.textFrame? with
    | some frame =>
      match formatRun frame false chars with
      | none => .error .unterminatedString
      | some (c :: run, rest) => do
        return ⟨.formatText, before, indentation, c :: run⟩ :: (← scan fuel mode [] none rest)
      | some ([], rest) =>
        if frame.closing.isPrefixOf rest then do
          let mode := { mode with frames := mode.frames.tail }
          let rest := rest.drop frame.closing.length
          return ⟨.formatEnd, before, indentation, frame.closing⟩ :: (← scan fuel mode [] none rest)
        else
          match rest with
          | '{' :: rest => do
            let mode := { mode.onFrame Frame.openBracket with closers := '}' :: mode.closers }
            return ⟨.operator, before, indentation, ['{']⟩ :: (← scan fuel mode [] none rest)
          | '}' :: rest =>
            if frame.inSpec ∧ mode.closers.head? = some '}' then do
              let mode := { mode.onFrame Frame.closeBracket with closers := mode.closers.tail }
              return ⟨.operator, before, indentation, ['}']⟩ :: (← scan fuel mode [] none rest)
            else .error .unmatchedBracket
          | _ => .error .unterminatedString
    | none =>
      if mode.lineStart then
        let (blanks, rest) := chars.span isSpace
        let blank := match rest with
          | [] => true
          | c :: _ => c == '#' || c == '\\' || isLineBreak c
        let mode := { mode with lineStart := false, blank := blank }
        if blank || mode.closers != [] then scan fuel mode (before ++ blanks) indentation rest
        else scan fuel mode before (some blanks) rest
      else
        match chars with
        | [] =>
          if mode.closed || mode.blank then .ok [⟨.finish, before, indentation, []⟩]
          else .ok [⟨.newline, before, indentation, []⟩, ⟨.finish, [], none, []⟩]
        | c :: rest =>
          if isSpace c then scan fuel mode (before ++ [c]) indentation rest
          else if c = '#' then
            let (comment, rest) := chars.span fun c => !isLineBreak c
            scan fuel mode (before ++ comment) indentation rest
          else if c = '\\' then
            match lineBreak? rest with
            | some (_, []) => .error .danglingBackslash
            | some (lineEnd, rest) => scan fuel mode (before ++ '\\' :: lineEnd) indentation rest
            | none => .error .danglingBackslash
          else
            match lineBreak? chars with
            | some (lineEnd, rest) =>
              if mode.blank || mode.closers != [] then
                scan fuel { mode with lineStart := true } (before ++ lineEnd) indentation rest
              else do
                let mode := { mode with lineStart := true }
                return ⟨.newline, before, indentation, lineEnd⟩ :: (← scan fuel mode [] none rest)
            | none => do
              let (kind, text, rest, mode) ← lexemeAt mode chars
              return ⟨kind, before, indentation, text⟩ :: (← scan fuel mode [] none rest)

def lexemes (chars : List Char) : Except LexicalFault (List Lexeme) :=
  scan (3 * chars.length + 3)
    { closers := [], frames := [], lineStart := true, blank := true,
      closed := (chars.getLast?.map isLineBreak).getD true }
    [] none chars

end Bundler.Source
