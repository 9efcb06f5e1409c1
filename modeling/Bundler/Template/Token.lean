import Bundler.Source.Literal
import Bundler.Text.Blank
import Bundler.Text.Identifier
import Bundler.Text.Pieces
import Bundler.Text.Quoted

/-!
# Tokens of a template

A template is text with marks in it: `{{ … }}` around an expression, `{% … %}` around a
statement and `{# … #}` around a comment. A statement or comment alone on a line leaves nothing of
the line: blanks before it and the line end after a statement or comment are dropped. A minus sign
inside a mark drops all white space on that side, a plus sign keeps it.
-/

namespace Bundler.Template

inductive Token
  | data (text : List Char)
  | openPrint
  | closePrint
  | openStatement
  | closeStatement
  | name (text : String)
  | literal (value : String)
  | integer (value : Nat)
  | symbol (text : String)
  deriving DecidableEq, Repr

def Token.shown : Token → String
  | .data _ => "template data / text"
  | .openPrint => "begin of print statement"
  | .closePrint => "end of print statement"
  | .openStatement => "begin of statement block"
  | .closeStatement => "end of statement block"
  | .name word => word
  | .literal _ => "string"
  | .integer _ => "integer"
  | .symbol mark => mark

inductive Fault
  | unexpectedCharacter (c : Char) (position : Nat)
  | unbalanced (found : Char) (expected : Option Char)
  | openComment
  | openRaw
  | badName
  | unexpectedEnd (expected : String)
  | expectedToken (expected found : String)
  | expectedExpression (found : String)
  | unexpected (found : String)
  | noTagName
  | unknownTag (name : Option String) (wanted : List String) (all : List String) (innermost : Option String)
  | badTarget (kind : String)
  | noFilter (name : String)
  | noTest (name : String)
  | unsupported (what : String)
  | undefined (message : String)
  | type (message : String)
  | value (message : String)
  | raised (kind message : String)
  deriving DecidableEq, Repr

def quotedName (name : String) : String := Text.quotedString name

def Fault.message : Fault → String
  | .unexpectedCharacter c position => s!"unexpected char {quotedName c.toString} at {position}"
  | .unbalanced found none => s!"unexpected '{found}'"
  | .unbalanced found (some expected) => s!"unexpected '{found}', expected '{expected}'"
  | .openComment => "Missing end of comment tag"
  | .openRaw => "Missing end of raw directive"
  | .badName => "Invalid character in identifier"
  | .unexpectedEnd expected => s!"unexpected end of template, expected {quotedName expected}."
  | .expectedToken expected found =>
    s!"expected token {quotedName expected}, got {quotedName found}"
  | .expectedExpression found => s!"Expected an expression, got {quotedName found}"
  | .unexpected found => s!"unexpected {quotedName found}"
  | .noTagName => "tag name expected"
  | .unknownTag name wanted all innermost =>
    let first := match name with
      | none => "Unexpected end of template."
      | some name => s!"Encountered unknown tag {quotedName name}."
    let looking := Text.joinWith " or " (wanted.map quotedName)
    let second :=
      if wanted = [] then []
      else if (name.map all.contains).getD false then
        [s!"You probably made a nesting mistake. Jinja is expecting this tag, but currently looking for {looking}."]
      else [s!"Jinja was looking for the following tags: {looking}."]
    let third := innermost.toList.map fun tag =>
      s!"The innermost block that needs to be closed is {quotedName tag}."
    Text.joinWith " " (first :: second ++ third)
  | .badTarget kind => s!"can't assign to {quotedName kind}"
  | .noFilter name => s!"No filter named {quotedName name}."
  | .noTest name => s!"No test named {quotedName name}."
  | .unsupported what => s!"{what} is not supported"
  | .undefined message => message
  | .type message => message
  | .value message => message
  | .raised _ message => message

/-- What a mark opens. -/
inductive Opening
  | print
  | statement
  | comment
  | raw
  deriving DecidableEq, Repr

/-- A sign right after a mark, and what follows. -/
def sign : List Char → Option Char × List Char
  | '-' :: rest => (some '-', rest)
  | '+' :: rest => (some '+', rest)
  | rest => (none, rest)

def skipBlank (chars : List Char) : List Char := chars.dropWhile Text.isBlank

def afterWord? (word : List Char) (chars : List Char) : Option (List Char) :=
  if word.isPrefixOf chars then some (chars.drop word.length) else none

def statementEnd? : List Char → Option (List Char)
  | '+' :: '%' :: '\x7d' :: rest => some rest
  | '-' :: '%' :: '\x7d' :: rest => some (skipBlank rest)
  | '%' :: '\x7d' :: '\n' :: rest => some rest
  | '%' :: '\x7d' :: rest => some rest
  | _ => none

def printEnd? : List Char → Option (List Char)
  | '-' :: '\x7d' :: '\x7d' :: rest => some (skipBlank rest)
  | '\x7d' :: '\x7d' :: rest => some rest
  | _ => none

def commentEnd? : List Char → Option (List Char)
  | '+' :: '#' :: '\x7d' :: rest => some rest
  | '-' :: '#' :: '\x7d' :: rest => some (skipBlank rest)
  | '#' :: '\x7d' :: '\n' :: rest => some rest
  | '#' :: '\x7d' :: rest => some rest
  | _ => none

/-- What follows the start of a raw part, after its mark and sign. -/
def rawStart? (chars : List Char) : Option (List Char) := do
  let rest ← afterWord? "raw".toList (skipBlank chars)
  match skipBlank rest with
  | '-' :: '%' :: '\x7d' :: rest => some (skipBlank rest)
  | '%' :: '\x7d' :: rest => some rest
  | _ => none

/-- The sign at the end of a raw part and what follows it. -/
def rawEnd? (chars : List Char) : Option (Option Char × List Char) := do
  let rest ← afterWord? "\x7b%".toList chars
  let (mark, rest) := sign rest
  let rest ← afterWord? "endraw".toList (skipBlank rest)
  return (mark, ← statementEnd? (skipBlank rest))

/-- The mark that comes first here, with its sign and what follows. -/
def opening? : List Char → Option (Opening × Option Char × List Char)
  | '\x7b' :: '\x7b' :: rest => some (.print, sign rest)
  | '\x7b' :: '#' :: rest => some (.comment, sign rest)
  | '\x7b' :: '%' :: rest =>
    let (mark, after) := sign rest
    match rawStart? after with
    | some rest => some (.raw, mark, rest)
    | none => some (.statement, mark, after)
  | _ => none

/-- The text before the next mark, and the mark. -/
def nextOpening : List Char → List Char × Option (Opening × Option Char × List Char)
  | [] => ([], none)
  | c :: rest =>
    match opening? (c :: rest) with
    | some found => ([], some found)
    | none =>
      let (text, found) := nextOpening rest
      (c :: text, found)

/-- The text without the white space at its end. -/
def stripRight (text : List Char) : List Char :=
  (text.reverse.dropWhile Text.isBlank).reverse

/-- The text before a mark as it is kept. -/
def trimmed (lineStart : Bool) (opening : Opening) (mark : Option Char) (text : List Char) :
    List Char :=
  match mark with
  | some '-' => stripRight text
  | some _ => text
  | none =>
    if opening = .print then text
    else
      let lastLine := (text.reverse.takeWhile (· != '\n')).reverse
      if lastLine != [] && lastLine.all Text.isBlank && (lineStart || lastLine.length < text.length) then
        text.take (text.length - lastLine.length)
      else text

def isNameChar (c : Char) : Bool := Text.isIdentifierPart c

/-- The symbols of expressions, longer ones first. -/
def symbols : List (List Char) :=
  ["//", "**", "==", "!=", ">=", "<=", "+", "-", "/", "*", "%", "~", "[", "]", "(", ")", "\x7b",
   "\x7d", ">", "<", "=", ".", ":", "|", ",", ";"].map String.toList

def closingOf? : Char → Option Char
  | '\x7b' => some '\x7d'
  | '(' => some ')'
  | '[' => some ']'
  | _ => none

/-- The body of a string in the given quotes, and what follows; none if it is not closed. -/
def stringBody (quote : Char) : List Char → Option (List Char × List Char)
  | '\\' :: c :: rest => (stringBody quote rest).map fun (body, left) => ('\\' :: c :: body, left)
  | c :: rest =>
    if c = quote then some ([], rest)
    else (stringBody quote rest).map fun (body, left) => (c :: body, left)
  | [] => none

/-- The value of a string's body. -/
def unescaped (body : List Char) : List Char :=
  match Source.evaluate .standard ("\"\"\"".toList ++ body.flatMap (fun c => if c = '"' then ['\\', '"'] else [c])
    ++ "\"\"\"".toList) with
  | .ok (.text chars) => chars
  | _ => body

/-- Reads the tokens of an expression up to the end of its mark. `closers` are the brackets still to
be closed. -/
def inside (total : Nat) (statement : Bool) :
    Nat → List Char → List Char → Except Fault (List Token × Option (List Char))
  | 0, _, _ => .ok ([], none)
  | fuel + 1, chars, closers =>
    let ended := if closers != [] then none else if statement then statementEnd? chars else printEnd? chars
    match ended with
    | some rest => .ok ([if statement then .closeStatement else .closePrint], some rest)
    | none =>
      match chars with
      | [] => .ok ([], none)
      | c :: rest =>
        if Text.isBlank c then inside total statement fuel rest closers
        else if c.isDigit then do
          let digits := chars.takeWhile Char.isDigit
          let value := digits.foldl (fun value c => value * 10 + (c.toNat - '0'.toNat)) 0
          let (tokens, left) ← inside total statement fuel (chars.dropWhile Char.isDigit) closers
          return (.integer value :: tokens, left)
        else if isNameChar c then do
          let word := chars.takeWhile isNameChar
          if !Text.isIdentifier word then .error .badName
          else
            let (tokens, left) ← inside total statement fuel (chars.dropWhile isNameChar) closers
            return (.name (String.ofList word) :: tokens, left)
        else
          match (if c = '"' ∨ c = '\'' then stringBody c rest else none) with
          | some (body, rest) => do
            let (tokens, left) ← inside total statement fuel rest closers
            return (.literal (String.ofList (unescaped body)) :: tokens, left)
          | none =>
            match symbols.find? (·.isPrefixOf chars) with
            | none => .error (.unexpectedCharacter c (total - chars.length))
            | some symbol =>
              let closers? : Except Fault (List Char) :=
                match closingOf? c with
                | some closer => .ok (closer :: closers)
                | none =>
                  if c = ')' ∨ c = ']' ∨ c = '\x7d' then
                    match closers with
                    | [] => .error (.unbalanced c none)
                    | closer :: others =>
                      if closer = c then .ok others else .error (.unbalanced c (some closer))
                  else .ok closers
              do
                let closers ← closers?
                let (tokens, left) ← inside total statement fuel (chars.drop symbol.length) closers
                return (.symbol (String.ofList symbol) :: tokens, left)

def afterComment? : List Char → Option (List Char)
  | [] => none
  | c :: rest =>
    match commentEnd? (c :: rest) with
    | some left => some left
    | none => afterComment? rest

/-- The text of a raw part and what follows it. -/
def rawText? : List Char → Option (List Char × Option Char × List Char)
  | [] => none
  | c :: rest =>
    match rawEnd? (c :: rest) with
    | some (mark, left) => some ([], mark, left)
    | none => (rawText? rest).map fun (text, mark, left) => (c :: text, mark, left)

/-- A text as a token, unless it is empty. -/
def dataToken (text : List Char) : List Token := if text = [] then [] else [.data text]

/-- What was read just before `rest` ended a line. -/
def endedLine (before rest : List Char) : Bool :=
  (before.take (before.length - rest.length)).getLast? == some '\n'

/-- Reads tokens from the start of a text part. -/
def lexAt (total : Nat) : Nat → Bool → List Char → Except Fault (List Token)
  | 0, _, _ => .ok []
  | fuel + 1, lineStart, chars =>
    match nextOpening chars with
    | (text, none) => .ok (dataToken text)
    | (text, some (opening, mark, rest)) =>
      let kept := dataToken (trimmed lineStart opening mark text)
      match opening with
      | .comment =>
        match afterComment? rest with
        | none => .error .openComment
        | some left => do return kept ++ (← lexAt total fuel (endedLine chars left) left)
      | .raw =>
        match rawText? rest with
        | none => .error .openRaw
        | some (text, mark, left) => do
          let inner := dataToken (trimmed (endedLine chars rest) .raw mark text)
          return kept ++ inner ++ (← lexAt total fuel (endedLine chars left) left)
      | .print | .statement => do
        let statement := opening == .statement
        let (tokens, left) ← inside total statement (rest.length + 1) rest []
        let start : Token := if statement then .openStatement else .openPrint
        match left with
        | none => return kept ++ start :: tokens
        | some left => return kept ++ start :: tokens ++ (← lexAt total fuel (endedLine chars left) left)

def tokens (text : List Char) : Except Fault (List Token) :=
  lexAt text.length (text.length + 1) true text

end Bundler.Template
