import Bundler.Data.Value
import Bundler.Source.Literal
import Bundler.Text.Place

/-!
# JSON documents

`parse` reads a document. Besides the standard's values it takes `NaN` and both infinities; an
integer may have at most 4300 digits. A fault says what was expected where. Arrays and objects can lie inside
one another to any depth; how deep an interpreter can call itself is left out.
-/

namespace Bundler.Data.Json

inductive Reason
  | byteOrderMark
  | value
  | name
  | colon
  | comma
  | end
  | control
  | closingQuote
  | escape
  | code
  deriving DecidableEq, Repr

def Reason.message : Reason → String
  | .byteOrderMark => "Unexpected UTF-8 BOM (decode using utf-8-sig)"
  | .value => "Expecting value"
  | .name => "Expecting property name enclosed in double quotes"
  | .colon => "Expecting ':' delimiter"
  | .comma => "Expecting ',' delimiter"
  | .end => "Extra data"
  | .control => "Invalid control character at"
  | .closingQuote => "Unterminated string starting at"
  | .escape => "Invalid \\escape"
  | .code => "Invalid \\uXXXX escape"

/-- The most digits an integer may have. -/
def digitLimit : Nat := 4300

/-- The wording for an integer beyond the limit. -/
def tooLong (digits : Nat) : String :=
  s!"Exceeds the limit ({digitLimit} digits) for integer string conversion: value has {digits} digits; use sys.set_int_max_str_digits() to increase the limit"

inductive Fault
  | malformed (reason : Reason) (place : Text.Place)
  | integerTooLong (digits : Nat)
  deriving DecidableEq, Repr

def Fault.message : Fault → String
  | .malformed reason place =>
    s!"{reason.message}: line {place.line} column {place.column} (char {place.offset})"
  | .integerTooLong digits => tooLong digits

/-- A reader's stop: a reason and what was left to read, or an integer beyond the limit. -/
inductive Stop
  | lacks (reason : Reason) (rest : List Char)
  | tooLong (digits : Nat)

def isBlank (c : Char) : Bool := c = ' ' || c = '\t' || c = '\n' || c = '\r'

def skipBlank (chars : List Char) : List Char := chars.dropWhile isBlank

def letterEscape? : Char → Option Char
  | '"' => some '"'
  | '\\' => some '\\'
  | '/' => some '/'
  | 'b' => some '\x08'
  | 'f' => some '\x0c'
  | 'n' => some '\n'
  | 'r' => some '\r'
  | 't' => some '\t'
  | _ => none

/-- The code of four hexadecimal digits that something follows. -/
def code? : List Char → Option (Nat × List Char)
  | a :: b :: c :: d :: e :: rest =>
    if [a, b, c, d].all Source.isHexDigit then
      some ([a, b, c, d].foldl (fun value digit => value * 16 + Source.hexValue digit) 0, e :: rest)
    else none
  | _ => none

/-- Two codes that together stand for one character. -/
def isPair (high low : Nat) : Bool :=
  0xd800 ≤ high && high < 0xdc00 && 0xdc00 ≤ low && low < 0xe000

/-- The character of a code; of a lone surrogate it is the one that stands in. -/
def characterOf (code : Nat) : Char :=
  if 0xd800 ≤ code && code < 0xe000 then Text.standIn code else Char.ofNat code

/-- Joins the codes of a string to characters. -/
def characters : List Nat → List Char
  | high :: low :: rest =>
    if isPair high low then
      Char.ofNat (0x10000 + (high - 0xd800) * 0x400 + (low - 0xdc00)) :: characters rest
    else characterOf high :: characters (low :: rest)
  | [code] => [characterOf code]
  | [] => []

/-- Reads the body of a string and its closing quote. `start` is the text from the opening quote. -/
def stringBody (start : List Char) : Nat → List Char → List Nat → Except Stop (List Nat × List Char)
  | fuel + 1, chars, found =>
    match chars with
    | [] => .error (.lacks .closingQuote start)
    | '"' :: rest => .ok (found.reverse, rest)
    | '\\' :: [] => .error (.lacks .closingQuote start)
    | '\\' :: 'u' :: rest =>
      match code? rest with
      | some (code, rest) => stringBody start fuel rest (code :: found)
      | none => .error (.lacks .code ('u' :: rest))
    | '\\' :: c :: rest =>
      match letterEscape? c with
      | some c => stringBody start fuel rest (c.toNat :: found)
      | none => .error (.lacks .escape chars)
    | c :: rest =>
      if c.toNat < 0x20 then .error (.lacks .control chars)
      else stringBody start fuel rest (c.toNat :: found)
  | 0, _, _ => .error (.lacks .closingQuote start)

/-- Reads a string whose opening quote is the first character. -/
def string (start : List Char) : Except Stop (String × List Char) := do
  let (codes, rest) ← stringBody start start.length (start.drop 1) []
  return (String.ofList (characters codes), rest)

def digitRun (chars : List Char) : List Char × List Char :=
  (chars.takeWhile Char.isDigit, chars.dropWhile Char.isDigit)

def digitsValue (digits : List Char) : Nat :=
  digits.foldl (fun value c => value * 10 + (c.toNat - '0'.toNat)) 0

/-- The digits after a point; none if the text goes on otherwise. -/
def fraction (chars : List Char) : List Char × List Char :=
  match chars with
  | '.' :: rest => if (digitRun rest).1 = [] then ([], chars) else digitRun rest
  | _ => ([], chars)

/-- The exponent after an `e`; none if the text goes on otherwise. -/
def exponent? (chars : List Char) : Option (Int × List Char) :=
  match chars with
  | e :: rest =>
    if e = 'e' ∨ e = 'E' then
      let (negative, rest) := match rest with
        | '-' :: rest => (true, rest)
        | '+' :: rest => (false, rest)
        | rest => (false, rest)
      let (digits, rest) := digitRun rest
      if digits = [] then none
      else some (if negative then -(digitsValue digits : Int) else digitsValue digits, rest)
    else none
  | [] => none

def number {ε : Type} (start : List Char) : Except Stop (Value ε × List Char) :=
  let (negative, chars) := match start with
    | '-' :: rest => (true, rest)
    | rest => (false, rest)
  let (whole, rest) := match chars with
    | '0' :: rest => (['0'], rest)
    | _ => digitRun chars
  if whole = [] then .error (.lacks .value start)
  else
    let (places, afterFraction) := fraction rest
    match exponent? afterFraction, places with
    | none, [] =>
      if digitLimit < whole.length then .error (.tooLong whole.length)
      else
        let value : Int := digitsValue whole
        .ok (.int (if negative then -value else value), rest)
    | scale, places =>
      let (power, rest) := scale.getD (0, afterFraction)
      .ok (.float (.finite ⟨negative, digitsValue (whole ++ places), power - places.length⟩), rest)

def words {ε : Type} : List (List Char × Value ε) :=
  [("null".toList, .null), ("true".toList, .bool true), ("false".toList, .bool false),
   ("NaN".toList, .float .nan), ("Infinity".toList, .float (.infinite false)),
   ("-Infinity".toList, .float (.infinite true))]

mutual

def value {ε : Type} : Nat → List Char → Except Stop (Value ε × List Char)
  | fuel + 1, chars =>
    match chars with
    | [] => .error (.lacks .value [])
    | '"' :: _ => do
      let (text, rest) ← string chars
      return (.string text, rest)
    | '[' :: rest =>
      match skipBlank rest with
      | ']' :: rest => .ok (.list [], rest)
      | rest => do
        let (items, rest) ← elements fuel rest
        return (.list items, rest)
    | '\x7b' :: rest =>
      match skipBlank rest with
      | '\x7d' :: rest => .ok (.table [], rest)
      | rest => do
        let (fields, rest) ← members fuel rest []
        return (.table fields, rest)
    | _ =>
      match words.find? fun word => word.1.isPrefixOf chars with
      | some (word, found) => .ok (found, chars.drop word.length)
      | none => number chars
  | 0, chars => .error (.lacks .value chars)

def elements {ε : Type} : Nat → List Char → Except Stop (List (Value ε) × List Char)
  | fuel + 1, chars => do
    let (item, rest) ← value fuel chars
    match skipBlank rest with
    | ']' :: rest => return ([item], rest)
    | ',' :: rest =>
      let (items, rest) ← elements fuel (skipBlank rest)
      return (item :: items, rest)
    | rest => .error (.lacks .comma rest)
  | 0, chars => .error (.lacks .value chars)

def members {ε : Type} :
    Nat → List Char → List (String × Value ε) → Except Stop (List (String × Value ε) × List Char)
  | fuel + 1, chars, found =>
    match chars with
    | '"' :: _ => do
      let (name, rest) ← string chars
      match skipBlank rest with
      | ':' :: rest =>
        let (item, rest) ← value fuel (skipBlank rest)
        let found := setField name item found
        match skipBlank rest with
        | '\x7d' :: rest => return (found, rest)
        | ',' :: rest => members fuel (skipBlank rest) found
        | rest => .error (.lacks .comma rest)
      | rest => .error (.lacks .colon rest)
    | _ => .error (.lacks .name chars)
  | 0, chars, _ => .error (.lacks .name chars)

end

def document {ε : Type} (chars : List Char) : Except Stop (Value ε) :=
  if chars.head? = some '\ufeff' then .error (.lacks .byteOrderMark chars)
  else do
    let (found, rest) ← value (2 * chars.length + 2) (skipBlank chars)
    match skipBlank rest with
    | [] => return found
    | rest => .error (.lacks .end rest)

def parse {ε : Type} (text : String) : Except Fault (Value ε) :=
  match document text.toList with
  | .ok found => .ok found
  | .error (.lacks reason rest) => .error (.malformed reason (.of text.toList rest))
  | .error (.tooLong digits) => .error (.integerTooLong digits)

/-- One character inside a JSON string: ASCII alone, other characters as the codes of UTF-16. -/
def escaped (c : Char) : List Char :=
  let code (value : Nat) : List Char := '\\' :: 'u' :: Text.hexDigits 4 value
  match c with
  | '"' => ['\\', '"']
  | '\\' => ['\\', '\\']
  | '\n' => ['\\', 'n']
  | '\r' => ['\\', 'r']
  | '\t' => ['\\', 't']
  | '\x08' => ['\\', 'b']
  | '\x0c' => ['\\', 'f']
  | c =>
    if 0x20 ≤ c.toNat ∧ c.toNat < 0x7f then [c]
    else if c.toNat < 0x10000 then code c.toNat
    else
      let above := c.toNat - 0x10000
      code (0xd800 + above / 0x400) ++ code (0xdc00 + above % 0x400)

def encodeString (text : String) : String :=
  String.ofList ('"' :: text.toList.flatMap escaped ++ ['"'])

end Bundler.Data.Json
