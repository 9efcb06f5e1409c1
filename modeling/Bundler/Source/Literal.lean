import Bundler.Source.Lexer
import Bundler.Text.CharacterName
import Bundler.Text.Pieces
import Bundler.Text.Quoted

/-!
# Values of string literals

`evaluate` gives the value of a string token: its body with line breaks made uniform and, unless the
literal is raw, escapes replaced by what they stand for. Which character has a name, and what stands for a
lone surrogate, is given.
-/

namespace Bundler.Source

inductive EscapeFault
  | shortHex
  | shortCode
  | shortLongCode
  | noCharacter
  | malformedName
  | unknownName
  deriving DecidableEq, Repr

def EscapeFault.message : EscapeFault → String
  | .shortHex => "truncated \\xXX escape"
  | .shortCode => "truncated \\uXXXX escape"
  | .shortLongCode => "truncated \\UXXXXXXXX escape"
  | .noCharacter => "illegal Unicode character"
  | .malformedName => "malformed \\N character escape"
  | .unknownName => "unknown Unicode character name"

/-- Why a string literal has no value. Positions count the characters of the body after every
character beyond ASCII has been spelt as a ten-character escape. -/
inductive LiteralFault
  | null
  | escape (fault : EscapeFault) (first last line : Nat)
  | byteEscape (position line : Nat)
  | byteCharacter
  | malformed
  deriving DecidableEq, Repr

def LiteralFault.message : LiteralFault → String
  | .null => "source code string cannot contain null bytes"
  | .escape fault first last line =>
    let place :=
      if first = last then s!"byte 0x5c in position {first}"
      else s!"bytes in position {first}-{last}"
    s!"(unicode error) 'unicodeescape' codec can't decode {place}: {fault.message} (<unknown>, line {line})"
  | .byteEscape position line =>
    s!"(value error) invalid \\x escape at position {position} (<unknown>, line {line})"
  | .byteCharacter => "bytes can only contain ASCII literal characters (<unknown>, line 1)"
  | .malformed => "malformed string literal"

/-- The value of a string literal. Of a byte string only the fact is kept. -/
inductive LiteralValue
  | text (chars : List Char)
  | bytes
  deriving DecidableEq, Repr

def hexValue (c : Char) : Nat :=
  if c.isDigit then c.toNat - '0'.toNat
  else if 'a' ≤ c then c.toNat - 'a'.toNat + 10
  else c.toNat - 'A'.toNat + 10

/-- Reads up to `count` hexadecimal digits: how many there are, their value, and what follows. -/
def hexRun : Nat → Nat → List Char → Nat × Nat × List Char
  | count + 1, value, c :: rest =>
    if isHexDigit c then
      let (read, value, left) := hexRun count (value * 16 + hexValue c) rest
      (read + 1, value, left)
    else (0, value, c :: rest)
  | _, value, rest => (0, value, rest)

def isOctalDigit (c : Char) : Bool := '0' ≤ c && c ≤ '7'

/-- Reads up to `count` octal digits. -/
def octalRun : Nat → Nat → List Char → Nat × Nat × List Char
  | count + 1, value, c :: rest =>
    if isOctalDigit c then
      let (read, value, left) := octalRun count (value * 8 + (c.toNat - '0'.toNat)) rest
      (read + 1, value, left)
    else (0, value, c :: rest)
  | _, value, rest => (0, value, rest)

/-- An escape whose letter is followed by one character. -/
def simpleEscape? (c : Char) : Option Char :=
  match c with
  | '\\' => some '\\'
  | '\'' => some '\''
  | '"' => some '"'
  | 'a' => some '\x07'
  | 'b' => some '\x08'
  | 'f' => some '\x0c'
  | 'n' => some '\n'
  | 'r' => some '\r'
  | 't' => some '\t'
  | 'v' => some '\x0b'
  | _ => none

/-- The number of hexadecimal digits after an escape's letter, and the fault if there are fewer. -/
def codeEscape? (c : Char) : Option (Nat × EscapeFault) :=
  match c with
  | 'x' => some (2, .shortHex)
  | 'u' => some (4, .shortCode)
  | 'U' => some (8, .shortLongCode)
  | _ => none

/-- How many places a character takes in the count of positions. -/
def places (c : Char) : Nat := if c.toNat < 0x80 then 1 else 10

/-- A fault before it is known on which line it is reported: its first and last position. -/
abbrev EscapeError := EscapeFault × Nat × Nat

/-- What one escape stands for, from the characters after its backslash: the value, the places read,
and what follows. -/
def escaped (characters : Text.Characters) (position : Nat) (chars : List Char) :
    Except (EscapeError ⊕ Unit) (List Char × Nat × List Char) :=
  match chars with
  | [] => .error (.inr ())
  | '\n' :: rest => .ok ([], 2, rest)
  | c :: rest =>
    match simpleEscape? c with
    | some value => .ok ([value], 2, rest)
    | none =>
      if isOctalDigit c then
        let (read, value, left) := octalRun 3 0 (c :: rest)
        .ok ([Char.ofNat value], read + 1, left)
      else
        match codeEscape? c with
        | some (count, fault) =>
          let (read, value, left) := hexRun count 0 rest
          if read < count then .error (.inl (fault, position, position + read + 1))
          else if 0x110000 ≤ value then .error (.inl (.noCharacter, position, position + read + 1))
          else if 0xD800 ≤ value ∧ value < 0xE000 then
            .ok ([characters.surrogate value], read + 2, left)
          else .ok ([Char.ofNat value], read + 2, left)
        | none =>
          if c = 'N' then
            match rest with
            | '{' :: rest =>
              let (name, left) := rest.span (· != '}')
              let width := name.foldl (fun width c => width + places c) 0
              match left with
              | '}' :: left =>
                if name = [] then .error (.inl (.malformedName, position, position + 2))
                else
                  match characters.named name with
                  | some value => .ok ([value], width + 4, left)
                  | none => .error (.inl (.unknownName, position, position + width + 3))
              | _ => .error (.inl (.malformedName, position, position + width + 2))
            | _ => .error (.inl (.malformedName, position, position + 1))
          else if c.toNat < 0x80 then .ok (['\\', c], 2, rest)
          else .ok (['\\', c], 16, rest)

/-- Replaces escapes. The first number bounds the escapes still to be read. -/
def unescape (characters : Text.Characters) :
    Nat → Nat → List Char → Except (EscapeError ⊕ Unit) (List Char)
  | 0, _, _ => .error (.inr ())
  | _ + 1, _, [] => .ok []
  | fuel + 1, position, '\\' :: rest => do
    let (value, width, left) ← escaped characters position rest
    return value ++ (← unescape characters fuel (position + width) left)
  | fuel + 1, position, c :: rest => do
    return c :: (← unescape characters fuel (position + places c) rest)

/-- The position of the first byte escape without two digits. -/
def badByteEscape? : Nat → Nat → List Char → Option Nat
  | 0, _, _ => none
  | fuel + 1, position, '\\' :: 'x' :: rest =>
    let (read, _, left) := hexRun 2 0 rest
    if read < 2 then some position else badByteEscape? fuel (position + 4) left
  | fuel + 1, position, '\\' :: _ :: rest => badByteEscape? fuel (position + 2) rest
  | fuel + 1, position, _ :: rest => badByteEscape? fuel (position + 1) rest
  | _ + 1, _, [] => none

/-- The parts of a string token: its letters in lower case, its opening quotes, and its body. -/
def stringParts? (text : List Char) : Option (List Char × List Char × List Char) := do
  let (letters, quoted) ← stringPrefix? text
  let (quotes, _, rest) := openingQuotes quoted
  return (letters.map Char.toLower, quotes, rest.take (rest.length - quotes.length))

/-- The value of a string token. -/
def evaluate (characters : Text.Characters) (text : List Char) : Except LiteralFault LiteralValue :=
  if text.contains '\x00' then .error .null
  else
    match stringParts? text with
    | none => .error .malformed
    | some (letters, _, body) =>
      let body := Text.uniformBreaks body
      let line := body.count '\n' + 1
      let raw := letters.contains 'r' || !body.contains '\\'
      if letters.contains 'b' then
        if body.any fun c => 0x80 ≤ c.toNat then .error .byteCharacter
        else if raw then .ok .bytes
        else
          match badByteEscape? (body.length + 1) 0 body with
          | some position => .error (.byteEscape position line)
          | none => .ok .bytes
      else if raw then .ok (.text body)
      else
        match unescape characters (body.length + 1) 0 body with
        | .ok value => .ok (.text value)
        | .error (.inl (fault, first, last)) => .error (.escape fault first last line)
        | .error (.inr ()) => .error .malformed

end Bundler.Source
