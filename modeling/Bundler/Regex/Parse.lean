import Bundler.Regex.Syntax
import Bundler.Text.CharacterName
import Bundler.Text.Identifier
import Bundler.Text.Quoted
import Bundler.Text.Blank
import Bundler.Source.Lexer

/-!
# Reading regular expressions

`parse` reads a pattern, or says what is wrong with it and where. Groups can lie inside one another to any
depth; how deep an interpreter can call itself is left out. The names of characters are those of
`Text.characterNames`.
-/

namespace Bundler.Regex

open Bundler.Text (quotedString)

inductive Reason
  | trailingBackslash
  | missing (what : String)
  | unterminatedName (terminator : String)
  | badGroupName (name : String)
  | incompleteEscape (escape : String)
  | unknownCharacter (name : String)
  | badEscape (escape : String)
  | bigOctal (escape : String)
  | openReference
  | lookbehindReference
  | invalidReference (number : Nat)
  | unterminatedSet
  | badRange (first last : String)
  | swappedBounds
  | nothingToRepeat
  | multipleRepeat
  | unexpectedEnd
  | unknownGroup (name : String)
  | unknownExtension (extension : String)
  | unterminatedComment
  | unterminatedGroup
  | badGroupNumber
  | manyBranches
  | lateFlags
  | renamedGroup (name : String) (number first : Nat)
  | unbalanced
  | localeFlag
  | clashingFlags
  | unknownFlag
  | globalFlagOn
  | globalFlagOff
  | textFlagOff
  | flagOnAndOff
  | variableLookbehind
  | templateOperator (operator : String)
  deriving DecidableEq, Repr

def Reason.message : Reason → String
  | .trailingBackslash => "bad escape (end of pattern)"
  | .missing what => s!"missing {what}"
  | .unterminatedName terminator => s!"missing {terminator}, unterminated name"
  | .badGroupName name => s!"bad character in group name {quotedString name}"
  | .incompleteEscape escape => s!"incomplete escape {escape}"
  | .unknownCharacter name => s!"undefined character name {quotedString name}"
  | .badEscape escape => s!"bad escape {escape}"
  | .bigOctal escape => s!"octal escape value {escape} outside of range 0-0o377"
  | .openReference => "cannot refer to an open group"
  | .lookbehindReference => "cannot refer to group defined in the same lookbehind subpattern"
  | .invalidReference number => s!"invalid group reference {number}"
  | .unterminatedSet => "unterminated character set"
  | .badRange first last => s!"bad character range {first}-{last}"
  | .swappedBounds => "min repeat greater than max repeat"
  | .nothingToRepeat => "nothing to repeat"
  | .multipleRepeat => "multiple repeat"
  | .unexpectedEnd => "unexpected end of pattern"
  | .unknownGroup name => s!"unknown group name {quotedString name}"
  | .unknownExtension extension => s!"unknown extension {extension}"
  | .unterminatedComment => "missing ), unterminated comment"
  | .unterminatedGroup => "missing ), unterminated subpattern"
  | .badGroupNumber => "bad group number"
  | .manyBranches => "conditional backref with more than two branches"
  | .lateFlags => "global flags not at the start of the expression"
  | .renamedGroup name number first =>
    s!"redefinition of group name {quotedString name} as group {number}; was group {first}"
  | .unbalanced => "unbalanced parenthesis"
  | .localeFlag => "bad inline flags: cannot use 'L' flag with a str pattern"
  | .clashingFlags => "bad inline flags: flags 'a', 'u' and 'L' are incompatible"
  | .unknownFlag => "unknown flag"
  | .globalFlagOn => "bad inline flags: cannot turn on global flag"
  | .globalFlagOff => "bad inline flags: cannot turn off global flag"
  | .textFlagOff => "bad inline flags: cannot turn off flags 'a', 'u' and 'L'"
  | .flagOnAndOff => "bad inline flags: flag turned on and off"
  | .variableLookbehind => "look-behind requires fixed-width pattern"
  | .templateOperator operator => s!"internal: unsupported template operator {operator}"

/-- Why a pattern is no regular expression: a mistake, most often at some position; flags that exclude
each other; or a number of rounds beyond all bounds. -/
inductive Fault
  | mistake (reason : Reason) (position : Option Nat)
  | incompatibleFlags
  | hugeRepetition
  deriving DecidableEq, Repr

/-- The wording of a fault in a pattern; in a pattern of several lines the place is also given by line
and column. -/
def Fault.message (pattern : String) : Fault → String
  | .mistake reason none => reason.message
  | .mistake reason (some position) =>
    let before := pattern.toList.take position
    let place := s!"{reason.message} at position {position}"
    if pattern.toList.contains '\n' then
      let line := before.count '\n' + 1
      let column := (before.reverse.takeWhile (· != '\n')).length + 1
      s!"{place} (line {line}, column {column})"
    else place
  | .incompatibleFlags => "ASCII and UNICODE flags are incompatible"
  | .hugeRepetition => "the repetition number is too large"

/-- What has been learnt so far, and what is left of the pattern. -/
structure Reader where
  total : Nat
  rest : List Char
  flags : Flags := {}
  names : List (String × Nat) := []
  /-- The widths of the groups begun so far; a group that is still open has none. -/
  widths : List (Option Width) := []
  lookbehind : Option Nat := none
  conditions : List (Nat × Nat) := []

/-- Reading with a fault as a possible end. -/
abbrev Read (α : Type) := StateT Reader (Except Fault) α

def position : Read Nat := do
  let reader ← get
  return reader.total - reader.rest.length

/-- Fails with the place some characters before the next token. -/
def failBefore {α : Type} (reason : Reason) (offset : Nat) : Read α := do
  throw (.mistake reason (some ((← position) - offset)))

def failAt {α : Type} (reason : Reason) (place : Nat) : Read α :=
  throw (.mistake reason (some place))

/-- The next token: a character, or a backslash and a character. -/
def next? : Read (List Char) := do
  match (← get).rest with
  | [] => return []
  | '\\' :: c :: _ => return ['\\', c]
  | c :: _ => return [c]

/-- Checks that the pattern does not go on with a backslash and nothing else. -/
def checkEnd : Read Unit := do
  let reader ← get
  if reader.rest = ['\\'] then failAt .trailingBackslash (reader.total - 1)

def seek (rest : List Char) : Read Unit := do
  modify fun reader => { reader with rest := rest }
  checkEnd

/-- Takes the next token. At the end there is none. -/
def take : Read (List Char) := do
  let token ← next?
  seek ((← get).rest.drop token.length)
  return token

/-- Takes the next token if it is this character. -/
def accept (c : Char) : Read Bool := do
  if (← next?) = [c] then
    let _ ← take
    return true
  else return false

def takeWhile (allowed : Char → Bool) : Nat → Read (List Char)
  | 0 => return []
  | count + 1 => do
    match ← next? with
    | [c] =>
      if allowed c then
        let _ ← take
        return c :: (← takeWhile allowed count)
      else return []
    | _ => return []

/-- Takes a name up to its terminator. The number bounds its length. -/
def takeName (terminator : Char) (what : String) : Nat → List Char → Read (List Char)
  | 0, _ => throw (.mistake .unexpectedEnd none)
  | fuel + 1, name => do
    let token ← take
    if token = [] then
      if name = [] then failBefore (.missing what) 0
      else failBefore (.unterminatedName (String.singleton terminator)) name.length
    else if token = [terminator] then
      if name = [] then failBefore (.missing what) 1 else return name
    else takeName terminator what fuel (name ++ token)

def nameUntil (terminator : Char) (what : String) : Read (List Char) := do
  takeName terminator what ((← get).rest.length + 1) []

def digitsValue (base : Nat) (digits : List Char) : Nat :=
  digits.foldl (fun value c =>
    value * base + (if c.isDigit then c.toNat - '0'.toNat
      else if 'a' ≤ c then c.toNat - 'a'.toNat + 10 else c.toNat - 'A'.toNat + 10)) 0

def isOctal (c : Char) : Bool := '0' ≤ c && c ≤ '7'

/-- An escape of a fixed number of hexadecimal digits; there is no character beyond U+10FFFF. -/
def hexEscape (letter : Char) (count : Nat) : Read Nat := do
  let digits ← takeWhile Source.isHexDigit count
  let escape := '\\' :: letter :: digits
  if digits.length ≠ count then
    failBefore (.incompleteEscape (String.ofList escape)) escape.length
  else if 0x110000 ≤ digitsValue 16 digits then
    failBefore (.badEscape (String.ofList escape)) escape.length
  else return digitsValue 16 digits

def namedEscape : Read Nat := do
  if !(← accept '{') then failBefore (.missing "\x7b") 0
  else
    let name ← nameUntil '}' "character name"
    match Text.characterNamed? name with
    | some c => return c.toNat
    | none => failBefore (.unknownCharacter (String.ofList name)) (name.length + 4)

/-- The character that a letter after a backslash stands for. -/
def letterEscape? (c : Char) : Option Nat :=
  match c with
  | 'a' => some 7
  | 'b' => some 8
  | 'f' => some 12
  | 'n' => some 10
  | 'r' => some 13
  | 't' => some 9
  | 'v' => some 11
  | '\\' => some 92
  | _ => none

/-- The class that a letter after a backslash stands for, and whether it is the opposite class. -/
def classEscape? (c : Char) : Option SetItem :=
  match c with
  | 'd' => some (.category .digit false)
  | 'D' => some (.category .digit true)
  | 's' => some (.category .space false)
  | 'S' => some (.category .space true)
  | 'w' => some (.category .word false)
  | 'W' => some (.category .word true)
  | _ => none

/-- Escapes by number or name, which mean the same inside and outside of sets. -/
def codeEscape? (c : Char) : Option (Read Nat) :=
  match c with
  | 'x' => some (hexEscape c 2)
  | 'u' => some (hexEscape c 4)
  | 'U' => some (hexEscape c 8)
  | 'N' => some namedEscape
  | _ => none

def setEscape (c : Char) : Read SetItem := do
  match letterEscape? c with
  | some code => return .literal code
  | none =>
    match classEscape? c with
    | some item => return item
    | none =>
      match codeEscape? c with
      | some read => return .literal (← read)
      | none =>
        if isOctal c then
          let digits := c :: (← takeWhile isOctal 2)
          let code := digitsValue 8 digits
          if code > 0o377 then
            failBefore (.bigOctal (String.ofList ('\\' :: digits))) (digits.length + 1)
          else return .literal code
        else if c.isDigit || c.isAlpha then failBefore (.badEscape (String.ofList ['\\', c])) 2
        else return .literal c.toNat

/-- The group is complete and may be referred to from here. -/
def checkGroup (number : Nat) (offset : Nat) : Read Unit := do
  let reader ← get
  if ((reader.widths[number - 1]?).getD none).isNone then failBefore .openReference offset

/-- A group referred to inside a look-behind was complete before it. -/
def checkLookbehind (number : Nat) : Read Unit := do
  let reader ← get
  match reader.lookbehind with
  | some bound =>
    if ((reader.widths[number - 1]?).getD none).isNone then failBefore .openReference 0
    else if bound ≤ number then failBefore .lookbehindReference 0
  | none => return ()

/-- The place that a letter after a backslash stands for. -/
def placeEscape? (c : Char) : Option Place :=
  match c with
  | 'A' => some .textStart
  | 'b' => some .boundary
  | 'B' => some .noBoundary
  | 'Z' => some .textEnd
  | _ => none

/-- A reference to a group or an octal escape of three digits, after its first digit. -/
def numberEscape (c : Char) : Read Expr := do
  let digits ← match ← next? with
    | [d] =>
      if d.isDigit then do
        let _ ← take
        match ← next? with
        | [e] =>
          if isOctal c && isOctal d && isOctal e then do
            let _ ← take
            pure [c, d, e]
          else pure [c, d]
        | _ => pure [c, d]
      else pure [c]
    | _ => pure [c]
  if digits.length = 3 then
    let code := digitsValue 8 digits
    if code > 0o377 then failBefore (.bigOctal (String.ofList ('\\' :: digits))) 4
    else return .literal code false
  else
    let number := digitsValue 10 digits
    if number ≤ (← get).widths.length then
      checkGroup number (digits.length + 1)
      checkLookbehind number
      return .reference number
    else failBefore (.invalidReference number) digits.length

/-- An escape outside of sets. -/
def escape (c : Char) : Read Expr := do
  match placeEscape? c, classEscape? c with
  | some place, _ => return .place place
  | none, some item => return .set false [item]
  | none, none =>
    match letterEscape? c with
    | some code => return .literal code false
    | none =>
      match codeEscape? c with
      | some read => return .literal (← read) false
      | none =>
        if c = '0' then return .literal (digitsValue 8 (← takeWhile isOctal 2)) false
        else if c.isDigit then numberEscape c
        else if c.isAlpha then failBefore (.badEscape (String.ofList ['\\', c])) 2
        else return .literal c.toNat false

/-- One member of a set, before it is known whether a range starts with it. -/
def setMember (token : List Char) : Read SetItem :=
  match token with
  | ['\\', c] => setEscape c
  | c :: _ => return .literal c.toNat
  | [] => return .literal 0

def setItems (start : Nat) : Nat → List SetItem → Read (List SetItem)
  | 0, _ => throw (.mistake .unexpectedEnd none)
  | fuel + 1, items => do
    let token ← take
    if token = [] then failAt .unterminatedSet start
    else if token = [']'] ∧ items ≠ [] then return items
    else
      let first ← setMember token
      if ← accept '-' then
        let last ← take
        if last = [] then failAt .unterminatedSet start
        else if last = [']'] then return items ++ [first, .literal '-'.toNat]
        else
          let bad : Read (List SetItem) :=
            failBefore (.badRange (String.ofList token) (String.ofList last))
              (token.length + 1 + last.length)
          match first, ← setMember last with
          | .literal low, .literal high =>
            if high < low then bad else setItems start fuel (items ++ [.range low high])
          | _, _ => bad
      else setItems start fuel (items ++ [first])

def characterSet : Read Expr := do
  let start := (← position) - 1
  let negated ← accept '^'
  let items ← setItems start ((← get).rest.length + 1) []
  match items with
  | [.literal code] => return .literal code negated
  | _ => return .set negated items

/-- The bound beyond which no number of rounds is accepted. -/
def maxRounds : Nat := 4294967295

/-- The numbers of rounds that a repetition sign allows, or nothing for a brace that is a literal. -/
def rounds (sign : Char) : Read (Option (Nat × Option Nat)) := do
  match sign with
  | '?' => return some (0, some 1)
  | '*' => return some (0, none)
  | '+' => return some (1, none)
  | _ =>
    if (← next?) = ['}'] then return none
    else
      let before := (← get).rest
      let here ← position
      let low ← takeWhile Char.isDigit before.length
      let high ← if ← accept ',' then takeWhile Char.isDigit before.length else pure low
      if !(← accept '}') then
        seek before
        return none
      else
        let least := digitsValue 10 low
        let most := digitsValue 10 high
        if maxRounds ≤ least ∨ maxRounds ≤ most then throw .hugeRepetition
        else if high ≠ [] ∧ most < least then failAt .swappedBounds here
        else return some (least, if high = [] then none else some most)

def Expr.isRepetition : Expr → Bool
  | .repetition .. => true
  | _ => false

/-- The expression is a condition on a place. -/
def Expr.isPlace : Expr → Bool
  | .place _ => true
  | _ => false

/-- What a repetition repeats: a group without number and switches is its body. -/
def Expr.body : Expr → List Expr
  | .group none on off body => if on.isEmpty && off.isEmpty then body else [.group none on off body]
  | expr => [expr]

def repeated (sign : List Char) (here : Nat) (least : Nat) (most : Option Nat)
    (sequence : List Expr) : Read (List Expr) := do
  match sequence.getLast? with
  | none => failAt .nothingToRepeat (here - sign.length)
  | some last =>
    if last.isPlace then failAt .nothingToRepeat (here - sign.length)
    else if last.isRepetition then failAt .multipleRepeat (here - sign.length)
    else
      let greed : Greed ← if ← accept '?' then pure .lazy
        else if ← accept '+' then pure .possessive else pure .greedy
      return sequence.dropLast ++ [.repetition greed least most last.body]

def isLetter (c : Char) : Bool := c != '_' && Text.isIdentifierStart c

/-- The switch that a letter stands for. -/
def flagOf? (c : Char) : Option Flags :=
  match c with
  | 'i' => some { ignoreCase := true }
  | 'm' => some { multiline := true }
  | 's' => some { dotAll := true }
  | 'x' => some { verbose := true }
  | 'a' => some { ascii := true }
  | 'u' => some { unicode := true }
  | 't' => some { template := true }
  | 'L' => some {}
  | _ => none

/-- The letters of the switches turned on, and the sign after them. -/
def flagsOn : Nat → Char → Flags → Read (Flags × Char)
  | 0, _, _ => throw (.mistake .unexpectedEnd none)
  | fuel + 1, c, on => do
    if c = 'L' then failBefore .localeFlag 0
    else
      let flag := (flagOf? c).getD {}
      let on := on.union flag
      if flag.choosesText && on.ascii && on.unicode then failBefore .clashingFlags 0
      else
        match ← take with
        | [d] =>
          if d = ')' ∨ d = '-' ∨ d = ':' then return (on, d)
          else if (flagOf? d).isSome then flagsOn fuel d on
          else failBefore (if isLetter d then .unknownFlag else .missing "-, : or )") 1
        | [] => failBefore (.missing "-, : or )") 0
        | token => failBefore (.missing "-, : or )") token.length

/-- The letters of the switches turned off, up to the colon. -/
def flagsOff : Nat → Char → Flags → Read Flags
  | 0, _, _ => throw (.mistake .unexpectedEnd none)
  | fuel + 1, c, off => do
    let flag := (flagOf? c).getD {}
    if flag.choosesText || c = 'L' then failBefore .textFlagOff 0
    else
      let off := off.union flag
      match ← take with
      | [d] =>
        if d = ':' then return off
        else if (flagOf? d).isSome then flagsOff fuel d off
        else failBefore (if isLetter d then .unknownFlag else .missing ":") 1
      | [] => failBefore (.missing ":") 0
      | token => failBefore (.missing ":") token.length

/-- The switches of a group, from their first letter: none if they are for the whole pattern, and are
then recorded. -/
def groupFlags (c : Char) : Read (Option (Flags × Flags)) := do
  let fuel := (← get).rest.length + 2
  let (on, sign) ← if c = '-' then pure ({}, '-') else flagsOn fuel c {}
  if sign = ')' then
    modify fun reader => { reader with flags := reader.flags.union on }
    return none
  else if on.template then failBefore .globalFlagOn 1
  else
    let off ← if sign = '-' then
        match ← take with
        | [d] =>
          if (flagOf? d).isSome then flagsOff fuel d {}
          else failBefore (if isLetter d then .unknownFlag else .missing "flag") 1
        | [] => failBefore (.missing "flag") 0
        | token => failBefore (.missing "flag") token.length
      else pure {}
    if off.template then failBefore .globalFlagOff 1
    else if !(on.common off).isEmpty then failBefore .flagOnAndOff 1
    else return some (on, off)

/-- Checks the name of a group just read up to its terminator. -/
def checkName (name : List Char) : Read Unit := do
  if !Text.isIdentifier name then
    failBefore (.badGroupName (String.ofList name)) (name.length + 1)

def openGroup (name : Option (List Char)) : Read Nat := do
  let reader ← get
  let number := reader.widths.length + 1
  match name with
  | none => set { reader with widths := reader.widths ++ [none] }
  | some name =>
    let text := String.ofList name
    match reader.names.lookup text with
    | some first => failBefore (.renamedGroup text number first) (name.length + 1)
    | none =>
      set { reader with widths := reader.widths ++ [none], names := reader.names ++ [(text, number)] }
  return number

def groupWidth (widths : List (Option Width)) (number : Nat) : Width :=
  ((widths[number - 1]?).getD none).getD (0, 0)

def closeGroup (number : Nat) (body : List Expr) : Read Unit :=
  modify fun reader =>
    let width := widthOf (groupWidth reader.widths) body
    { reader with widths := reader.widths.set (number - 1) (some width) }

def conditionGroup : Read Nat := do
  let name ← nameUntil ')' "group name"
  let text := String.ofList name
  if Text.isIdentifier name then
    match (← get).names.lookup text with
    | some number => return number
    | none => failBefore (.unknownGroup text) (name.length + 1)
  else
    let digits := (Text.strip name).filter (· != '_')
    let digits := if digits.head? = some '+' then digits.tail else digits
    if digits = [] ∨ !digits.all Char.isDigit then
      failBefore (.badGroupName text) (name.length + 1)
    else
      let number := digitsValue 10 digits
      if number = 0 then failBefore .badGroupNumber (name.length + 1)
      else if 1073741823 ≤ number then failBefore (.invalidReference number) (name.length + 1)
      else
        let place := (← position) - (name.length + 1)
        modify fun reader =>
          if (reader.conditions.lookup number).isSome then reader
          else { reader with conditions := reader.conditions ++ [(number, place)] }
        return number

def skipComment (start : Nat) : Nat → Read Unit
  | 0 => throw (.mistake .unexpectedEnd none)
  | fuel + 1 => do
    match ← take with
    | [] => failAt .unterminatedComment start
    | [')'] => return ()
    | _ => skipComment start fuel

def skipLine : Nat → Read Unit
  | 0 => return ()
  | fuel + 1 => do
    match ← take with
    | [] => return ()
    | ['\n'] => return ()
    | _ => skipLine fuel

/-- What a group that starts with a question mark is. -/
inductive GroupStart
  | capture (name : Option (List Char))
  | plain (on off : Flags)
  | atomic
  | look (behind negated : Bool)
  | condition (number : Nat)
  | flags
  | done (exprs : List Expr)

/-- Reads what follows an opening parenthesis, up to the body of the group. -/
def groupStart (start : Nat) : Read GroupStart := do
  if !(← accept '?') then return .capture none
  else
    match ← take with
    | [] => failBefore .unexpectedEnd 0
    | ['P'] =>
      if ← accept '<' then
        let name ← nameUntil '>' "group name"
        checkName name
        return .capture (some name)
      else if ← accept '=' then
        let name ← nameUntil ')' "group name"
        checkName name
        match (← get).names.lookup (String.ofList name) with
        | none => failBefore (.unknownGroup (String.ofList name)) (name.length + 1)
        | some number =>
          checkGroup number (name.length + 1)
          checkLookbehind number
          return .done [.reference number]
      else
        match ← take with
        | [] => failBefore .unexpectedEnd 0
        | token =>
          failBefore (.unknownExtension ("?P" ++ String.ofList token)) (token.length + 2)
    | [':'] => return .plain {} {}
    | ['#'] =>
      skipComment start ((← get).rest.length + 1)
      return .done []
    | ['='] => return .look false false
    | ['!'] => return .look false true
    | ['<'] =>
      match ← take with
      | [] => failBefore .unexpectedEnd 0
      | ['='] => return .look true false
      | ['!'] => return .look true true
      | token => failBefore (.unknownExtension ("?<" ++ String.ofList token)) (token.length + 2)
    | ['('] =>
      let number ← conditionGroup
      checkLookbehind number
      return .condition number
    | ['>'] => return .atomic
    | [c] =>
      if (flagOf? c).isSome || c = '-' then
        match ← groupFlags c with
        | some (on, off) => return .plain on off
        | none => return .flags
      else failBefore (.unknownExtension (String.ofList ['?', c])) 2
    | token => failBefore (.unknownExtension ("?" ++ String.ofList token)) (token.length + 1)

def endGroup (start : Nat) : Read Unit := do
  if !(← accept ')') then failAt .unterminatedGroup start

/-- A blank that a verbose pattern skips. -/
def isPatternBlank (c : Char) : Bool :=
  c == ' ' || c == '\t' || c == '\n' || c == '\r' || c == '\x0b' || c == '\x0c'

/-- The sequence that some branches form: a single one stands for itself. -/
def choiceOf : List (List Expr) → List Expr
  | [branch] => branch
  | branches => [.choice branches]

mutual

def readBranches : Nat → Bool → Bool → Bool → Read (List (List Expr))
  | 0, _, _, _ => throw (.mistake .unexpectedEnd none)
  | fuel + 1, verbose, nested, first => do
    let branch ← readSequence fuel verbose (!nested && first) []
    if ← accept '|' then
      let verbose ← if nested then pure verbose else pure (← get).flags.verbose
      return branch :: (← readBranches fuel verbose nested false)
    else return [branch]

/-- Reads a sequence, given the part of it read so far. -/
def readSequence : Nat → Bool → Bool → List Expr → Read (List Expr)
  | 0, _, _, _ => throw (.mistake .unexpectedEnd none)
  | fuel + 1, verbose, first, sequence => do
    match ← next? with
    | [] => return sequence
    | ['|'] => return sequence
    | [')'] => return sequence
    | ['\\', c] =>
      let _ ← take
      let expr ← escape c
      readSequence fuel verbose first (sequence ++ [expr])
    | token =>
      let c := token.headD ' '
      let _ ← take
      if verbose && isPatternBlank c then readSequence fuel verbose first sequence
      else if verbose && c == '#' then
        skipLine ((← get).rest.length + 1)
        readSequence fuel verbose first sequence
      else
        match c with
        | '[' => readSequence fuel verbose first (sequence ++ [← characterSet])
        | '.' => readSequence fuel verbose first (sequence ++ [.any])
        | '^' => readSequence fuel verbose first (sequence ++ [.place .lineStart])
        | '$' => readSequence fuel verbose first (sequence ++ [.place .lineEnd])
        | '(' =>
          let start := (← position) - 1
          match ← groupStart start with
          | .done exprs => readSequence fuel verbose first (sequence ++ exprs)
          | .flags =>
            if first && sequence.isEmpty then
              readSequence fuel (← get).flags.verbose first sequence
            else failAt .lateFlags start
          | .capture name =>
            let number ← openGroup name
            let body := choiceOf (← readBranches fuel verbose true true)
            endGroup start
            closeGroup number body
            readSequence fuel verbose first (sequence ++ [.group (some number) {} {} body])
          | .plain on off =>
            let verbosely := (verbose || on.verbose) && !off.verbose
            let body := choiceOf (← readBranches fuel verbosely true true)
            endGroup start
            readSequence fuel verbose first (sequence ++ [.group none on off body])
          | .atomic =>
            let body := choiceOf (← readBranches fuel verbose true true)
            endGroup start
            readSequence fuel verbose first (sequence ++ [.atomic body])
          | .look behind negated =>
            let outer := (← get).lookbehind
            if behind && outer.isNone then
              modify fun reader => { reader with lookbehind := some (reader.widths.length + 1) }
            let body := choiceOf (← readBranches fuel verbose true true)
            if behind && outer.isNone then
              modify fun reader => { reader with lookbehind := none }
            endGroup start
            readSequence fuel verbose first (sequence ++ [.look behind negated body])
          | .condition number =>
            let yes ← readSequence fuel verbose false []
            let no ← if ← accept '|' then do
                let no ← readSequence fuel verbose false []
                if (← next?) = ['|'] then failBefore .manyBranches 0
                else pure (some no)
              else pure none
            endGroup start
            readSequence fuel verbose first (sequence ++ [.condition number yes no])
        | _ =>
          if c == '*' || c == '+' || c == '?' || c == '{' then
            let here ← position
            match ← rounds c with
            | none => readSequence fuel verbose first (sequence ++ [.literal c.toNat false])
            | some (least, most) =>
              readSequence fuel verbose first (← repeated token here least most sequence)
          else readSequence fuel verbose first (sequence ++ [.literal c.toNat false])

end

mutual

/-- The first look-behind whose width is not fixed, or the first repetition under a switch that forbids
it. -/
def Expr.unsupported? (groups : Nat → Width) (template : Bool) : Expr → Option Reason
  | .choice branches => unsupportedBranch? groups template branches
  | .group _ _ _ body => unsupported? groups template body
  | .atomic body => unsupported? groups template body
  | .repetition greed _ _ body =>
    if template then
      some (.templateOperator (match greed with
        | .greedy => "MAX_REPEAT"
        | .lazy => "MIN_REPEAT"
        | .possessive => "POSSESSIVE_REPEAT"))
    else unsupported? groups template body
  | .look behind _ body =>
    let (low, high) := widthOf groups body
    if behind && low != high then some .variableLookbehind else unsupported? groups template body
  | .condition _ yes no =>
    (unsupported? groups template yes).or
      (match no with
      | some no => unsupported? groups template no
      | none => none)
  | _ => none

/-- The first part of a sequence that cannot be matched. -/
def unsupported? (groups : Nat → Width) (template : Bool) : List Expr → Option Reason
  | [] => none
  | expr :: rest => (expr.unsupported? groups template).or (unsupported? groups template rest)

def unsupportedBranch? (groups : Nat → Width) (template : Bool) :
    List (List Expr) → Option Reason
  | [] => none
  | branch :: rest =>
    (unsupported? groups template branch).or (unsupportedBranch? groups template rest)

end

/-- A regular expression and the switches for all of it. -/
structure Pattern where
  flags : Flags
  body : List Expr
  deriving Repr

def readPattern : Read Pattern := do
  checkEnd
  let fuel := 4 * (← get).total + 8
  let body := choiceOf (← readBranches fuel false false true)
  let reader ← get
  if reader.flags.ascii && reader.flags.unicode then throw .incompatibleFlags
  else if reader.rest ≠ [] then failBefore .unbalanced 0
  else
    match reader.conditions.find? fun (number, _) => reader.widths.length < number with
    | some (number, place) => failAt (.invalidReference number) place
    | none =>
      match unsupported? (groupWidth reader.widths) reader.flags.template body with
      | some reason => throw (.mistake reason none)
      | none => return ⟨reader.flags, body⟩

def parse (pattern : String) : Except Fault Pattern :=
  let chars := pattern.toList
  (readPattern.run { total := chars.length, rest := chars }).map (·.1)

end Bundler.Regex
