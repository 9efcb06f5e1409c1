import Bundler.Data.Json

/-!
# TOML documents

`parse` reads a document into a table. While it reads, `Document` keeps the table built so far and
the marks that say which parts of it a later statement may no longer touch. Arrays and inline tables can lie
inside one another to any depth; how deep an interpreter can call itself is left out.
-/

namespace Bundler.Data.Toml

/-- The path to a part of a document. -/
abbrev Key := List String

/-- The written form of a key: its steps quoted, in parentheses. -/
def keyText (key : Key) : String :=
  match key with
  | [step] => "(" ++ Text.quotedString step ++ ",)"
  | steps => "(" ++ Text.joinWith ", " (steps.map Text.quotedString) ++ ")"

inductive Reason
  | statement
  | lineEnd
  | expected (text : String)
  | invalidCharacter (c : Char)
  | illegalCharacter (c : Char)
  | declaredTwice (key : Key)
  | overwrites
  | tableEnd
  | arrayEnd
  | redefined (key : Key)
  | immutable (key : Key)
  | equals
  | keyPart
  | openArray
  | openTable
  | duplicate (key : String)
  | escape
  | code
  | scalar
  | openString
  | moment
  | value
  deriving DecidableEq, Repr

def Reason.message : Reason → String
  | .statement => "Invalid statement"
  | .lineEnd => "Expected newline or end of document after a statement"
  | .expected text => s!"Expected {Text.quotedString text}"
  | .invalidCharacter c => s!"Found invalid character {Text.quotedString c.toString}"
  | .illegalCharacter c => s!"Illegal character {Text.quotedString c.toString}"
  | .declaredTwice key => s!"Cannot declare {keyText key} twice"
  | .overwrites => "Cannot overwrite a value"
  | .tableEnd => "Expected ']' at the end of a table declaration"
  | .arrayEnd => "Expected ']]' at the end of an array declaration"
  | .redefined key => s!"Cannot redefine namespace {keyText key}"
  | .immutable key => s!"Cannot mutate immutable namespace {keyText key}"
  | .equals => "Expected '=' after a key in a key/value pair"
  | .keyPart => "Invalid initial character for a key part"
  | .openArray => "Unclosed array"
  | .openTable => "Unclosed inline table"
  | .duplicate key => s!"Duplicate inline table key {Text.quotedString key}"
  | .escape => "Unescaped '\\' in a string"
  | .code => "Invalid hex value"
  | .scalar => "Escaped character is not a Unicode scalar value"
  | .openString => "Unterminated string"
  | .moment => "Invalid date or datetime"
  | .value => "Invalid value"

/-- Why a text is no document; no place means its end. -/
inductive Fault
  | malformed (reason : Reason) (place : Option Text.Place)
  | integerTooLong (digits : Nat)
  deriving DecidableEq, Repr

def Fault.message : Fault → String
  | .malformed reason none => s!"{reason.message} (at end of document)"
  | .malformed reason (some place) =>
    s!"{reason.message} (at line {place.line}, column {place.column})"
  | .integerTooLong digits => Json.tooLong digits

/-- A reader's stop: a reason and what was left to read, or an integer beyond the limit. -/
inductive Stop
  | wrong (reason : Reason) (rest : List Char)
  | tooLong (digits : Nat)

/-- A reader takes characters off the front of a text. -/
abbrev Reader := StateT (List Char) (Except Stop)

def stop {α : Type} (reason : Reason) : Reader α := fun rest => .error (.wrong reason rest)

def stopAt {α : Type} (reason : Reason) (rest : List Char) : Reader α :=
  fun _ => .error (.wrong reason rest)

def skip (wanted : Char → Bool) : Reader Unit := modify (·.dropWhile wanted)

def advance (count : Nat) : Reader Unit := modify (·.drop count)

def takeRun (wanted : Char → Bool) : Reader (List Char) := do
  let chars ← get
  skip wanted
  return chars.takeWhile wanted

def startsWith (text : String) : Reader Bool := return text.toList.isPrefixOf (← get)

def isBlank (c : Char) : Bool := c = ' ' || c = '\t'

def isBlankOrBreak (c : Char) : Bool := isBlank c || c = '\n'

/-- A character that no line may hold as it is. -/
def isControl (c : Char) : Bool := (c.toNat < 0x20 && c != '\t') || c.toNat = 0x7f

/-- A character that no text of several lines may hold as it is. -/
def isControlInLines (c : Char) : Bool := isControl c && c != '\n'

def isKeyChar (c : Char) : Bool :=
  ('a' ≤ c && c ≤ 'z') || ('A' ≤ c && c ≤ 'Z') || ('0' ≤ c && c ≤ '9') || c = '-' || c = '_'

/-- The characters before the first place where `mark` stands; all of them if it stands nowhere. -/
def before (mark : List Char) : List Char → List Char
  | [] => []
  | c :: rest => if mark.isPrefixOf (c :: rest) then [] else c :: before mark rest

/-- Takes everything before `mark`, which has to come; it may hold no forbidden character. -/
def takeUntil (mark : String) (forbidden : Char → Bool) : Reader (List Char) := do
  let chars ← get
  let taken := before mark.toList chars
  if taken.length = chars.length then stopAt (.expected mark) []
  else
    match chars.dropWhile (!forbidden ·) with
    | c :: rest =>
      if chars.length - taken.length < (c :: rest).length then stopAt (.invalidCharacter c) (c :: rest)
    | [] => pure ()
    advance taken.length
    return taken

def skipComment : Reader Unit := do
  if ← startsWith "#" then
    skip fun c => !isControl c
    match ← get with
    | '\n' :: _ | [] => pure ()
    | c :: _ => stop (.invalidCharacter c)

/-- Skips blanks, line ends and comments. -/
def skipSpace : Nat → Reader Unit
  | 0 => pure ()
  | fuel + 1 => do
    skip isBlankOrBreak
    if ← startsWith "#" then
      skipComment
      skipSpace fuel

/-- Reads a text in single quotes on one line. -/
def literalText : Reader String := do
  advance 1
  let taken ← takeUntil "'" isControl
  advance 1
  return String.ofList taken

def codeCharacter (count : Nat) : Reader (List Char) := do
  let digits := (← get).take count
  if digits.length = count ∧ digits.all Source.isHexDigit then
    advance count
    let code := digits.foldl (fun value c => value * 16 + Source.hexValue c) 0
    if h : code.isValidChar then return [Char.ofNatAux code h] else stop .scalar
  else stop .code

def letterEscape? : Char → Option Char
  | 'b' => some '\x08'
  | 't' => some '\t'
  | 'n' => some '\n'
  | 'f' => some '\x0c'
  | 'r' => some '\r'
  | '"' => some '"'
  | '\\' => some '\\'
  | _ => none

/-- Reads an escape after its backslash. In a text of several lines a backslash at the end of a
line skips to the next character that is no blank. -/
def escape (inLines : Bool) : Reader (List Char) := do
  let chars ← get
  advance 1
  match chars with
  | 'u' :: _ => codeCharacter 4
  | 'U' :: _ => codeCharacter 8
  | c :: _ =>
    if inLines && isBlankOrBreak c then
      if c != '\n' then
        skip isBlank
        match ← get with
        | [] => return []
        | '\n' :: _ => advance 1
        | _ => stop .escape
      skip isBlankOrBreak
      return []
    else
      match letterEscape? c with
      | some c => return [c]
      | none => stop .escape
  | [] => stop .escape

/-- Reads a text in double quotes up to and with its closing quotes. -/
def basicText (inLines : Bool) : Nat → List Char → Reader (List Char)
  | 0, _ => stop .openString
  | fuel + 1, found => do
    match ← get with
    | [] => stop .openString
    | '"' :: rest =>
      if !inLines then
        set rest
        return found.reverse
      else if ['"', '"'].isPrefixOf rest then
        set (rest.drop 2)
        return found.reverse
      else
        set rest
        basicText inLines fuel ('"' :: found)
    | '\\' :: rest =>
      set rest
      let chars ← escape inLines
      basicText inLines fuel (chars.reverse ++ found)
    | c :: rest =>
      if (if inLines then isControlInLines c else isControl c) then stop (.illegalCharacter c)
      else
        set rest
        basicText inLines fuel (c :: found)

/-- Up to two quotes right after the closing ones still belong to the text. -/
def trailingQuotes (quote : Char) : Reader (List Char) := do
  let taken := ((← get).take 2).takeWhile (· = quote)
  advance taken.length
  return taken

def longText (quote : Char) : Reader String := do
  advance 3
  if ← startsWith "\n" then advance 1
  let chars ←
    if quote = '"' then basicText true ((← get).length + 1) []
    else do
      let taken ← takeUntil "'''" isControlInLines
      advance 3
      pure taken
  return String.ofList (chars ++ (← trailingQuotes quote))

/-- Reads a text in double quotes on one line. -/
def quotedText : Reader String := do
  advance 1
  return String.ofList (← basicText false ((← get).length + 1) [])

def keyPart : Reader String := do
  match ← get with
  | '\'' :: _ => literalText
  | '"' :: _ => quotedText
  | c :: _ => if isKeyChar c then return String.ofList (← takeRun isKeyChar) else stop .keyPart
  | [] => stop .keyPart

def keyRest : Nat → Reader Key
  | 0 => pure []
  | fuel + 1 => do
    skip isBlank
    if ← startsWith "." then
      advance 1
      skip isBlank
      let part ← keyPart
      return part :: (← keyRest fuel)
    else return []

/-- Reads a key: steps joined by points. -/
def key : Reader Key := do
  let part ← keyPart
  return part :: (← keyRest (← get).length)

/-- A number of exactly `count` digits from `low` to `high`. -/
def digits? (count low high : Nat) (chars : List Char) : Option (Nat × List Char) :=
  let digits := chars.take count
  let value := Json.digitsValue digits
  if digits.length = count && digits.all Char.isDigit && low ≤ value && value ≤ high then
    some (value, chars.drop count)
  else none

/-- What follows a character. -/
def after? (wanted : Char) : List Char → Option (List Char)
  | c :: rest => if c = wanted then some rest else none
  | [] => none

/-- A time of day. Of a fraction of a second six digits count. -/
def clock? (chars : List Char) : Option (Clock × List Char) := do
  let (hour, rest) ← digits? 2 0 23 chars
  let (minute, rest) ← digits? 2 0 59 (← after? ':' rest)
  let (second, rest) ← digits? 2 0 59 (← after? ':' rest)
  match Json.fraction rest with
  | ([], _) => return (⟨hour, minute, second, 0⟩, rest)
  | (digits, rest) =>
    let six := digits.take 6
    return (⟨hour, minute, second, Json.digitsValue six * Nat.pow 10 (6 - six.length)⟩, rest)

def zone? (chars : List Char) : Option (Int × List Char) :=
  match chars with
  | 'Z' :: rest | 'z' :: rest => some (0, rest)
  | sign :: rest => do
    guard (sign = '+' ∨ sign = '-')
    let (hours, rest) ← digits? 2 0 23 rest
    let (minutes, rest) ← digits? 2 0 59 (← after? ':' rest)
    let total : Int := 60 * hours + minutes
    return (if sign = '-' then -total else total, rest)
  | [] => none

def daysIn (year month : Nat) : Nat :=
  if month = 2 then if year % 4 = 0 ∧ (year % 100 ≠ 0 ∨ year % 400 = 0) then 29 else 28
  else if month ∈ [4, 6, 9, 11] then 30 else 31

/-- A date, perhaps with a time of day; it need not be one of the calendar. -/
def dated? (chars : List Char) : Option (Moment × List Char) := do
  let (year, rest) ← digits? 4 0 9999 chars
  let (month, rest) ← digits? 2 1 12 (← after? '-' rest)
  let (day, rest) ← digits? 2 1 31 (← after? '-' rest)
  let timed : Option (Moment × List Char) := do
    let mark ← rest.head?
    guard (mark = 'T' ∨ mark = 't' ∨ mark = ' ')
    let (clock, rest) ← clock? (rest.drop 1)
    match zone? rest with
    | some (zone, rest) => return (.dateTime year month day clock (some zone), rest)
    | none => return (.dateTime year month day clock none, rest)
  return timed.getD (.date year month day, rest)

def isOnCalendar : Moment → Bool
  | .date year month day | .dateTime year month day _ _ => 0 < year && day ≤ daysIn year month
  | .time _ => true

/-- Digits of a class, single underscores between them. -/
def spacedDigits (isDigit : Char → Bool) : List Char → List Char × List Char
  | '_' :: c :: rest =>
    if isDigit c then
      let (digits, left) := spacedDigits isDigit rest
      (c :: digits, left)
    else ([], '_' :: c :: rest)
  | c :: rest =>
    if isDigit c then
      let (digits, left) := spacedDigits isDigit rest
      (c :: digits, left)
    else ([], c :: rest)
  | [] => ([], [])

/-- A digit followed by further ones, single underscores between them. -/
def digitGroup (isDigit : Char → Bool) (chars : List Char) : List Char × List Char :=
  if chars.head? = some '_' then ([], chars) else spacedDigits isDigit chars

/-- An integer in base two, eight or sixteen. -/
def based? (chars : List Char) : Option (Nat × List Char) :=
  let read (base : Nat) (isDigit : Char → Bool) (rest : List Char) :=
    match digitGroup isDigit rest with
    | ([], _) => none
    | (digits, rest) => some (digits.foldl (fun value c => value * base + Source.hexValue c) 0, rest)
  match chars with
  | '0' :: 'x' :: rest => read 16 Source.isHexDigit rest
  | '0' :: 'o' :: rest => read 8 Source.isOctalDigit rest
  | '0' :: 'b' :: rest => read 2 (fun c => c = '0' || c = '1') rest
  | _ => none

/-- The exponent of a number, underscores between its digits. -/
def power? (chars : List Char) : Option (Int × List Char) :=
  match chars with
  | e :: rest =>
    if e = 'e' ∨ e = 'E' then
      let (negative, rest) := match rest with
        | '-' :: rest => (true, rest)
        | '+' :: rest => (false, rest)
        | rest => (false, rest)
      match digitGroup Char.isDigit rest with
      | ([], _) => none
      | (digits, rest) =>
        let value : Int := Json.digitsValue digits
        some (if negative then -value else value, rest)
    else none
  | [] => none

def number? {ε : Type} (chars : List Char) : Option (Except Stop (Value ε × List Char)) :=
  let (negative, unsigned) := match chars with
    | '-' :: rest => (true, rest)
    | '+' :: rest => (false, rest)
    | rest => (false, rest)
  let (whole, rest) := match unsigned with
    | '0' :: rest => (['0'], rest)
    | _ => digitGroup Char.isDigit unsigned
  if whole = [] then none
  else
    let (places, afterPlaces) := match rest with
      | '.' :: more =>
        match digitGroup Char.isDigit more with
        | ([], _) => ([], rest)
        | found => found
      | _ => ([], rest)
    match power? afterPlaces, places with
    | none, [] =>
      let value : Int := Json.digitsValue whole
      if Json.digitLimit < whole.length then some (.error (.tooLong whole.length))
      else some (.ok (.int (if negative then -value else value), rest))
    | scale, places =>
      let (power, rest) := scale.getD (0, afterPlaces)
      let value : Decimal := ⟨negative, Json.digitsValue (whole ++ places), power - places.length⟩
      some (.ok (.float (.finite value), rest))

def words {ε : Type} : List (List Char × Value ε) :=
  [("true".toList, .bool true), ("false".toList, .bool false)]

/-- The words that stand for a number; a sign may come before them. -/
def numberWords {ε : Type} : List (List Char × Value ε) :=
  [("inf".toList, .float (.infinite false)), ("+inf".toList, .float (.infinite false)),
   ("-inf".toList, .float (.infinite true)), ("nan".toList, .float .nan),
   ("+nan".toList, .float .nan), ("-nan".toList, .float .nan)]

def simpleValue {ε : Type} : Reader (Value ε) := do
  let chars ← get
  match words.find? fun word => word.1.isPrefixOf chars with
  | some (word, found) =>
    advance word.length
    return found
  | none =>
  match dated? chars with
  | some (moment, rest) =>
    if isOnCalendar moment then
      set rest
      return .moment moment
    else stop .moment
  | none =>
  match clock? chars with
  | some (clock, rest) =>
    set rest
    return .moment (.time clock)
  | none =>
  match based? chars with
  | some (value, rest) =>
    set rest
    return .int value
  | none =>
  match number? chars with
  | some (.ok (value, rest)) =>
    set rest
    return value
  | some (.error fault) => throw fault
  | none =>
  match numberWords.find? fun word => word.1.isPrefixOf chars with
  | some (word, found) =>
    advance word.length
    return found
  | none => stop .value

/-- Why a place in a table cannot be filled: something on the way is no table, or it is taken. -/
inductive Blocked
  | noTable
  | taken
  deriving DecidableEq, Repr

/-- Puts a value under a key that has none. -/
def addField {ε : Type} (name : String) (item : Value ε) (fields : List (String × Value ε)) :
    Except Blocked (List (String × Value ε)) :=
  if (fieldOf? name fields).isSome then .error .taken else .ok (fields ++ [(name, item)])

/-- Adds an empty table to the list under a key, which is made if there is none. -/
def addElement {ε : Type} (name : String) (fields : List (String × Value ε)) :
    Except Blocked (List (String × Value ε)) :=
  match fieldOf? name fields with
  | none => .ok (fields ++ [(name, .list [.table []])])
  | some (.list items) => .ok (setField name (.list (items ++ [.table []])) fields)
  | some _ => .error .noTable

/-- Changes the table at a path, making tables on the way. The last element stands for a list of
tables where `throughLists` is set. -/
def changeTable {ε : Type} (throughLists : Bool)
    (change : List (String × Value ε) → Except Blocked (List (String × Value ε))) :
    Key → List (String × Value ε) → Except Blocked (List (String × Value ε))
  | [], fields => change fields
  | step :: path, fields => do
    match fieldOf? step fields with
    | none => return setField step (.table (← changeTable throughLists change path [])) fields
    | some (.table inner) =>
      return setField step (.table (← changeTable throughLists change path inner)) fields
    | some (.list items) =>
      match items.getLast?, throughLists with
      | some (.table inner), true =>
        let changed ← changeTable throughLists change path inner
        return setField step (.list (items.dropLast ++ [.table changed])) fields
      | _, _ => .error .noTable
    | some _ => .error .noTable

/-- What a statement may no longer do to a part of the document. -/
inductive Mark
  | explicit
  | frozen
  deriving DecidableEq, Repr

/-- Marks on parts of a document; `deep` ones hold below the part too. -/
structure Marked where
  path : Key
  mark : Mark
  deep : Bool
  deriving DecidableEq, Repr

/-- The part has the mark, itself or from a part above it. -/
def hasMark (marks : List Marked) (path : Key) (mark : Mark) : Bool :=
  path != [] && marks.any fun marked =>
    marked.mark == mark && (marked.path == path || (marked.deep && marked.path.isPrefixOf path))

/-- The table is one of the values that a later statement may not extend. -/
def isNested {ε : Type} : Value ε → Bool
  | .table _ | .list _ => true
  | _ => false

mutual

def value {ε : Type} : Nat → Reader (Value ε)
  | 0 => stop .value
  | fuel + 1 => do
    match ← get with
    | '"' :: rest =>
      return .string (← if ['"', '"'].isPrefixOf rest then longText '"' else quotedText)
    | '\'' :: rest =>
      return .string (← if ['\'', '\''].isPrefixOf rest then longText '\'' else literalText)
    | '[' :: rest =>
      set rest
      skipSpace rest.length
      return .list (← elements fuel)
    | '\x7b' :: rest =>
      set rest
      skip isBlank
      if ← startsWith "\x7d" then
        advance 1
        return .table []
      else return .table (← inlineFields fuel [] [])
    | _ => simpleValue

def elements {ε : Type} : Nat → Reader (List (Value ε))
  | 0 => stop .openArray
  | fuel + 1 => do
    if ← startsWith "]" then
      advance 1
      return []
    else
      let item ← value fuel
      skipSpace (← get).length
      if ← startsWith "]" then
        advance 1
        return [item]
      else if ← startsWith "," then
        advance 1
        skipSpace (← get).length
        return item :: (← elements fuel)
      else stop .openArray

def pair {ε : Type} : Nat → Reader (Key × Value ε)
  | 0 => stop .keyPart
  | fuel + 1 => do
    let path ← key
    if ← startsWith "=" then
      advance 1
      skip isBlank
      return (path, ← value fuel)
    else stop .equals

def inlineFields {ε : Type} :
    Nat → List Marked → List (String × Value ε) → Reader (List (String × Value ε))
  | 0, _, _ => stop .openTable
  | fuel + 1, marks, found => do
    let (path, item) ← pair fuel
    let name := path.getLast?.getD ""
    if hasMark marks path .frozen then stop (.immutable path)
    else
      match changeTable false (addField name item) path.dropLast found with
      | .error .noTable => stop .overwrites
      | .error .taken => stop (.duplicate name)
      | .ok changed =>
        skip isBlank
        if ← startsWith "\x7d" then
          advance 1
          return changed
        else if ← startsWith "," then
          advance 1
          skip isBlank
          inlineFields fuel (if isNested item then ⟨path, .frozen, true⟩ :: marks else marks) changed
        else stop .openTable

end

/-- A document under construction. Pending marks hold from the next header on. -/
structure Document (ε : Type) where
  fields : List (String × Value ε) := []
  marks : List Marked := []
  pending : List Marked := []
  header : Key := []

/-- The whole paths of a dotted key's tables below the header. -/
def pathsOnTheWay (header path : Key) : List Key :=
  (List.range (path.length - 1)).map fun i => header ++ path.take (i + 1)

/-- Reads a key with its value and puts it into the document. -/
def readField {ε : Type} (document : Document ε) : Reader (Document ε) := do
  let (path, item) ← pair (2 * (← get).length + 4)
  let name := path.getLast?.getD ""
  let parent := document.header ++ path.dropLast
  let passed := pathsOnTheWay document.header path
  match passed.find? fun path => hasMark document.marks path .explicit with
  | some path => stop (.redefined path)
  | none =>
    if hasMark document.marks parent .frozen then stop (.immutable parent)
    else
      match changeTable true (addField name item) parent document.fields with
      | .error _ => stop .overwrites
      | .ok fields =>
        let frozen := if isNested item then [⟨document.header ++ path, .frozen, true⟩] else []
        return { document with
          fields
          marks := frozen ++ document.marks
          pending := passed.map (⟨·, .explicit, false⟩) ++ document.pending }

def readTable {ε : Type} (document : Document ε) : Reader (Document ε) := do
  advance 1
  skip isBlank
  let path ← key
  if hasMark document.marks path .explicit || hasMark document.marks path .frozen then
    stop (.declaredTwice path)
  else
    match changeTable true .ok path document.fields with
    | .error _ => stop .overwrites
    | .ok fields =>
      if ← startsWith "]" then
        advance 1
        return { document with
          fields, header := path, marks := ⟨path, .explicit, false⟩ :: document.marks }
      else stop .tableEnd

/-- Reads the header of a new element of a list of tables. What was marked below the list concerns
the element before. -/
def readElement {ε : Type} (document : Document ε) : Reader (Document ε) := do
  advance 2
  skip isBlank
  let path ← key
  if hasMark document.marks path .frozen then stop (.immutable path)
  else
    match changeTable true (addElement (path.getLast?.getD "")) path.dropLast document.fields with
    | .error _ => stop .overwrites
    | .ok fields =>
      if ← startsWith "]]" then
        advance 2
        let kept := document.marks.filter fun marked => !path.isPrefixOf marked.path
        return { document with
          fields, header := path, marks := ⟨path, .explicit, false⟩ :: kept }
      else stop .arrayEnd

def readStatement {ε : Type} (document : Document ε) : Reader (Document ε) := do
  match ← get with
  | '#' :: _ => return document
  | '[' :: rest =>
    let document := { document with marks := document.pending ++ document.marks, pending := [] }
    if rest.head? = some '[' then readElement document else readTable document
  | c :: _ =>
    if isKeyChar c || c = '"' || c = '\'' then readField document else stop .statement
  | [] => return document

def readLines {ε : Type} : Nat → Document ε → Reader (Document ε)
  | 0, document => return document
  | fuel + 1, document => do
    skip isBlank
    match ← get with
    | [] => return document
    | '\n' :: rest =>
      set rest
      readLines fuel document
    | _ =>
      let document ← readStatement document
      skip isBlank
      skipComment
      match ← get with
      | [] => return document
      | '\n' :: rest =>
        set rest
        readLines fuel document
      | _ => stop .lineEnd

/-- Every line end as one character. -/
def uniformLines : List Char → List Char
  | '\r' :: '\n' :: rest => '\n' :: uniformLines rest
  | c :: rest => c :: uniformLines rest
  | [] => []

/-- The table a document holds. -/
def parse {ε : Type} (text : String) : Except Fault (List (String × Value ε)) :=
  let chars := uniformLines text.toList
  match readLines (chars.length + 1) {} chars with
  | .ok (document, _) => .ok document.fields
  | .error (.tooLong digits) => .error (.integerTooLong digits)
  | .error (.wrong reason []) => .error (.malformed reason none)
  | .error (.wrong reason rest) => .error (.malformed reason (some (.of chars rest)))

end Bundler.Data.Toml
