import Bundler.Template.Token

/-!
# The structure of a template

A template is a sequence of texts, printed expressions, loops, choices and assignments. `parse` reads
it from the tokens.
-/

namespace Bundler.Template

inductive Expr
  | text (value : String)
  | integer (value : Nat)
  | truth (value : Bool)
  | nothing
  | variable (name : String)
  | list (items : List Expr)
  | tuple (items : List Expr)
  | dict (entries : List (Expr × Expr))
  | attribute (of : Expr) (name : String)
  | item (of key : Expr)
  | call (function : Expr) (arguments : List Expr)
  | filter (of : Expr) (name : String) (arguments : List Expr)
  | test (of : Expr) (name : String) (arguments : List Expr)
  | negate (of : Expr)
  | minus (of : Expr)
  | both (left right : Expr)
  | either (left right : Expr)
  | binary (operator : String) (left right : Expr)
  | compare (first : Expr) (others : List (String × Expr))
  | choice (condition yes : Expr) (no : Option Expr)

inductive Node
  | data (text : List Char)
  | print (value : Expr)
  | loop (targets : List String) (alone : Bool) (source : Expr) (body otherwise : List Node)
  | choose (condition : Expr) (yes no : List Node)
  | assign (targets : List String) (alone : Bool) (value : Expr)

/-- The name of the token that comes next, or of the end. -/
def nextShown : List Token → String
  | [] => "end of template"
  | token :: _ => token.shown

/-- Takes a token that has to come next. -/
def expect (wanted : Token) : List Token → Except Fault (List Token)
  | [] => .error (.unexpectedEnd wanted.shown)
  | token :: rest =>
    if token = wanted then .ok rest else .error (.expectedToken wanted.shown token.shown)

def comparison? : List Token → Option (String × List Token)
  | .symbol mark :: rest =>
    if mark ∈ ["==", "!=", "<", "<=", ">", ">="] then some (mark, rest) else none
  | .name "in" :: rest => some ("in", rest)
  | .name "not" :: .name "in" :: rest => some ("not in", rest)
  | _ => none

/-- The operators of a level, from the loosest to the tightest. -/
def operators : Nat → List String
  | 0 => ["+", "-"]
  | 1 => ["~"]
  | 2 => ["*", "/", "//", "%"]
  | _ => ["**"]

/-- The operator of a level that comes next. -/
def operator? (level : Nat) : List Token → Option (String × List Token)
  | .symbol mark :: rest => if mark ∈ operators level then some (mark, rest) else none
  | _ => none

/-- The end of a mark, or the end of the part before a word. -/
def endsTuple (stop : Option String) : List Token → Bool
  | [] => false
  | .closePrint :: _ | .closeStatement :: _ | .symbol ")" :: _ => true
  | .name word :: _ => stop = some word
  | _ => false

def filterNames : List String :=
  ["pyrepr", "join", "upper", "lower", "length", "count", "default", "d", "first", "last", "list",
   "string", "trim", "replace", "reverse", "sort", "items", "escape", "e", "safe", "int"]

def testNames : List String :=
  ["defined", "undefined", "none", "string", "number", "mapping", "iterable", "sequence", "even",
   "odd", "in", "true", "false", "boolean", "integer", "eq", "equalto", "ne"]

mutual

/-- Reads an expression: a value, perhaps with a condition under which it is taken. -/
def expression : Nat → List Token → Except Fault (Expr × List Token)
  | 0, tokens => .error (.unexpected (nextShown tokens))
  | fuel + 1, tokens => do
    let (value, rest) ← disjunction fuel tokens
    conditional fuel value rest

/-- Reads the condition of a value, if one comes. -/
def conditional : Nat → Expr → List Token → Except Fault (Expr × List Token)
  | fuel + 1, value, .name "if" :: rest => do
    let (condition, rest) ← disjunction fuel rest
    match rest with
    | .name "else" :: rest =>
      let (other, rest) ← expression fuel rest
      return (.choice condition value (some other), rest)
    | rest => conditional fuel (.choice condition value none) rest
  | _, value, tokens => .ok (value, tokens)

def disjunction : Nat → List Token → Except Fault (Expr × List Token)
  | 0, tokens => .error (.unexpected (nextShown tokens))
  | fuel + 1, tokens => do
    let (left, rest) ← conjunction fuel tokens
    match rest with
    | .name "or" :: rest =>
      let (right, rest) ← disjunction fuel rest
      return (.either left right, rest)
    | rest => return (left, rest)

def conjunction : Nat → List Token → Except Fault (Expr × List Token)
  | 0, tokens => .error (.unexpected (nextShown tokens))
  | fuel + 1, tokens => do
    let (left, rest) ← negation fuel tokens
    match rest with
    | .name "and" :: rest =>
      let (right, rest) ← conjunction fuel rest
      return (.both left right, rest)
    | rest => return (left, rest)

/-- Reads a comparison, perhaps negated. -/
def negation : Nat → List Token → Except Fault (Expr × List Token)
  | 0, tokens => .error (.unexpected (nextShown tokens))
  | fuel + 1, .name "not" :: rest => do
    let (value, rest) ← negation fuel rest
    return (.negate value, rest)
  | fuel + 1, tokens => do
    let (first, rest) ← binary fuel 0 tokens
    let (others, rest) ← comparisons fuel rest
    return (if others.isEmpty then first else .compare first others, rest)

/-- Reads the comparisons after a first value. -/
def comparisons : Nat → List Token → Except Fault (List (String × Expr) × List Token)
  | 0, tokens => .ok ([], tokens)
  | fuel + 1, tokens =>
    match comparison? tokens with
    | none => .ok ([], tokens)
    | some (operator, rest) => do
      let (value, rest) ← binary fuel 0 rest
      let (others, rest) ← comparisons fuel rest
      return ((operator, value) :: others, rest)

/-- Reads values joined by the operators of a level. -/
def binary : Nat → Nat → List Token → Except Fault (Expr × List Token)
  | 0, _, tokens => .error (.unexpected (nextShown tokens))
  | fuel + 1, level, tokens => do
    let (left, rest) ← if level < 4 then binary fuel (level + 1) tokens else unary fuel true tokens
    if level < 4 then binaryRest fuel level left rest else return (left, rest)

/-- Reads the further values of a level; they group to the left. -/
def binaryRest : Nat → Nat → Expr → List Token → Except Fault (Expr × List Token)
  | 0, _, left, tokens => .ok (left, tokens)
  | fuel + 1, level, left, tokens =>
    match operator? level tokens with
    | none => .ok (left, tokens)
    | some (operator, rest) => do
      let (right, rest) ← binary fuel (level + 1) rest
      binaryRest fuel level (.binary operator left right) rest

/-- Reads a value with its signs before it and what is applied to it after it. -/
def unary : Nat → Bool → List Token → Except Fault (Expr × List Token)
  | 0, _, tokens => .error (.unexpected (nextShown tokens))
  | fuel + 1, filtered, tokens => do
    let (value, rest) ← match tokens with
      | .symbol "-" :: rest => do
        let (value, rest) ← unary fuel false rest
        pure (.minus value, rest)
      | .symbol "+" :: rest => unary fuel false rest
      | tokens => primary fuel tokens
    applied fuel filtered value rest

/-- Reads a value that stands alone. -/
def primary : Nat → List Token → Except Fault (Expr × List Token)
  | 0, tokens => .error (.unexpected (nextShown tokens))
  | fuel + 1, tokens =>
    match tokens with
    | .name "true" :: rest | .name "True" :: rest => .ok (.truth true, rest)
    | .name "false" :: rest | .name "False" :: rest => .ok (.truth false, rest)
    | .name "none" :: rest | .name "None" :: rest => .ok (.nothing, rest)
    | .name name :: rest => .ok (.variable name, rest)
    | .literal value :: .literal next :: rest => primary fuel (.literal (value ++ next) :: rest)
    | .literal value :: rest => .ok (.text value, rest)
    | .integer value :: rest => .ok (.integer value, rest)
    | .symbol "(" :: .symbol ")" :: rest => .ok (.tuple [], rest)
    | .symbol "(" :: rest => do
      let (value, rest) ← tuple fuel none rest
      return (value, ← expect (.symbol ")") rest)
    | .symbol "[" :: rest => do
      let (items, rest) ← expressions fuel (.symbol "]") rest
      return (.list items, rest)
    | .symbol "\x7b" :: rest => do
      let (entries, rest) ← entries fuel rest
      return (.dict entries, rest)
    | tokens => .error (.unexpected (nextShown tokens))

/-- Reads expressions with commas between them up to a closing bracket. -/
def expressions : Nat → Token → List Token → Except Fault (List Expr × List Token)
  | 0, closing, tokens => .error (.expectedToken closing.shown (nextShown tokens))
  | fuel + 1, closing, tokens =>
    if tokens.head? = some closing then .ok ([], tokens.drop 1)
    else do
      let (first, rest) ← expression fuel tokens
      match rest with
      | .symbol "," :: rest =>
        let (others, rest) ← expressions fuel closing rest
        return (first :: others, rest)
      | rest => return ([first], ← expect closing rest)

def entries : Nat → List Token → Except Fault (List (Expr × Expr) × List Token)
  | 0, tokens => .error (.expectedToken "\x7d" (nextShown tokens))
  | fuel + 1, tokens =>
    if tokens.head? = some (.symbol "\x7d") then .ok ([], tokens.drop 1)
    else do
      let (key, rest) ← expression fuel tokens
      let (value, rest) ← expression fuel (← expect (.symbol ":") rest)
      match rest with
      | .symbol "," :: rest =>
        let (others, rest) ← entries fuel rest
        return ((key, value) :: others, rest)
      | rest => return ([(key, value)], ← expect (.symbol "\x7d") rest)

/-- Reads one expression, or several with commas between them as a tuple. -/
def tuple : Nat → Option String → List Token → Except Fault (Expr × List Token)
  | 0, _, tokens => .error (.expectedExpression (nextShown tokens))
  | fuel + 1, stop, tokens =>
    if endsTuple stop tokens then .error (.expectedExpression (nextShown tokens))
    else do
      let (first, rest) ← expression fuel tokens
      match rest with
      | .symbol "," :: rest =>
        let (others, rest) ← tupleRest fuel stop rest
        return (.tuple (first :: others), rest)
      | rest => return (first, rest)

def tupleRest : Nat → Option String → List Token → Except Fault (List Expr × List Token)
  | 0, _, tokens => .ok ([], tokens)
  | fuel + 1, stop, tokens =>
    if endsTuple stop tokens then .ok ([], tokens)
    else do
      let (first, rest) ← expression fuel tokens
      match rest with
      | .symbol "," :: rest =>
        let (others, rest) ← tupleRest fuel stop rest
        return (first :: others, rest)
      | rest => return ([first], rest)

/-- Reads what is applied to a value: attributes, items, calls, filters and tests. -/
def applied : Nat → Bool → Expr → List Token → Except Fault (Expr × List Token)
  | 0, _, value, tokens => .ok (value, tokens)
  | fuel + 1, filtered, value, tokens =>
    match tokens with
    | .symbol "." :: .name name :: rest => applied fuel filtered (.attribute value name) rest
    | .symbol "." :: .integer key :: rest => applied fuel filtered (.item value (.integer key)) rest
    | .symbol "." :: rest => .error (.expectedToken "name" (nextShown rest))
    | .symbol "[" :: rest => do
      let (key, rest) ← expression fuel rest
      applied fuel filtered (.item value key) (← expect (.symbol "]") rest)
    | .symbol "(" :: rest => do
      let (arguments, rest) ← expressions fuel (.symbol ")") rest
      applied fuel filtered (.call value arguments) rest
    | .symbol "|" :: rest =>
      if !filtered then .ok (value, tokens)
      else
        match rest with
        | .name name :: rest => do
          if !filterNames.contains name then .error (.noFilter name)
          let (arguments, rest) ← match rest with
            | .symbol "(" :: rest => expressions fuel (.symbol ")") rest
            | rest => pure ([], rest)
          applied fuel filtered (.filter value name arguments) rest
        | rest => .error (.expectedToken "name" (nextShown rest))
    | .name "is" :: rest =>
      if !filtered then .ok (value, tokens)
      else do
        let (negated, rest) := match rest with
          | .name "not" :: rest => (true, rest)
          | rest => (false, rest)
        match rest with
        | .name name :: rest =>
          if !testNames.contains name then .error (.noTest name)
          let (arguments, rest) ← match rest with
            | .symbol "(" :: rest => expressions fuel (.symbol ")") rest
            | rest => pure ([], rest)
          let found : Expr := .test value name arguments
          applied fuel filtered (if negated then .negate found else found) rest
        | rest => .error (.expectedToken "name" (nextShown rest))
    | _ => .ok (value, tokens)

end

/-- The names an assignment gives a value to; `alone` where there is one without a comma. -/
def targets : List Token → Except Fault ((List String × Bool) × List Token)
  | .name name :: .symbol "," :: rest =>
    match rest with
    | .name "in" :: _ => .ok (([name], false), rest)
    | _ => do
      let ((others, _), rest) ← targets rest
      return ((name :: others, false), rest)
  | .name name :: rest => .ok (([name], true), rest)
  | tokens => .error (.unexpected (nextShown tokens))

/-- The statements that no part below reads. -/
def otherTags : List String :=
  ["block", "extends", "print", "macro", "include", "from", "import", "with", "autoescape", "call",
   "filter"]

/-- The words that end the part being read, those that end the parts around it, and the statements
still open, the innermost first. -/
structure Open where
  wanted : List String
  all : List String
  tags : List String

/-- The parts read inside a statement that ends with one of these words. -/
def Open.enter (outer : Open) (tag : String) (wanted : List String) : Open :=
  ⟨wanted, wanted ++ outer.all, tag :: outer.tags⟩

def closeStatement (tokens : List Token) : Except Fault (List Token) :=
  match tokens with
  | .symbol ":" :: rest => expect .closeStatement rest
  | tokens => expect .closeStatement tokens

mutual

/-- Reads parts up to one of the wanted words, which is left, or up to the end. -/
def parts : Nat → Open → List Token → Except Fault (List Node × List Token)
  | 0, _, tokens => .ok ([], tokens)
  | fuel + 1, around, tokens =>
    match tokens with
    | [] =>
      if around.wanted = [] then .ok ([], [])
      else .error (.unknownTag none around.wanted around.all around.tags.head?)
    | .data text :: rest => do
      let (others, rest) ← parts fuel around rest
      return (.data text :: others, rest)
    | .openPrint :: rest => do
      let (value, rest) ← tuple (rest.length * 16 + 16) none rest
      let rest ← expect .closePrint rest
      let (others, rest) ← parts fuel around rest
      return (.print value :: others, rest)
    | .openStatement :: .name word :: rest =>
      if around.wanted.contains word then .ok ([], .name word :: rest)
      else do
        let (part, rest) ← statement fuel around word rest
        let (others, rest) ← parts fuel around rest
        return (part :: others, rest)
    | .openStatement :: _ => .error .noTagName
    | _ :: _ => .error (.unexpected (nextShown tokens))

/-- Reads a statement after its first word. -/
def statement : Nat → Open → String → List Token → Except Fault (Node × List Token)
  | 0, around, word, _ => .error (.unknownTag (some word) around.wanted around.all around.tags.head?)
  | fuel + 1, around, word, tokens =>
    let size := tokens.length * 16 + 16
    if word = "for" then do
      let ((names, alone), rest) ← targets tokens
      let rest ← expect (.name "in") rest
      if endsTuple none rest then .error (.expectedExpression (nextShown rest))
      let (source, rest) ← disjunction size rest
      let rest ← closeStatement rest
      let (body, rest) ← parts fuel (around.enter "for" ["endfor", "else"]) rest
      match rest with
      | .name "else" :: rest =>
        let rest ← closeStatement rest
        let (otherwise, rest) ← parts fuel (around.enter "for" ["endfor"]) rest
        return (.loop names alone source body otherwise, ← expect .closeStatement (rest.drop 1))
      | rest => return (.loop names alone source body [], ← expect .closeStatement (rest.drop 1))
    else if word = "if" then choice fuel around tokens
    else if word = "set" then do
      let ((names, alone), rest) ← targets tokens
      let (value, rest) ← tuple size none (← expect (.symbol "=") rest)
      return (.assign names alone value, ← expect .closeStatement rest)
    else if otherTags.contains word then .error (.unsupported word)
    else .error (.unknownTag (some word) around.wanted around.all around.tags.head?)

def choice : Nat → Open → List Token → Except Fault (Node × List Token)
  | 0, _, tokens => .error (.unexpected (nextShown tokens))
  | fuel + 1, around, tokens => do
    if endsTuple none tokens then .error (.expectedExpression (nextShown tokens))
    let (condition, rest) ← disjunction (tokens.length * 16 + 16) tokens
    let rest ← closeStatement rest
    let (yes, rest) ← parts fuel (around.enter "if" ["elif", "else", "endif"]) rest
    match rest with
    | .name "elif" :: rest =>
      let (no, rest) ← choice fuel around rest
      return (.choose condition yes [no], rest)
    | .name "else" :: rest =>
      let rest ← closeStatement rest
      let (no, rest) ← parts fuel (around.enter "if" ["endif"]) rest
      return (.choose condition yes no, ← expect .closeStatement (rest.drop 1))
    | rest => return (.choose condition yes [], ← expect .closeStatement (rest.drop 1))

end

def parse (text : List Char) : Except Fault (List Node) := do
  let tokens ← tokens text
  let (parts, _) ← parts (tokens.length + 1) ⟨[], [], []⟩ tokens
  return parts

end Bundler.Template
