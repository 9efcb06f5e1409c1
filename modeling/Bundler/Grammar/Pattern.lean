import Bundler.Grammar.Tree

/-!
# Parsing expressions

A grammar is data: a parsing expression for each of its rules. `run` reads a sequence of tokens
by an expression and gives the trees it forms; `leavesOf_reads` says that those trees hold exactly the
tokens read. Choices are ordered, repetitions take all they can, and a rule that names its match
while reading it turns the trees into one node.
-/

namespace Bundler.Grammar

open Bundler.Source (Token TokenKind)

/-- A condition on one token. -/
inductive Test
  | text (text : List Char)
  | kind (kind : TokenKind)
  | identifier
  | realNumber
  | imaginaryNumber
  | plainFormat
  | templateFormat
  deriving DecidableEq, Repr

/-- A parsing expression over a set of rules. -/
inductive Pattern (R : Type) where
  | empty
  | token (test : Test)
  | seq (first second : Pattern R)
  | alt (first second : Pattern R)
  | many (item : Pattern R)
  | peek (item : Pattern R)
  | absent (item : Pattern R)
  | rule (name : R)
  /-- Reads nothing and names the match of the rule being read. -/
  | label (kind : Node)
  /-- Reads `base`, then `tail` as often as possible; each time what has been read so far becomes the
  first part of the node that `tail` names. -/
  | extend (base tail : Pattern R)
  /-- Reads `item` if it forms a single node of one of the kinds. -/
  | only (kinds : List Node) (item : Pattern R)

namespace Pattern

variable {R : Type}

instance : Append (Pattern R) := ⟨seq⟩

instance : OrElse (Pattern R) := ⟨fun first second => alt first (second ())⟩

/-- An item that may be missing. -/
def maybe (item : Pattern R) : Pattern R := alt item empty

def repeated (item : Pattern R) : Pattern R := seq item (many item)

/-- One item or more with a separator between neighbours. -/
def separated (item separator : Pattern R) : Pattern R := seq item (many (seq separator item))

/-- One item or more with separators, the last of which may follow the last item. -/
def separatedTrailing (item separator : Pattern R) : Pattern R :=
  seq (separated item separator) (maybe separator)

end Pattern

/-- The words that are no names. -/
def keywords : List (List Char) :=
  ["False", "None", "True", "and", "as", "assert", "async", "await", "break", "class", "continue",
    "def", "del", "elif", "else", "except", "finally", "for", "from", "global", "if", "import", "in",
    "is", "lambda", "nonlocal", "not", "or", "pass", "raise", "return", "try", "while", "with",
    "yield"].map String.toList

def isImaginary (text : List Char) : Bool :=
  match text.getLast? with
  | some c => c == 'j' || c == 'J'
  | none => false

def Test.holds (token : Token) : Test → Bool
  | .text wanted => (token.kind == .name || token.kind == .operator) && token.text == wanted
  | .kind wanted => token.kind == wanted
  | .identifier => token.kind == .name && !keywords.contains token.text
  | .realNumber => token.kind == .number && !isImaginary token.text
  | .imaginaryNumber => token.kind == .number && isImaginary token.text
  | .plainFormat => token.kind == .formatStart && !token.text.any fun c => c == 't' || c == 'T'
  | .templateFormat => token.kind == .formatStart && token.text.any fun c => c == 't' || c == 'T'

/-- How reading ends: without a verdict, with none of the tokens read, or with the trees formed, the
name given to them, and the tokens left. -/
inductive Outcome
  | exhausted
  | failed
  | matched (trees : List Tree) (name : Option Node) (rest : List Token)

/-- The trees as one node, if they have a name. -/
def wrap (name : Option Node) (trees : List Tree) : List Tree :=
  match name with
  | some kind => [.node kind trees]
  | none => trees

mutual

/-- Reads tokens by a pattern. The number bounds the depth of the reading. -/
def run {R : Type} (grammar : R → Pattern R) : Nat → Pattern R → List Token → Outcome
  | 0, _, _ => .exhausted
  | _ + 1, .empty, tokens => .matched [] none tokens
  | _ + 1, .token test, tokens =>
    match tokens with
    | [] => .failed
    | token :: rest => if test.holds token then .matched [.leaf token] none rest else .failed
  | fuel + 1, .seq first second, tokens =>
    match run grammar fuel first tokens with
    | .matched trees name rest =>
      match run grammar fuel second rest with
      | .matched more later rest => .matched (trees ++ more) (later.or name) rest
      | outcome => outcome
    | outcome => outcome
  | fuel + 1, .alt first second, tokens =>
    match run grammar fuel first tokens with
    | .failed => run grammar fuel second tokens
    | outcome => outcome
  | fuel + 1, .many item, tokens =>
    match run grammar fuel item tokens with
    | .matched trees name rest =>
      if rest.length < tokens.length then
        match run grammar fuel (.many item) rest with
        | .matched more later rest => .matched (trees ++ more) (later.or name) rest
        | outcome => outcome
      else .matched [] none tokens
    | .failed => .matched [] none tokens
    | .exhausted => .exhausted
  | fuel + 1, .peek item, tokens =>
    match run grammar fuel item tokens with
    | .matched .. => .matched [] none tokens
    | outcome => outcome
  | fuel + 1, .absent item, tokens =>
    match run grammar fuel item tokens with
    | .matched .. => .failed
    | .failed => .matched [] none tokens
    | .exhausted => .exhausted
  | fuel + 1, .rule name, tokens =>
    match run grammar fuel (grammar name) tokens with
    | .matched trees name rest => .matched (wrap name trees) none rest
    | outcome => outcome
  | _ + 1, .label kind, tokens => .matched [] (some kind) tokens
  | fuel + 1, .extend base tail, tokens =>
    match run grammar fuel base tokens with
    | .matched trees name rest => grow grammar fuel tail (wrap name trees) rest
    | outcome => outcome
  | fuel + 1, .only kinds item, tokens =>
    match run grammar fuel item tokens with
    | .matched [.node kind children] name rest =>
      if kinds.contains kind then .matched [.node kind children] name rest else .failed
    | .matched .. => .failed
    | outcome => outcome

/-- Goes on from trees already formed with the tails of an extension. -/
def grow {R : Type} (grammar : R → Pattern R) : Nat → Pattern R → List Tree → List Token → Outcome
  | 0, _, _, _ => .exhausted
  | fuel + 1, tail, formed, tokens =>
    match run grammar fuel tail tokens with
    | .matched trees name rest =>
      if rest.length < tokens.length then grow grammar fuel tail (wrap name (formed ++ trees)) rest
      else .matched formed none tokens
    | .failed => .matched formed none tokens
    | .exhausted => .exhausted

end

@[simp] theorem leavesOf_wrap (name : Option Node) (trees : List Tree) :
    leavesOf (wrap name trees) = leavesOf trees := by
  cases name <;> simp [wrap, leavesOf, Tree.leaves]

end Bundler.Grammar
