/-!
# Tokens of a module

A token keeps every character of the module that it is responsible for: its own text and the blanks,
comments and blank lines before it. Two views of a token are used. `Lexeme.written` is what the module
says there; `Token.shown` is what a module printed from its tokens says. They differ in one place:
the indentation of a line is shown as the indentation of the block the line belongs to.
-/

namespace Bundler.Source

/-- What a token is, before the grammar looks at it. A formatted string is a start, pieces of text,
the tokens of its fields, and an end. -/
inductive TokenKind
  | name
  | number
  | string
  | operator
  | newline
  | indent
  | dedent
  | formatStart
  | formatText
  | formatEnd
  | finish
  deriving DecidableEq, Repr

/-- A token as it stands in the text. The indentation is there for the first token of a logical line
only. -/
structure Lexeme where
  kind : TokenKind
  before : List Char
  indentation : Option (List Char)
  text : List Char
  deriving DecidableEq, Repr

/-- The characters of the module this lexeme stands for. -/
def Lexeme.written (lexeme : Lexeme) : List Char :=
  lexeme.before ++ lexeme.indentation.getD [] ++ lexeme.text

/-- A token as the grammar sees it. -/
structure Token where
  kind : TokenKind
  before : List Char
  margin : List Char
  text : List Char
  deriving DecidableEq, Repr

def Token.shown (token : Token) : List Char := token.before ++ token.margin ++ token.text

def shownText (tokens : List Token) : List Char := tokens.flatMap Token.shown

@[simp] theorem shownText_nil : shownText [] = [] := rfl

@[simp] theorem shownText_cons (token : Token) (rest : List Token) :
    shownText (token :: rest) = token.shown ++ shownText rest := rfl

@[simp] theorem shownText_append (left right : List Token) :
    shownText (left ++ right) = shownText left ++ shownText right := by
  simp [shownText]

/-- Why a text has no tokens. -/
inductive LexicalFault
  | unterminatedString
  | malformedNumber
  | malformedName
  | strayCharacter (c : Char)
  | unmatchedBracket
  | danglingBackslash
  | inconsistentTabs
  | unknownDedent
  | tooDeep
  | exhausted
  deriving DecidableEq, Repr

end Bundler.Source
