import Bundler.Text.Pieces
import Bundler.Text.Ranges

/-!
# Blank characters

The characters that count as white space around a text (Unicode 14.0 and the four information
separators). Indented text loses the margin that all its lines share. Lines of blanks alone have no say in it
and become empty.
-/

namespace Bundler.Text

def blankRanges : Ranges :=
  [(9, 13), (28, 32), (133, 133), (160, 160), (5760, 5760), (8192, 8202), (8232, 8233),
   (8239, 8239), (8287, 8287), (12288, 12288)]

def isBlank (c : Char) : Bool := blankRanges.has c

/-- The text without blank characters at either end. -/
def strip (text : List Char) : List Char :=
  ((text.dropWhile isBlank).reverse.dropWhile isBlank).reverse

def isMarginChar (c : Char) : Bool := c = ' ' || c = '\t'

/-- The longest common beginning of two texts. -/
def commonStart : List Char → List Char → List Char
  | a :: as, b :: bs => if a = b then a :: commonStart as bs else []
  | _, _ => []

def marginOf (lines : List (List Char)) : List Char :=
  match (lines.filter (· ≠ [])).map (·.takeWhile isMarginChar) with
  | [] => []
  | first :: rest => rest.foldl commonStart first

def dropMargin (margin line : List Char) : List Char :=
  if margin.isPrefixOf line then line.drop margin.length else line

/-- The text without its margin. -/
def dedent (text : List Char) : List Char :=
  let lines := (pieces '\n' text).map fun line => if line.all isMarginChar then [] else line
  glue '\n' (lines.map (dropMargin (marginOf lines)))

end Bundler.Text
