import Bundler.Text.Blank
import Bundler.Text.Cells

/-!
# Wrapping

A line wider than the room for it is broken before a word that has no room left. A word takes the blanks
after it along, and these may stick out: what sticks out is cut off. A word wider than the room is
cut into pieces that fill it (`wrap`); in a table it stands on a line of its own and loses its end to an
ellipsis (`clipped`). Widths are counted in terminal cells.
-/

namespace Bundler.Console

/-- The words of a text, each with the blanks after it, the first one also with those before it. The
number bounds the words. -/
def wordsOf : Nat → List Char → List (List Char)
  | 0, _ => []
  | left + 1, text =>
    let start := text.takeWhile Text.isBlank
    let rest := text.drop start.length
    let body := rest.takeWhile (!Text.isBlank ·)
    let blanks := (rest.drop body.length).takeWhile Text.isBlank
    if body = [] then []
    else (start ++ body ++ blanks) :: wordsOf left (rest.drop (body.length + blanks.length))

def withoutEndBlanks (text : List Char) : List Char :=
  (text.reverse.dropWhile Text.isBlank).reverse

/-- The pieces of a text that each fill a width. `piece` is the one in progress, backwards, and
`used` its cells. -/
def chopped (width : Nat) (piece : List Char) (used : Nat) : List Char → List (List Char)
  | [] => [piece.reverse]
  | c :: rest =>
    if width < used + Text.cellsOf c then
      piece.reverse :: chopped width [c] (Text.cellsOf c) rest
    else chopped width (c :: piece) (used + Text.cellsOf c) rest

/-- The lines of words. `line` is the one in progress and `used` its cells; `split` cuts a word that is
wider than a line. -/
def linesOfWords (width : Nat) (split : List Char → List (List Char)) (line : List Char) (used : Nat) :
    List (List Char) → List (List Char)
  | [] => [line]
  | word :: rest =>
    let needed := Text.cells (withoutEndBlanks word)
    if used + needed ≤ width then
      linesOfWords width split (line ++ word) (used + Text.cells word) rest
    else
      let before := if line = [] then [] else [line]
      if width < needed then
        let pieces := split word
        let last := pieces.getLastD []
        before ++ pieces.dropLast ++ linesOfWords width split last (Text.cells last) rest
      else before ++ linesOfWords width split word (Text.cells word) rest

/-- Drops blanks at the end as long as there are more characters than the width. -/
def dropExcess (width : Nat) (line : List Char) : List Char :=
  let blanks := line.length - (withoutEndBlanks line).length
  line.take (line.length - min blanks (line.length - width))

def fitting (width : Nat) : List Char → List Char
  | [] => []
  | c :: rest =>
    if width < Text.cellsOf c then [] else c :: fitting (width - Text.cellsOf c) rest

/-- The lines of a line broken at its words; what sticks out of them is still there. -/
def broken (width : Nat) (split : List Char → List (List Char)) (line : List Char) : List (List Char) :=
  let words := wordsOf line.length line
  let lines := if words = [] then [line] else linesOfWords width split [] 0 words
  lines.map (dropExcess width)

/-- The lines that a line takes up on a console of some width. -/
def wrap (width : Nat) (line : List Char) : List (List Char) :=
  (broken width (chopped width [] 0) line).map (fitting width)

/-- The line, or as much of it as leaves room for an ellipsis if it is too wide. A wide character that has
room for its first half alone leaves a blank. -/
def clip (width : Nat) (line : List Char) : List Char :=
  if Text.cells line ≤ width then line
  else
    let kept := if width ≤ 1 then [] else fitting (width - 1) line
    kept ++ List.replicate (width - 1 - Text.cells kept) ' ' ++ ['…']

/-- The lines that a line takes up in a column of some width. -/
def clipped (width : Nat) (line : List Char) : List (List Char) :=
  (broken width (fun word => [word]) line).map (clip width)

end Bundler.Console
