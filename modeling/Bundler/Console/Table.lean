import Bundler.Console.Basic

/-!
# Tables

A table has a centred title, a row of headings and a body. The cells hold markup. A column is as wide
as its widest cell where the console has room for that; otherwise the widest columns give way until the
table fits, and what no longer has room in a cell is broken at its words and cut. Widths are counted in
terminal cells.
-/

namespace Bundler

structure Table where
  title : String
  headings : List String
  rows : List (List String)
  deriving DecidableEq, Repr

namespace Table

/-! ### Widths -/

/-- A character behind which a text goes on in a new line when its width is measured. -/
def endsLine (c : Char) : Bool :=
  c = '\n' || c = '\x1c' || c = '\x1d' || c = '\x1e' || c = '\x85' || c = '\u2028' || c = '\u2029'

/-- The cells of the widest line of a text; `best` is the widest one so far, and `current` what was read of
the next one. -/
def widestFrom (best current : Nat) : List Char → Nat
  | [] => max best current
  | c :: rest =>
    if endsLine c then widestFrom (max best current) 0 rest else widestFrom best (current + Text.cellsOf c) rest

/-- The cells of the widest line of a shown text. -/
def widthOf (text : List Char) : Nat := widestFrom 0 0 (text.filter (!Console.isDropped ·))

def padding : Nat := 2

/-- The columns that the cells of a column take, blanks included. -/
def natural (cells : List (List Char)) : Nat := (cells.map widthOf).foldl max 0 + padding

/-- The width of a column that may take up some room. Where there is none for a text between the blanks, it
takes all there is. -/
def measured (room : Nat) (cells : List (List Char)) : Nat :=
  if room ≤ padding then room else min (natural cells) room

/-- The quotient to the nearest number, an even one if two are equally near. -/
def nearest (amount parts : Nat) : Nat :=
  let quotient := amount / parts
  let rest := 2 * (amount % parts)
  if rest < parts ∨ rest = parts ∧ quotient % 2 = 0 then quotient else quotient + 1

/-- Takes an amount in even shares from the widths that are the widest, at most `most` from each; `count` of
them are left. -/
def shrunk (widest most : Nat) : Nat → Nat → List Nat → List Nat
  | _, _, [] => []
  | amount, count, width :: rest =>
    if width = widest then
      let taken := min most (nearest amount count)
      (width - taken) :: shrunk widest most (amount - taken) (count - 1) rest
    else width :: shrunk widest most amount count rest

/-- The widths put together. -/
def total (widths : List Nat) : Nat := widths.foldr (· + ·) 0

/-- Takes from the widest columns, down to the next widest at a time, until the widths have room. The first
number bounds the turns. -/
def collapsed (room : Nat) : Nat → List Nat → List Nat
  | 0, widths => widths
  | turns + 1, widths =>
    let excess := total widths - room
    if excess = 0 then widths
    else
      let widest := widths.foldl max 0
      let second := (widths.filter (· ≠ widest)).foldl max 0
      collapsed room turns
        (shrunk widest (min excess (widest - second)) excess (widths.count widest) widths)

/-- The widths of columns that have some room together. -/
def widthsWithin (room : Nat) (columns : List (List (List Char))) : List Nat :=
  let widths := columns.map fun cells => max 1 (measured room cells)
  if total widths ≤ room then widths
  else (columns.zip (collapsed room (total widths) widths)).map fun (cells, width) => measured width cells

def borders (columns : Nat) : Nat := columns + 1

/-! ### Lines -/

def cellLines (width : Nat) (text : List Char) : List (List Char) :=
  if width ≤ padding then [] else (Console.lines text).flatMap (Console.clipped (width - padding))

/-- A line in a column of some width, with a blank at each end. -/
def padded (width : Nat) (line : List Char) : List Char :=
  ' ' :: line ++ List.replicate (width - padding - Text.cells line) ' ' ++ [' ']

def border (left between right fill : Char) (widths : List Nat) : List Char :=
  left :: Text.glue between (widths.map fun width => List.replicate width fill) ++ [right]

/-- The lines of a row: as many as its highest cell has. Those of a heading stand at the bottom. -/
def rowLines (bar : Char) (bottom : Bool) (widths : List Nat) (cells : List (List Char)) : List (List Char) :=
  let columns := (cells.zip widths).map fun (text, width) => (width, cellLines width text)
  let height := (columns.map (·.2.length)).foldl max 1
  (List.range height).map fun index =>
    bar :: columns.flatMap fun (width, lines) =>
      let above := if bottom then height - lines.length else 0
      let line := if index < above then none else lines[index - above]?
      line.elim (List.replicate width ' ') (padded width) ++ [bar]

def titleLines (title : String) (width : Nat) : List (List Char) :=
  (Console.linesWithin width title.toList).map fun line =>
    let line := Console.withoutEndBlanks line
    List.replicate ((width - Text.cells line) / 2) ' ' ++ line

/-- The lines of a table on a console of some width, from the texts in its columns, the heading first. -/
def drawn (width : Nat) (title : String) (columns : List (List (List Char))) : List String :=
  let widths := widthsWithin (width - borders columns.length) columns
  let row (bar : Char) (bottom : Bool) (index : Nat) :=
    rowLines bar bottom widths (columns.map fun cells => cells.getD index [])
  let height := (columns.map (·.length)).foldl max 0
  let body := (List.range (height - 1)).flatMap fun index => row '│' false (index + 1)
  let all := titleLines title (total widths + borders columns.length) ++ border '┏' '┳' '┓' '━' widths
    :: row '┃' true 0 ++ border '┡' '╇' '┩' '━' widths :: body ++ [border '└' '┴' '┘' '─' widths]
  all.map fun line => String.ofList (Console.fitting width line)

/-- What the columns of a table show, each from its heading down. -/
def columns (words : Console.Vocabulary) (table : Table) :
    Except Console.MarkupFault (List (List (List Char))) :=
  table.headings.zipIdx.mapM fun (heading, index) =>
    (heading :: table.rows.map fun row => row.getD index "").mapM (Console.shown words)

def lines (words : Console.Vocabulary) (width : Nat) (table : Table) :
    Except Console.MarkupFault (List String) := do
  return drawn width table.title (← table.columns words)

end Table
end Bundler
