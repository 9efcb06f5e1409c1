import Bundler.Source.Lexer

/-!
# Blocks from indentation

`layout` compares the indentation of each logical line with the blocks open at that point and marks
where blocks begin and end.
-/

namespace Bundler.Source

/-- An open block: the width of its indentation with tab stops every eight columns, the width with
every tab counted as one column, and the indentation itself. The two widths order lines alike
unless tabs and blanks are mixed. -/
structure Level where
  column : Nat
  narrow : Nat
  margin : List Char
  deriving DecidableEq, Repr

/-- The block of a module itself. -/
def Level.base : Level := ⟨0, 0, []⟩

/-- Both widths of an indentation; a form feed starts over. -/
def widths (indentation : List Char) : Nat × Nat :=
  indentation.foldl
    (fun (column, narrow) c =>
      if c = ' ' then (column + 1, narrow + 1)
      else if c = '\t' then ((column / 8 + 1) * 8, narrow + 1)
      else (0, 0))
    (0, 0)

/-- The number of blocks that may be open at once, the module itself included. -/
def maxLevels : Nat := 100

/-- The blocks left open by a line that is indented less, and how many it closes. -/
def closeLevels (column : Nat) : List Level → Nat × List Level
  | [] => (0, [])
  | level :: outer =>
    if column < level.column then
      let (count, left) := closeLevels column outer
      (count + 1, left)
    else (0, level :: outer)

/-- The block of the innermost level, or the module itself. -/
def innermost (levels : List Level) : Level := levels.headD Level.base

/-- A mark without text. -/
def mark (kind : TokenKind) : Token := ⟨kind, [], [], []⟩

/-- The marks a line's indentation calls for, and the blocks open in that line. -/
def indent (levels : List Level) (indentation : List Char) :
    Except LexicalFault (List Token × List Level) :=
  let (column, narrow) := widths indentation
  let top := innermost levels
  if column = top.column then
    if narrow = top.narrow then .ok ([], levels) else .error .inconsistentTabs
  else if top.column < column then
    if maxLevels ≤ levels.length then .error .tooDeep
    else if narrow ≤ top.narrow then .error .inconsistentTabs
    else .ok ([mark .indent], ⟨column, narrow, indentation⟩ :: levels)
  else
    let (count, left) := closeLevels column levels
    let top := innermost left
    if column ≠ top.column then .error .unknownDedent
    else if narrow ≠ top.narrow then .error .inconsistentTabs
    else .ok (List.replicate count (mark .dedent), left)

/-- The tokens of a sequence of lexemes, given the blocks open so far, innermost first. -/
def layoutFrom : List Level → List Lexeme → Except LexicalFault (List Token)
  | _, [] => .ok []
  | levels, lexeme :: rest =>
    if lexeme.kind = .finish then do
      let token : Token := ⟨lexeme.kind, lexeme.before, [], lexeme.text⟩
      return levels.map (fun _ => mark .dedent) ++ token :: (← layoutFrom [] rest)
    else
      match lexeme.indentation with
      | none => do
        return ⟨lexeme.kind, lexeme.before, [], lexeme.text⟩ :: (← layoutFrom levels rest)
      | some indentation => do
        let (marks, levels) ← indent levels indentation
        let token : Token :=
          ⟨lexeme.kind, lexeme.before, (innermost levels).margin, lexeme.text⟩
        return marks ++ token :: (← layoutFrom levels rest)

def tokens (chars : List Char) : Except LexicalFault (List Token) := do
  layoutFrom [] (← lexemes chars)

end Bundler.Source
