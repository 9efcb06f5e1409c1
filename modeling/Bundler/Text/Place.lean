/-!
# Places in a text

A reader that stops says what is left to read; `Place.of` turns that into the line and column
where it stopped.
-/

namespace Bundler.Text

/-- A place in a text. The offset counts from zero, lines and columns from one. -/
structure Place where
  offset : Nat
  line : Nat
  column : Nat
  deriving DecidableEq, Repr

/-- Where `rest`, the end of `text`, begins. -/
def Place.of (text rest : List Char) : Place :=
  let before := text.take (text.length - rest.length)
  { offset := before.length
    line := before.count '\n' + 1
    column := (before.reverse.takeWhile (· != '\n')).length + 1 }

end Bundler.Text
