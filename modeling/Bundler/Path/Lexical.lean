import Bundler.Text.Pieces

/-!
# Slash-separated texts

Operations on a path that is still a text: what its directory is, whether its last name has an
extension, and its normal form. Unlike `FilePath` the normal form removes `..` where it can.
-/

namespace Bundler.Lexical

/-- The last piece of a slash-separated text. -/
def lastName (text : List Char) : List Char := (Text.pieces '/' text).getLastD []

/-- The last name has a dot with something before it that is not a dot. -/
def hasExtension (text : List Char) : Bool :=
  ((lastName text).dropWhile (· == '.')).contains '.'

/-- The text before the last slash, without slashes at its end unless it has nothing else. -/
def directory (text : List Char) : List Char :=
  let upToSlash := (text.reverse.dropWhile (· != '/')).reverse
  if upToSlash.all (· == '/') then upToSlash
  else (upToSlash.reverse.dropWhile (· == '/')).reverse

/-- A text continued below a directory. -/
def join (directory text : List Char) : List Char :=
  if text.head? = some '/' then text
  else if directory = [] ∨ directory.getLast? = some '/' then directory ++ text
  else directory ++ '/' :: text

/-- The slashes a normal form starts with: two stay two, any other positive number becomes one. -/
def leadingSlashes : List Char → List Char
  | '/' :: '/' :: '/' :: _ => ['/']
  | '/' :: '/' :: _ => ['/', '/']
  | '/' :: _ => ['/']
  | _ => []

/-- Takes one step from the place reached so far, the last name first. A step up cancels a name; with
none to cancel it is kept, except at the root. -/
def walk (rooted : Bool) (place : List (List Char)) (name : List Char) : List (List Char) :=
  if name = [] ∨ name = ['.'] then place
  else if name ≠ ['.', '.'] then name :: place
  else
    match place with
    | [] => if rooted then [] else [name]
    | last :: above => if last = ['.', '.'] then name :: place else above

def normalNames (text : List Char) : List (List Char) :=
  ((Text.pieces '/' text).foldl (walk (text.head? == some '/')) []).reverse

/-- The shortest text with the same lexical meaning; `.` where nothing is left. -/
def normalise (text : List Char) : List Char :=
  match leadingSlashes text ++ Text.glue '/' (normalNames text) with
  | [] => ['.']
  | normal => normal

end Bundler.Lexical
