import Bundler.Console.Vocabulary
import Bundler.Text.Blank

/-!
# Console markup

A message may hold tags in square brackets: `[bold]` opens a style, `[/bold]` closes it and `[/]`
closes the one opened last. What appears on the console is the message without its tags, and with
emoji in the place of their names. A backslash before a tag makes it plain text. Closing a style
that is not open is a fault, and so is closing a handler whose parameters are wrong.
-/

namespace Bundler.Console

/-- Why a message cannot be shown. -/
inductive MarkupFault
  | notOpen (tag : String) (position : Nat)
  | nothingOpen (position : Nat)
  | handler (message : String)
  deriving DecidableEq, Repr

def MarkupFault.message : MarkupFault → String
  | .notOpen tag position =>
    s!"closing tag '[{tag}]' at position {position} doesn't match any open tag"
  | .nothingOpen position => s!"closing tag '[/]' at position {position} has nothing to close"
  | .handler message => message

/-- A piece of a message: text, or the inside of a tag; with the place where it starts. -/
inductive Piece
  | text (chars : List Char)
  | tag (position : Nat) (inside : List Char)
  deriving DecidableEq, Repr

/-- A tag begins with one of these characters. -/
def startsTag (c : Char) : Bool := ('a' ≤ c && c ≤ 'z') || c = '#' || c = '/' || c = '@'

/-- The inside of the tag that starts after an opening bracket, and what follows it. -/
def tagAfter? (chars : List Char) : Option (List Char × List Char) :=
  match chars with
  | c :: _ =>
    if startsTag c then
      let inside := chars.takeWhile fun c => c != '[' && c != ']'
      match chars.drop inside.length with
      | ']' :: rest => some (inside, rest)
      | _ => none
    else none
  | [] => none

/-- The backslashes, the inside and the rest of a tag that starts here. -/
def tag? (chars : List Char) : Option (Nat × List Char × List Char) :=
  let slashes := chars.takeWhile (· = '\\')
  match chars.drop slashes.length with
  | '[' :: rest => (tagAfter? rest).map fun (inside, left) => (slashes.length, inside, left)
  | _ => none

/-- The pieces of a message. `text` is what was read since the last tag, backwards. -/
def pieces : Nat → Nat → List Char → List Char → List Piece
  | 0, _, text, _ => [.text text.reverse]
  | fuel + 1, position, text, chars =>
    match chars with
    | [] => [.text text.reverse]
    | c :: rest =>
      match tag? chars with
      | none => pieces fuel (position + 1) (c :: text) rest
      | some (slashes, inside, left) =>
        let next := position + slashes + inside.length + 2
        let literal := List.replicate (slashes / 2) '\\'
        if slashes % 2 = 1 then
          .text text.reverse :: .text literal :: .text ('[' :: inside ++ [']'])
            :: pieces fuel next [] left
        else
          .text text.reverse :: .text literal :: .tag (position + slashes) inside
            :: pieces fuel next [] left

/-- A tag that is open: the form by which its name is compared, and what follows an equals sign. -/
structure OpenTag where
  name : String
  parameters : List Char
  deriving DecidableEq, Repr

/-- Text in which an escaped bracket stands for a bracket. -/
def plain : List Char → List Char
  | '\\' :: '[' :: rest => '[' :: plain rest
  | c :: rest => c :: plain rest
  | [] => []

/-- The last open tag with a name, and those that stay open after it is closed. -/
def take? (wanted : String) : List OpenTag → Option (OpenTag × List OpenTag)
  | [] => none
  | tag :: rest =>
    if tag.name = wanted then some (tag, rest)
    else (take? wanted rest).map fun (found, others) => (found, tag :: others)

/-- The tag that is closed by one with a name after its slash, and those that stay open. Without a name it
is the last one. -/
def closing? (words : Vocabulary) (name : List Char) (tags : List OpenTag) :
    Option (OpenTag × List OpenTag) :=
  if Text.strip name = [] then tags.head?.map fun tag => (tag, tags.tail) else take? (words.style name) tags

/-- The fault of a closing tag that closes none. -/
def unclosable (position : Nat) (inside name : List Char) : MarkupFault :=
  if Text.strip name = [] then .nothingOpen position else .notOpen (String.ofList inside) position

/-- The tag that a name opens; `inside` is all that stands between the brackets. -/
def openedBy (words : Vocabulary) (inside name : List Char) : OpenTag :=
  ⟨words.style name, (inside.dropWhile (· != '=')).drop 1⟩

/-- What is wrong with a tag when it is closed: the parameters of a handler are looked at only then. -/
def OpenTag.fault? (words : Vocabulary) (tag : OpenTag) : Option String :=
  if tag.name.toList.head? = some '@' ∧ tag.parameters ≠ [] then words.handler tag.parameters else none

/-- The text of pieces, with the tags that are open before them, the last one first. -/
def strip (words : Vocabulary) : List OpenTag → List Piece → Except MarkupFault (List Char)
  | _, [] => .ok []
  | tags, .text chars :: rest => do return withEmoji words (plain chars) ++ (← strip words tags rest)
  | tags, .tag position inside :: rest =>
    match inside.takeWhile (· != '=') with
    | '/' :: name =>
      match closing? words name tags with
      | none => .error (unclosable position inside name)
      | some (closed, left) =>
        match closed.fault? words with
        | some message => .error (.handler message)
        | none => strip words left rest
    | name => strip words (openedBy words inside name :: tags) rest

def shown (words : Vocabulary) (message : String) : Except MarkupFault (List Char) :=
  if message.toList.contains '[' then
    strip words [] (pieces (message.length + 1) 0 [] message.toList)
  else .ok (withEmoji words message.toList)

/-- A message that shows the text as it is: every tag in it is escaped. -/
def escapeTags : Nat → List Char → List Char
  | 0, _ => []
  | fuel + 1, chars =>
    match chars with
    | [] => []
    | c :: rest =>
      match tag? chars with
      | none => c :: escapeTags fuel rest
      | some (slashes, inside, left) =>
        List.replicate (2 * slashes + 1) '\\' ++ '[' :: inside ++ ']' :: escapeTags fuel left

/-- A message that shows the text as it is. A single backslash at the end is doubled. -/
def escape (text : String) : String :=
  let escaped := escapeTags (text.length + 1) text.toList
  match escaped.reverse with
  | '\\' :: '\\' :: _ => String.ofList escaped
  | '\\' :: _ => String.ofList (escaped ++ ['\\'])
  | _ => String.ofList escaped

end Bundler.Console
