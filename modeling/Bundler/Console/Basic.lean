import Bundler.Console.Markup
import Bundler.Console.Wrap
import Bundler.Text.Pieces

/-!
# The console

Messages go through a logger to every handler attached to it. One handler is the console's own and
writes to the backend installed last; the others are foreign and stay as they are. The level under
which messages are dropped outlives a change of the backend. How wide the console is, and what the names in
messages mean, is given.
-/

namespace Bundler

/-- How important a message is. -/
inductive Level
  | debug
  | info
  | success
  | warning
  | error
  deriving DecidableEq, Repr

namespace Level

def number : Level → Nat
  | .debug => 10
  | .info => 20
  | .success => 25
  | .warning => 30
  | .error => 40

def name : Level → String
  | .debug => "DEBUG"
  | .info => "INFO"
  | .success => "SUCCESS"
  | .warning => "WARNING"
  | .error => "ERROR"

def sign : Level → String
  | .debug => ""
  | .info => "ℹ️  "
  | .success => "✅ "
  | .warning => "⚠️  "
  | .error => "❌ "

end Level

/-- What a logger hands its messages to. -/
inductive Handler
  | own (backend : Nat)
  | foreign (number : Nat)
  deriving DecidableEq, Repr

/-- A line that appeared on a backend. -/
structure ShownLine where
  backend : Nat
  text : String
  deriving DecidableEq, Repr

/-- The console: its columns and vocabulary, the backend in use, the number of the next one made, the
level it keeps, and the logger with its own level and handlers. -/
structure Console where
  width : Nat
  words : Console.Vocabulary
  backend : Nat
  nextBackend : Nat
  level : Nat
  threshold : Nat
  handlers : List Handler
  output : List ShownLine

namespace Console

def isOwn : Handler → Bool
  | .own _ => true
  | .foreign _ => false

/-- Attaches one handler for the backend in use, in the place of the ones attached before. -/
def attach (console : Console) : Console :=
  { console with
    threshold := console.level
    handlers := console.handlers.filter (!isOwn ·) ++ [.own console.backend] }

/-- A console on a logger that has foreign handlers already. Where its width is not given, it is one on
which no line of a usual length is broken. -/
def start (foreign : List Nat) (width : Nat := 1000) (words : Vocabulary := .standard) : Console :=
  attach ⟨width, words, 0, 1, Level.info.number, Level.warning.number, foreign.map .foreign, []⟩

/-- Writes to another backend from now on. -/
def install (console : Console) (backend : Nat) : Console :=
  attach { console with backend, nextBackend := max console.nextBackend (backend + 1) }

/-- Writes to a new backend of its own from now on, at the usual level. -/
def reset (console : Console) : Console :=
  attach { console with
    backend := console.nextBackend
    nextBackend := console.nextBackend + 1
    level := Level.info.number }

/-- Drops messages below a level from now on. -/
def setLevel (console : Console) (level : Nat) : Console :=
  { console with level, threshold := level }

/-- The handlers that get a message of a level. -/
def receivers (console : Console) (level : Nat) : List Handler :=
  if console.threshold ≤ level then console.handlers else []

def tabWidth : Nat := 8

/-- The line with spaces in the place of tabs; `column` is where it starts. -/
def expandTabs (column : Nat) : List Char → List Char
  | [] => []
  | '\t' :: rest =>
    let spaces := tabWidth - column % tabWidth
    List.replicate spaces ' ' ++ expandTabs (column + spaces) rest
  | c :: rest => c :: expandTabs (column + Text.cellsOf c) rest

def lines (text : List Char) : List (List Char) :=
  (Text.pieces '\n' (text.filter (!isDropped ·))).map (expandTabs 0)

/-- The lines of a shown text, none of them wider than some width. -/
def linesWithin (width : Nat) (text : List Char) : List (List Char) :=
  (lines text).flatMap (wrap width)

def trimEnd (line : List Char) : List Char := (line.reverse.dropWhile (· = ' ')).reverse

/-- The columns of the level's name. -/
def nameWidth : Nat := 9

/-- The lines of a log message: the level's name stands before the first one. -/
def logLines (console : Console) (level : Level) (message : String) : Except MarkupFault (List String) := do
  let text ← Console.shown console.words (level.sign ++ message)
  let name := level.name.toList ++ List.replicate (nameWidth - level.name.length) ' '
  let margin := List.replicate nameWidth ' '
  return (linesWithin (console.width - nameWidth) text).zipIdx.map fun (line, index) =>
    String.ofList (trimEnd ((if index = 0 then name else margin) ++ line))

def write (console : Console) (backend : Nat) (texts : List String) : Console :=
  { console with output := console.output ++ texts.map (⟨backend, ·⟩) }

/-- Hands a message to handlers one after the other. -/
def deliver (level : Level) (message : String) :
    List Handler → Console → Except MarkupFault Console
  | [], console => .ok console
  | .foreign _ :: rest, console => deliver level message rest console
  | .own backend :: rest, console => do
    let texts ← console.logLines level message
    deliver level message rest (console.write backend texts)

/-- Logs a message. A message below the level is not even looked at. -/
def log (console : Console) (level : Level) (message : String) : Except MarkupFault Console :=
  deliver level message (console.receivers level.number) console

/-- Prints a message without a level. -/
def print (console : Console) (message : String) : Except MarkupFault Console := do
  let text ← Console.shown console.words message
  return console.write console.backend
    ((linesWithin console.width text).map fun line => String.ofList (trimEnd line))

/-- One of several things printed together: a text with markup, a text as it is, or the written form
of something large, which stands on lines of its own. -/
inductive Printed
  | markup (text : String)
  | plain (text : String)
  | large (text : String)
  deriving DecidableEq, Repr

/-- What is shown of things printed together: texts with a blank between them, and what stands on
lines of its own. `line` is the text so far, if there is one. -/
def together (words : Vocabulary) (line : Option (List Char)) :
    List Printed → Except MarkupFault (List (List Char))
  | [] => .ok line.toList
  | .large text :: rest => do return line.toList ++ text.toList :: (← together words none rest)
  | .markup text :: rest => do
    let shown ← Console.shown words text
    together words (some (line.elim shown fun before => before ++ ' ' :: shown)) rest
  | .plain text :: rest =>
    together words (some (line.elim text.toList fun before => before ++ ' ' :: text.toList)) rest

/-- Prints several things together. -/
def printAll (console : Console) (things : List Printed) : Except MarkupFault Console := do
  let texts ← if things = [] then pure [[]] else together console.words none things
  return console.write console.backend
    (texts.flatMap fun text => (linesWithin console.width text).map fun line =>
      String.ofList (trimEnd line))

end Console
end Bundler
