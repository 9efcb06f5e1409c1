import Bundler.Text.Pieces

/-!
# Command lines

A command line names one of two commands, with options before and after it. An option may be spelled by
any beginning of its name that no other option has, its value may follow an equals sign, and short
options may be written together. After two dashes there are no options.
-/

namespace Bundler.Command

inductive Flag
  | help
  | version
  | entry
  | root
  | configDir
  | verbose
  | out
  | filename
  deriving DecidableEq, Repr

/-- How many values an option takes. -/
inductive Arity
  | none
  | one
  | some
  deriving DecidableEq, Repr

def Flag.arity : Flag → Arity
  | .help | .version | .verbose => .none
  | .entry => .some
  | .root | .configDir | .out | .filename => .one

abbrev Spellings := List (String × Flag)

def generalOptions : Spellings := [("-h", .help), ("--help", .help), ("--version", .version)]

def buildOptions : Spellings :=
  [("-h", .help), ("--help", .help), ("--entry", .entry), ("--root", .root),
   ("--config-dir", .configDir), ("-v", .verbose), ("--verbose", .verbose)]

def bundleOptions : Spellings := buildOptions ++ [("--out", .out), ("--filename", .filename)]

/-- A value in the same argument as its option: after an equals sign, or directly after the option. -/
inductive Attached
  | equals (text : String)
  | directly (text : String)
  deriving DecidableEq, Repr

/-- What an argument is taken for. -/
inductive Word
  | value
  | separator
  | option (flag : Option Flag) (spelling : String) (attached : Option Attached)
  deriving DecidableEq, Repr

def flagOf? (spellings : Spellings) (text : String) : Option Flag :=
  (spellings.find? (·.1 = text)).map (·.2)

def isDigits (chars : List Char) : Bool := chars != [] && chars.all Char.isDigit

/-- A number below zero is a value, not an option. -/
def isNegativeNumber : List Char → Bool
  | '-' :: rest =>
    isDigits rest ||
      match Text.cut? '.' rest with
      | some (whole, fraction) => whole.all Char.isDigit && isDigits fraction
      | none => false
  | _ => false

/-- The options an argument can be short for, each with a value written in the same argument. -/
def candidates (spellings : Spellings) (text : String) (name : String) (value : Option String) :
    List Word :=
  if text.startsWith "--" then
    (spellings.filter fun (spelling, _) => spelling.startsWith name).map fun (spelling, flag) =>
      .option (some flag) spelling (value.map .equals)
  else
    let short := String.ofList (text.toList.take 2)
    let rest := String.ofList (text.toList.drop 2)
    spellings.filterMap fun (spelling, flag) =>
      if spelling = short then some (.option (some flag) spelling (some (.directly rest)))
      else if spelling.startsWith text then some (.option (some flag) spelling none)
      else none

/-- The argument before and after its first equals sign. -/
def splitValue (text : String) : String × Option String :=
  match Text.cut? '=' text.toList with
  | some (name, value) => (String.ofList name, some (String.ofList value))
  | none => (text, none)

/-- What an argument is taken for, unless it could be several options. -/
def classify? (spellings : Spellings) (text : String) : Option Word :=
  if !text.startsWith "-" || text = "-" then some .value
  else
    match flagOf? spellings text with
    | some flag => some (.option (some flag) text none)
    | none =>
      let (name, value) := splitValue text
      match value, flagOf? spellings name with
      | some value, some flag => some (.option (some flag) name (some (.equals value)))
      | _, _ =>
        match candidates spellings text name value with
        | [word] => some word
        | _ :: _ :: _ => none
        | [] =>
          if isNegativeNumber text.toList || text.contains ' ' then some .value
          else some (.option none text none)

/-- What every argument is taken for. After two dashes everything is a value. -/
def classifyAll? (spellings : Spellings) : List String → Option (List (Word × String))
  | [] => some []
  | "--" :: rest => some ((.separator, "--") :: rest.map (.value, ·))
  | text :: rest => do
    let word ← classify? spellings text
    return (word, text) :: (← classifyAll? spellings rest)

structure Options where
  entries : Option (List String) := none
  root : Option String := none
  configDir : Option String := none
  verbose : Bool := false
  out : Option String := none
  filename : Option String := none
  deriving DecidableEq, Repr

/-- Why a command line leads to no command: it asks for something to be shown, or it is wrong. -/
inductive Stop
  | help
  | version
  | misuse
  deriving DecidableEq, Repr

def Options.take (options : Options) (flag : Flag) (values : List String) : Except Stop Options :=
  match flag with
  | .help => .error .help
  | .version => .error .version
  | .entry => .ok { options with entries := some values }
  | .root => .ok { options with root := values.head? }
  | .configDir => .ok { options with configDir := values.head? }
  | .verbose => .ok { options with verbose := true }
  | .out => .ok { options with out := values.head? }
  | .filename => .ok { options with filename := values.head? }

/-- What an option and what is attached to it give: options with their values, and whether something
belongs to no option. -/
abbrev Taken := List (Flag × List String) × Bool

/-- The short options written together with one that takes no value. -/
def together (spellings : Spellings) (flag : Flag) : List Char → Except Stop Taken
  | [] => .ok ([(flag, [])], false)
  | '=' :: _ | '-' :: _ => .error .misuse
  | c :: rest =>
    match flagOf? spellings (String.ofList ['-', c]) with
    | none => .ok ([(flag, [])], true)
    | some other => (together spellings other rest).map fun (taken, stray) =>
        ((flag, []) :: taken, stray)

/-- What an option and what is attached to it give. -/
def attachedTo (spellings : Spellings) (flag : Flag) (spelling : String) (attached : Attached) :
    Except Stop Taken :=
  match flag.arity, attached with
  | .none, .equals _ => .error .misuse
  | .none, .directly text =>
    if spelling.startsWith "--" then .error .misuse else together spellings flag text.toList
  | _, .equals text | _, .directly text => .ok ([(flag, [text])], false)

/-- The values for an option among the words after it, and the words left. -/
def valuesFor (flag : Flag) (words : List (Word × String)) :
    Except Stop (List String × List (Word × String)) :=
  match flag.arity with
  | .none => .ok ([], words)
  | .one =>
    match words with
    | (.value, text) :: rest => .ok ([text], rest)
    | _ => .error .misuse
  | .some =>
    let values := words.takeWhile (·.1 = .value)
    if values = [] then .error .misuse else .ok (values.map (·.2), words.drop values.length)

def Options.takeAll (options : Options) : List (Flag × List String) → Except Stop Options
  | [] => .ok options
  | (flag, values) :: rest => do (← options.take flag values).takeAll rest

/-- Reads the options of a command. Anything that belongs to no option makes the command line wrong,
but only at its end. The number bounds the words left. -/
def readOptions (spellings : Spellings) : Nat → List (Word × String) → Bool → Options →
    Except Stop (Bool × Options)
  | 0, _, strays, options => .ok (strays, options)
  | _, [], strays, options => .ok (strays, options)
  | left + 1, (word, _) :: rest, strays, options =>
    match word with
    | .value | .separator | .option none .. => readOptions spellings left rest true options
    | .option (some flag) spelling (some attached) => do
      let (taken, stray) ← attachedTo spellings flag spelling attached
      readOptions spellings left rest (strays || stray) (← options.takeAll taken)
    | .option (some flag) _ none => do
      let (values, rest) ← valuesFor flag rest
      readOptions spellings left rest strays (← options.take flag values)

/-- Reads the arguments of a command: whether some belong to nothing, and the options. -/
def readArguments (spellings : Spellings) (arguments : List String) : Except Stop (Bool × Options) :=
  match classifyAll? spellings arguments with
  | none => .error .misuse
  | some words => readOptions spellings words.length words false {}

inductive Name
  | bundle
  | graph
  deriving DecidableEq, Repr

def command? : String → Option (Name × Spellings)
  | "bundle" => some (.bundle, bundleOptions)
  | "graph" => some (.graph, buildOptions)
  | _ => none

def readCommand : List (Word × String) → Bool → Except Stop (Name × Options)
  | [], _ => .error .misuse
  | (word, text) :: rest, strays =>
    match word with
    | .separator => .error .misuse
    | .value =>
      match command? text with
      | none => .error .misuse
      | some (name, spellings) => do
        let (more, options) ← readArguments spellings (rest.map (·.2))
        if strays || more then .error .misuse else .ok (name, options)
    | .option none .. => readCommand rest true
    | .option (some flag) spelling (some attached) => do
      let (taken, stray) ← attachedTo generalOptions flag spelling attached
      discard (({} : Options).takeAll taken)
      readCommand rest (strays || stray)
    | .option (some flag) .. => do
      discard (({} : Options).take flag [])
      readCommand rest strays

def parse (arguments : List String) : Except Stop (Name × Options) :=
  match classifyAll? generalOptions arguments with
  | none => .error .misuse
  | some words => readCommand words false

end Bundler.Command
