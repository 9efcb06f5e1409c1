import Bundler.Fault.Basic

/-!
# Reports

A fault of bundling is reported under the name of its kind, with a wording and a few details. Reports
can also be made from a kind and its details alone, if there are neither too few nor too many.
-/

namespace Bundler

inductive ReportKind
  | bundle
  | config
  | read
  | write
  | notAModule
  | transform
  | load
  | unresolved
  | cycle
  deriving DecidableEq, Repr

namespace ReportKind

def all : List ReportKind :=
  [.bundle, .config, .read, .write, .notAModule, .transform, .load, .unresolved, .cycle]

def name : ReportKind → String
  | .bundle => "BundleError"
  | .config => "ConfigError"
  | .read => "FileReadError"
  | .write => "WriteError"
  | .notAModule => "ModuleSyntaxError"
  | .transform => "TransformError"
  | .load => "InvalidDependencyError"
  | .unresolved => "ResolutionError"
  | .cycle => "CyclicDependencyError"

def ofName? (name : String) : Option ReportKind := all.find? fun kind => kind.name == name

/-- The details that have to be given, and the number of those that may be left out; a kind without
such a form takes everything. -/
def details? : ReportKind → Option (List String × Nat)
  | .bundle | .config | .load => none
  | .read | .write => some (["path", "reason"], 0)
  | .notAModule => some (["identity", "reason"], 0)
  | .transform => some (["path", "rule", "reason"], 0)
  | .unresolved => some (["identity"], 2)
  | .cycle => some (["cycle"], 0)

end ReportKind

inductive Report
  | plain (kind : ReportKind) (text : String)
  | read (path reason : String)
  | write (path reason : String)
  | notAModule (identity : Identity) (reason : Option String)
  | transform (path rule reason : String)
  | unresolved (identity : Identity) (importer : Option Identity) (reason : String)
  | cycle (identities : List Identity)
  deriving DecidableEq, Repr

namespace Report

def kind : Report → ReportKind
  | .plain kind _ => kind
  | .read .. => .read
  | .write .. => .write
  | .notAModule .. => .notAModule
  | .transform .. => .transform
  | .unresolved .. => .unresolved
  | .cycle _ => .cycle

def message : Report → String
  | .plain _ text => text
  | .read path reason => s!"Cannot read '{path}': {reason}"
  | .write path reason => s!"Cannot write '{path}': {reason}"
  | .notAModule identity none => s!"Syntax error in {identity}"
  | .notAModule identity (some reason) => s!"Syntax error in {identity}: {reason}"
  | .transform path rule reason => s!"Rule '{rule}' failed on '{path}': {reason}"
  | .unresolved identity importer reason =>
    let location := match importer with
      | none | some "" => ""
      | some importer => s!" (required by {importer})"
    s!"Cannot resolve {identity}{location}: {reason}"
  | .cycle identities =>
    "Circular dependency detected: " ++ Text.joinWith " -> " identities

/-- The reason of a module that was not found. -/
def notFound : String := "file not found"

end Report

def BundleFault.report : BundleFault → Report
  | .config fault => .plain .config fault.message
  | .read path reason => .read path.toString reason.message
  | .write path fault => .write path.toString fault.message
  | .notAModule identity => .notAModule identity none
  | .load identity fault => .plain .load s!"{identity}: {fault.message}"
  | .transform path rule raised => .transform path.toString rule s!"{raised.kind}: {raised.shown}"
  | .unresolved identity importer => .unresolved identity importer Report.notFound
  | .outside path root => .unresolved path.toString none s!"outside the project root {root}"
  | .cycle identities => .cycle identities

def Failure.message : Failure → String
  | .bundle fault => fault.report.message
  | .raised cause => cause.message
  | .invalid record mistakes => mistakesHeading record mistakes
  | .relativeImport module =>
    "the 'package' argument is required to perform a relative import for "
      ++ Text.quotedString module
  | .hugeRepetition => Regex.Fault.hugeRepetition.message ""
  | .path fault => fault.message
  | .settingsNotText fault => fault.message
  | .settingsInteger fault => fault.message
  | .table fault => fault.message
  | .literal fault => fault.message
  | .shape fault => fault.message
  | .notOnStack identity => s!"{Text.quotedString identity} is not in list"
  | .template fault => fault.message
  | .markup fault => fault.message
  | .arguments fault => fault.message
  | .tooDeep => "maximum recursion depth exceeded"

/-- A detail of a report. -/
inductive Detail
  | nothing
  | text (text : String)
  | texts (list : List String)
  deriving DecidableEq, Repr

namespace Detail

def shown : Detail → String
  | .nothing => "None"
  | .text value => value
  | .texts list => "[" ++ Text.joinWith ", " (list.map Text.quotedString) ++ "]"

def quoted : Detail → String
  | .text value => Text.quotedString value
  | detail => detail.shown

def text? : Detail → Option String
  | .nothing => none
  | detail => some detail.shown

def texts? : Detail → List String
  | .texts list => list
  | .text value => value.toList.map Char.toString
  | .nothing => []

end Detail

/-- Too few or too many details. -/
inductive DetailFault
  | missing (kind : ReportKind) (names : List String)
  | tooMany (kind : ReportKind) (least most given : Nat)
  deriving DecidableEq, Repr

/-- Words as a list in a sentence. -/
def enumerated : List String → String
  | [] => ""
  | [word] => word
  | [first, second] => s!"{first} and {second}"
  | first :: second :: rest => first ++ ", " ++ later second rest
where
  /-- The words after the first one. -/
  later (word : String) : List String → String
    | [] => s!"and {word}"
    | next :: rest => word ++ ", " ++ later next rest

/-- The wording of a fault. The report itself counts as one that is given. -/
def DetailFault.message : DetailFault → String
  | .missing kind names =>
    let plural := if names.length = 1 then "" else "s"
    let list := enumerated (names.map Text.quotedString)
    s!"{kind.name}.__init__() missing {names.length} required positional argument{plural}: {list}"
  | .tooMany kind least most given =>
    let expected := if least = most then s!"{least + 1}" else s!"from {least + 1} to {most + 1}"
    s!"{kind.name}.__init__() takes {expected} positional arguments but {given + 1} were given"

namespace Report

def plainText : List Detail → String
  | [] => ""
  | [detail] => detail.shown
  | details => "(" ++ Text.joinWith ", " (details.map Detail.quoted) ++ ")"

/-- The report of a kind with details, whose number is right. -/
def fill (kind : ReportKind) (details : List Detail) : Report :=
  match kind, details with
  | .read, [path, reason] => .read path.shown reason.shown
  | .write, [path, reason] => .write path.shown reason.shown
  | .notAModule, [identity, reason] => .notAModule identity.shown (some reason.shown)
  | .transform, [path, rule, reason] => .transform path.shown rule.shown reason.shown
  | .unresolved, identity :: more =>
    .unresolved identity.shown ((more.head?.bind Detail.text?))
      ((more[1]?.map Detail.shown).getD notFound)
  | .cycle, [identities] => .cycle identities.texts?
  | kind, details => .plain kind (plainText details)

def make (kind : ReportKind) (details : List Detail) : Except DetailFault Report :=
  match kind.details? with
  | none => .ok (fill kind details)
  | some (names, optional) =>
    if details.length < names.length then .error (.missing kind (names.drop details.length))
    else if names.length + optional < details.length then
      .error (.tooMany kind names.length (names.length + optional) details.length)
    else .ok (fill kind details)

end Report
end Bundler
