import Bundler.Template.Parse
import Bundler.Text.Case

/-!
# Rendering a template

Expressions are evaluated over the variables in scope. A variable without a value counts as an empty
text; only going on from it, to an attribute or a call, is a fault.
-/

namespace Bundler.Template

/-- A value in a template. -/
inductive Item
  | undefined (message : String)
  | nothing
  | truth (value : Bool)
  | integer (value : Int)
  | text (value : String)
  | list (items : List Item)
  | tuple (items : List Item)
  | dict (entries : List (Item × Item))
  | loop (fields : List (String × Item))
  | method (of : Item) (name : String)

namespace Item

mutual

def shown : Item → String
  | .undefined _ => "Undefined"
  | .nothing => "None"
  | .truth value => if value then "True" else "False"
  | .integer value => toString value
  | .text value => Text.quotedString value
  | .list items => "[" ++ Text.joinWith ", " (shownItems items) ++ "]"
  | .tuple [item] => "(" ++ shown item ++ ",)"
  | .tuple items => "(" ++ Text.joinWith ", " (shownItems items) ++ ")"
  | .dict entries => "\x7b" ++ Text.joinWith ", " (shownEntries entries) ++ "\x7d"
  | .loop _ => "<LoopContext>"
  | .method _ name => "<method " ++ name ++ ">"

def shownItems : List Item → List String
  | [] => []
  | item :: rest => shown item :: shownItems rest

def shownEntries : List (Item × Item) → List String
  | [] => []
  | (key, value) :: rest => (shown key ++ ": " ++ shown value) :: shownEntries rest

end

/-- The text that stands for a value. -/
def written : Item → String
  | .undefined _ => ""
  | .text value => value
  | item => item.shown

/-- A value as a condition. -/
def holds : Item → Bool
  | .undefined _ | .nothing => false
  | .truth value => value
  | .integer value => value != 0
  | .text value => value != ""
  | .list items | .tuple items => !items.isEmpty
  | .dict entries => !entries.isEmpty
  | .loop _ | .method .. => true

def typeName : Item → String
  | .undefined _ => "Undefined"
  | .nothing => "NoneType"
  | .truth _ => "bool"
  | .integer _ => "int"
  | .text _ => "str"
  | .list _ => "list"
  | .tuple _ => "tuple"
  | .dict _ => "dict"
  | .loop _ => "LoopContext"
  | .method .. => "builtin_function_or_method"

mutual

def same : Item → Item → Bool
  | .undefined _, .undefined _ | .nothing, .nothing => true
  | .truth a, .truth b => a == b
  | .integer a, .integer b => a == b
  | .truth a, .integer b | .integer b, .truth a => (if a then 1 else 0) == b
  | .text a, .text b => a == b
  | .list a, .list b | .tuple a, .tuple b => sameItems a b
  | _, _ => false

def sameItems : List Item → List Item → Bool
  | [], [] => true
  | a :: as, b :: bs => same a b && sameItems as bs
  | _, _ => false

end

def elements : Item → Except Fault (List Item)
  | .undefined _ => .ok []
  | .text value => .ok (value.toList.map fun c => .text c.toString)
  | .list items | .tuple items => .ok items
  | .dict entries => .ok (entries.map (·.1))
  | item => .error (.type s!"'{item.typeName}' object is not iterable")

def count : Item → Except Fault Nat
  | .undefined _ => .ok 0
  | .text value => .ok value.length
  | .list items | .tuple items => .ok items.length
  | .dict entries => .ok entries.length
  | item => .error (.type s!"object of type '{item.typeName}' has no len()")

def entry? (key : Item) (entries : List (Item × Item)) : Option Item :=
  (entries.find? fun entry => same entry.1 key).map (·.2)

/-- The value at an index of a sequence; negative ones count from the end. -/
def at? (items : List Item) (index : Int) : Option Item :=
  if index < 0 then
    if items.length < index.natAbs then none else items[items.length - index.natAbs]?
  else items[index.toNat]?

/-- The methods that values have. -/
def hasMethod : Item → String → Bool
  | .dict _, name => ["items", "keys", "values", "get"].contains name
  | .text _, name => ["upper", "lower", "strip", "startswith", "endswith", "replace"].contains name
  | _, _ => false

/-- The fault message for an attribute that a value lacks. -/
def lacks (item : Item) (name : String) : Item :=
  .undefined s!"'{item.typeName} object' has no attribute {Text.quotedString name}"

def part (item key : Item) : Except Fault Item :=
  match item, key with
  | .undefined message, _ => .error (.undefined message)
  | .dict entries, key =>
    match entry? key entries, key with
    | some value, _ => .ok value
    | none, .text name => .ok (if item.hasMethod name then .method item name else item.lacks name)
    | none, key => .ok (.undefined s!"dict object has no element {key.shown}")
  | .list items, .integer index | .tuple items, .integer index =>
    .ok ((at? items index).getD (.undefined s!"{item.typeName} object has no element {index}"))
  | .text value, .integer index =>
    .ok ((at? (value.toList.map fun c => .text c.toString) index).getD
      (.undefined s!"str object has no element {index}"))
  | .loop fields, .text name => .ok ((fields.lookup name).getD (item.lacks name))
  | item, .text name => .ok (if item.hasMethod name then .method item name else item.lacks name)
  | item, key => .ok (.undefined s!"{item.typeName} object has no element {key.shown}")

/-- The attribute of a value; a method comes before an entry of a dictionary. -/
def member (item : Item) (name : String) : Except Fault Item :=
  if item.hasMethod name then .ok (.method item name) else item.part (.text name)

end Item

/-- The variables in scope, inner ones first. -/
abbrev Scope := List (String × Item)

/-- A text without anything that a markup language could read as a mark. -/
def escapeMarkup (text : List Char) : List Char :=
  text.flatMap fun c =>
    match c with
    | '&' => "&amp;".toList
    | '<' => "&lt;".toList
    | '>' => "&gt;".toList
    | '"' => "&#34;".toList
    | '\'' => "&#39;".toList
    | c => [c]

def replaceAll (old new text : String) : String := new.intercalate (text.splitOn old)

def callMethod (item : Item) (name : String) (arguments : List Item) : Except Fault Item :=
  match item, name, arguments with
  | .dict entries, "items", [] => .ok (.list (entries.map fun entry => .tuple [entry.1, entry.2]))
  | .dict entries, "keys", [] => .ok (.list (entries.map (·.1)))
  | .dict entries, "values", [] => .ok (.list (entries.map (·.2)))
  | .dict entries, "get", [key] => .ok ((Item.entry? key entries).getD .nothing)
  | .dict entries, "get", [key, other] => .ok ((Item.entry? key entries).getD other)
  | .text value, "upper", [] => .ok (.text (String.ofList (Text.upperCase value.toList)))
  | .text value, "lower", [] => .ok (.text (String.ofList (Text.lowerCase value.toList)))
  | .text value, "strip", [] => .ok (.text (String.ofList (Text.strip value.toList)))
  | .text value, "startswith", [.text start] => .ok (.truth (start.toList.isPrefixOf value.toList))
  | .text value, "endswith", [.text finish] => .ok (.truth (finish.toList.isSuffixOf value.toList))
  | .text value, "replace", [.text old, .text new] => .ok (.text (replaceAll old new value))
  | item, name, arguments =>
    .error (.type s!"{item.typeName}.{name}() does not take {arguments.length} arguments")

def less (left right : Item) : Except Fault Bool :=
  match left, right with
  | .integer a, .integer b => .ok (a < b)
  | .text a, .text b => .ok (a < b)
  | a, b =>
    .error (.type s!"'<' not supported between instances of '{a.typeName}' and '{b.typeName}'")

/-- Puts an element into a sorted sequence, after those equal to it. -/
def insertSorted (item : Item) : List Item → Except Fault (List Item)
  | [] => .ok [item]
  | first :: rest => do
    if ← less item first then return item :: first :: rest
    else return first :: (← insertSorted item rest)

def applyFilter (item : Item) (name : String) (arguments : List Item) : Except Fault Item :=
  match name, arguments with
  | "pyrepr", [] => .ok (.text item.shown)
  | "join", _ => do
    let separator := (arguments.head?.map Item.written).getD ""
    return .text (Text.joinWith separator ((← item.elements).map Item.written))
  | "upper", [] => .ok (.text (String.ofList (Text.upperCase item.written.toList)))
  | "lower", [] => .ok (.text (String.ofList (Text.lowerCase item.written.toList)))
  | "length", [] | "count", [] => do return .integer (← item.count)
  | "default", _ | "d", _ =>
    let other := arguments.head?.getD (.text "")
    let empty := (arguments[1]?.map Item.holds).getD false
    match item with
    | .undefined _ => .ok other
    | item => .ok (if empty && !item.holds then other else item)
  | "first", [] => do
    return (← item.elements).head?.getD (.undefined "No first item, sequence was empty.")
  | "last", [] => do
    return (← item.elements).getLast?.getD (.undefined "No last item, sequence was empty.")
  | "list", [] => do return .list (← item.elements)
  | "string", [] => .ok (.text item.written)
  | "safe", [] => .ok item
  | "trim", [] => .ok (.text (String.ofList (Text.strip item.written.toList)))
  | "replace", [old, new] => .ok (.text (replaceAll old.written new.written item.written))
  | "reverse", [] =>
    match item with
    | .text value => .ok (.text (String.ofList value.toList.reverse))
    | item => do return .list (← item.elements).reverse
  | "sort", [] => do
    return .list (← (← item.elements).foldlM (fun sorted item => insertSorted item sorted) [])
  | "items", [] => callMethod item "items" []
  | "escape", [] | "e", [] => .ok (.text (String.ofList (escapeMarkup item.written.toList)))
  | "int", [] =>
    match item with
    | .integer value => .ok (.integer value)
    | .text value => .ok (.integer (value.toInt?.getD 0))
    | .truth value => .ok (.integer (if value then 1 else 0))
    | _ => .ok (.integer 0)
  | name, _ => .error (.unsupported name)

def applyTest (item : Item) (name : String) (arguments : List Item) : Except Fault Bool :=
  match name, item, arguments with
  | "defined", .undefined _, _ => .ok false
  | "defined", _, _ => .ok true
  | "undefined", .undefined _, _ => .ok true
  | "undefined", _, _ => .ok false
  | "none", .nothing, _ => .ok true
  | "none", _, _ => .ok false
  | "string", .text _, _ => .ok true
  | "string", _, _ => .ok false
  | "number", .integer _, _ | "number", .truth _, _ => .ok true
  | "number", _, _ => .ok false
  | "integer", .integer _, _ => .ok true
  | "integer", _, _ => .ok false
  | "boolean", .truth _, _ => .ok true
  | "boolean", _, _ => .ok false
  | "mapping", .dict _, _ => .ok true
  | "mapping", _, _ => .ok false
  | "true", .truth value, _ => .ok value
  | "true", _, _ => .ok false
  | "false", .truth value, _ => .ok !value
  | "false", _, _ => .ok false
  | "iterable", item, _ | "sequence", item, _ => .ok (item.elements matches .ok _)
  | "even", .integer value, _ => .ok (value % 2 == 0)
  | "odd", .integer value, _ => .ok (value % 2 == 1)
  | "eq", item, [other] | "equalto", item, [other] => .ok (item.same other)
  | "ne", item, [other] => .ok !(item.same other)
  | "in", item, [other] => do return (← other.elements).any (Item.same item)
  | name, _, _ => .error (.unsupported name)

def applyOperator (operator : String) (left right : Item) : Except Fault Item :=
  match operator, left, right with
  | "~", left, right => .ok (.text (left.written ++ right.written))
  | "+", .integer a, .integer b => .ok (.integer (a + b))
  | "+", .text a, .text b => .ok (.text (a ++ b))
  | "+", .list a, .list b => .ok (.list (a ++ b))
  | "-", .integer a, .integer b => .ok (.integer (a - b))
  | "*", .integer a, .integer b => .ok (.integer (a * b))
  | "*", .text a, .integer b | "*", .integer b, .text a =>
    .ok (.text (String.join (List.replicate b.toNat a)))
  | "//", .integer a, .integer b =>
    if b = 0 then .error (.value "integer division or modulo by zero") else .ok (.integer (a.fdiv b))
  | "%", .integer a, .integer b =>
    if b = 0 then .error (.value "integer modulo by zero") else .ok (.integer (a.fmod b))
  | "**", .integer a, .integer b => .ok (.integer (Int.pow a b.toNat))
  | _, .undefined message, _ | _, _, .undefined message => .error (.undefined message)
  | operator, a, b => .error (.type
      s!"unsupported operand type(s) for {operator}: '{a.typeName}' and '{b.typeName}'")

def applyComparison (operator : String) (left right : Item) : Except Fault Bool :=
  match operator with
  | "==" => .ok (left.same right)
  | "!=" => .ok !(left.same right)
  | "<" => less left right
  | ">" => less right left
  | "<=" => do return !(← less right left)
  | ">=" => do return !(← less left right)
  | operator => do
    let found ← match left, right with
      | .text part, .text value => pure (1 < (value.splitOn part).length || part == "")
      | left, right => do pure ((← right.elements).any (Item.same left))
    return if operator = "in" then found else !found

mutual

def evaluate (scope : Scope) : Expr → Except Fault Item
  | .text value => .ok (.text value)
  | .integer value => .ok (.integer value)
  | .truth value => .ok (.truth value)
  | .nothing => .ok .nothing
  | .variable name =>
    .ok ((scope.lookup name).getD (.undefined s!"{Text.quotedString name} is undefined"))
  | .list items => do return .list (← evaluateAll scope items)
  | .tuple items => do return .tuple (← evaluateAll scope items)
  | .dict entries => do return .dict (← evaluateEntries scope entries)
  | .attribute of name => do (← evaluate scope of).member name
  | .item of key => do (← evaluate scope of).part (← evaluate scope key)
  | .call function arguments => do
    match ← evaluate scope function with
    | .method item name => callMethod item name (← evaluateAll scope arguments)
    | .undefined message => .error (.undefined message)
    | item => .error (.type s!"'{item.typeName}' object is not callable")
  | .filter of name arguments => do
    applyFilter (← evaluate scope of) name (← evaluateAll scope arguments)
  | .test of name arguments => do
    return .truth (← applyTest (← evaluate scope of) name (← evaluateAll scope arguments))
  | .negate of => do return .truth !(← evaluate scope of).holds
  | .minus of => do
    match ← evaluate scope of with
    | .integer value => return .integer (-value)
    | .undefined message => .error (.undefined message)
    | item => .error (.type s!"bad operand type for unary -: '{item.typeName}'")
  | .both left right => do
    let found ← evaluate scope left
    if found.holds then evaluate scope right else return found
  | .either left right => do
    let found ← evaluate scope left
    if found.holds then return found else evaluate scope right
  | .binary operator left right => do
    applyOperator operator (← evaluate scope left) (← evaluate scope right)
  | .compare first others => do return .truth (← compareAll scope (← evaluate scope first) others)
  | .choice condition yes no => do
    if (← evaluate scope condition).holds then evaluate scope yes
    else
      match no with
      | some no => evaluate scope no
      | none =>
        return .undefined "the inline if-expression evaluated to false and no else section was defined."

def evaluateAll (scope : Scope) : List Expr → Except Fault (List Item)
  | [] => .ok []
  | first :: rest => do return (← evaluate scope first) :: (← evaluateAll scope rest)

def evaluateEntries (scope : Scope) : List (Expr × Expr) → Except Fault (List (Item × Item))
  | [] => .ok []
  | (key, value) :: rest => do
    return (← evaluate scope key, ← evaluate scope value) :: (← evaluateEntries scope rest)

/-- A chain of comparisons holds. -/
def compareAll (scope : Scope) (left : Item) : List (String × Expr) → Except Fault Bool
  | [] => .ok true
  | (operator, right) :: rest => do
    let right ← evaluate scope right
    if ← applyComparison operator left right then compareAll scope right rest else return false

end

/-- The variables that an element gives values to. -/
def unpack (targets : List String) (alone : Bool) (item : Item) : Except Fault Scope := do
  if alone then return targets.map (·, item)
  else
    let items ← match item.elements with
      | .ok items => pure items
      | .error _ => .error (.type s!"cannot unpack non-iterable {item.typeName} object")
    if items.length < targets.length then
      .error (.value
        s!"not enough values to unpack (expected {targets.length}, got {items.length})")
    else if targets.length < items.length then
      .error (.value s!"too many values to unpack (expected {targets.length})")
    else return (targets.zip items).reverse

/-- What a loop's body knows of the loop. -/
def loopItem (index length : Nat) : Item :=
  .loop [("index", .integer (index + 1)), ("index0", .integer index),
    ("revindex", .integer (length - index : Nat)), ("revindex0", .integer (length - index - 1 : Nat)),
    ("first", .truth (index == 0)), ("last", .truth (index + 1 == length)),
    ("length", .integer length), ("depth", .integer 1), ("depth0", .integer 0)]

mutual

/-- The text of one part, and the variables in scope after it. -/
def renderPart (scope : Scope) : Node → Except Fault (List Char × Scope)
  | .data text => .ok (text, scope)
  | .print value => do return ((← evaluate scope value).written.toList, scope)
  | .loop targets alone source body otherwise => do
    let items ← (← evaluate scope source).elements
    if items.isEmpty then return (← renderParts scope otherwise, scope)
    else
      let turns ← items.zipIdx.mapM fun (item, index) => do
        return (← unpack targets alone item) ++ ("loop", loopItem index items.length) :: scope
      return (← renderTurns body turns, scope)
  | .choose condition yes no => do
    if (← evaluate scope condition).holds then renderChoice scope yes else renderChoice scope no
  | .assign targets alone value => do
    return ([], (← unpack targets alone (← evaluate scope value)) ++ scope)

def renderParts (scope : Scope) : List Node → Except Fault (List Char)
  | [] => .ok []
  | part :: rest => do
    let (text, scope) ← renderPart scope part
    return text ++ (← renderParts scope rest)

/-- The text of the parts of a choice, and the variables in scope after them. -/
def renderChoice (scope : Scope) : List Node → Except Fault (List Char × Scope)
  | [] => .ok ([], scope)
  | part :: rest => do
    let (text, scope) ← renderPart scope part
    let (others, scope) ← renderChoice scope rest
    return (text ++ others, scope)

/-- The text of a loop's body, once for every scope. -/
def renderTurns (body : List Node) : List Scope → Except Fault (List Char)
  | [] => .ok []
  | scope :: rest => do return (← renderParts scope body) ++ (← renderTurns body rest)

end

def render (template : List Char) (scope : Scope) : Except Fault (List Char) := do
  renderParts scope (← parse template)

end Bundler.Template
