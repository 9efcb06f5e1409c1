import Bundler.Data.Decimal
import Bundler.Text.Quoted
import Bundler.Text.Pieces

/-!
# Values of a configuration

What a configuration may hold before it is validated. The parameter stands for what only a caller
can put in, such as a transform; a document read from a text holds none of it.
-/

namespace Bundler.Data

structure Clock where
  hour : Nat
  minute : Nat
  second : Nat
  micros : Nat
  deriving DecidableEq, Repr

/-- A date, a time of day, or both, perhaps with the minutes by which its zone is ahead. -/
inductive Moment
  | date (year month day : Nat)
  | time (clock : Clock)
  | dateTime (year month day : Nat) (clock : Clock) (zone : Option Int)
  deriving DecidableEq, Repr

/-- A value of a configuration. -/
inductive Value (ε : Type)
  | null
  | bool (value : Bool)
  | int (value : Int)
  | float (value : Real)
  | string (value : String)
  | moment (value : Moment)
  | list (items : List (Value ε))
  | table (fields : List (String × Value ε))
  | foreign (value : ε)

instance {ε : Type} : Inhabited (Value ε) := ⟨.null⟩

/-- The parts of a time of day that are written: seconds only if anything follows the minutes. -/
def Clock.parts (clock : Clock) : List String :=
  let seconds := if clock.second = 0 ∧ clock.micros = 0 then [] else [toString clock.second]
  let micros := if clock.micros = 0 then [] else [toString clock.micros]
  [toString clock.hour, toString clock.minute] ++ seconds ++ micros

/-- The offset of a zone: days are rounded down, seconds count up from there. -/
def zoneText (minutes : Int) : String :=
  if minutes = 0 then "datetime.timezone.utc"
  else if minutes < 0 then
    s!"datetime.timezone(datetime.timedelta(days=-1, seconds={86400 + 60 * minutes}))"
  else s!"datetime.timezone(datetime.timedelta(seconds={60 * minutes}))"

def Moment.typeName : Moment → String
  | .date .. => "datetime.date"
  | .time _ => "datetime.time"
  | .dateTime .. => "datetime.datetime"

def Moment.shown (moment : Moment) : String :=
  let parts := match moment with
    | .date year month day => [toString year, toString month, toString day]
    | .time clock => clock.parts
    | .dateTime year month day clock zone =>
      [toString year, toString month, toString day] ++ clock.parts
        ++ (zone.map fun minutes => "tzinfo=" ++ zoneText minutes).toList
  moment.typeName ++ "(" ++ Text.joinWith ", " parts ++ ")"

namespace Value

/-- The name of a value's type, given the names of the foreign ones. -/
def typeName {ε : Type} (foreignName : ε → String) : Value ε → String
  | .null => "NoneType"
  | .bool _ => "bool"
  | .int _ => "int"
  | .float _ => "float"
  | .string _ => "str"
  | .moment value => value.typeName
  | .list _ => "list"
  | .table _ => "dict"
  | .foreign value => foreignName value

/-- Nothing is in it: null, false, a zero, and a text, list or table without elements. -/
def isVacant {ε : Type} : Value ε → Bool
  | .null => true
  | .bool value => !value
  | .int value => value == 0
  | .float (.finite value) => value.digits == 0
  | .string value => value.isEmpty
  | .list items => items.isEmpty
  | .table fields => fields.isEmpty
  | _ => false

mutual

def shown {ε : Type} (foreignText : ε → String) : Value ε → String
  | .null => "None"
  | .bool value => if value then "True" else "False"
  | .int value => toString value
  | .float value => value.text
  | .string value => Text.quotedString value
  | .moment value => value.shown
  | .list items => "[" ++ Text.joinWith ", " (shownItems foreignText items) ++ "]"
  | .table fields => "\x7b" ++ Text.joinWith ", " (shownFields foreignText fields) ++ "\x7d"
  | .foreign value => foreignText value

def shownItems {ε : Type} (foreignText : ε → String) : List (Value ε) → List String
  | [] => []
  | item :: rest => shown foreignText item :: shownItems foreignText rest

def shownFields {ε : Type} (foreignText : ε → String) : List (String × Value ε) → List String
  | [] => []
  | (key, value) :: rest =>
    (Text.quotedString key ++ ": " ++ shown foreignText value) :: shownFields foreignText rest

end

end Value

def fieldOf? {α : Type} (key : String) (fields : List (String × α)) : Option α :=
  (fields.find? fun field => field.1 == key).map (·.2)

/-- The table with a value under a key: in its old place, or at the end. -/
def setField {α : Type} (key : String) (value : α) : List (String × α) → List (String × α)
  | [] => [(key, value)]
  | field :: rest =>
    if field.1 = key then (key, value) :: rest else field :: setField key value rest

end Bundler.Data
