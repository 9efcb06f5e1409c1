import Bundler.Data.Json
import Bundler.Text.Blank
import Bundler.Text.Quoted
import Bundler.Text.Word

/-!
# Integers in decimal notation

A number may have blanks around it, a sign, and single underscores between its digits, which may be
the digits of any script. There is a limit to the number of digits.
-/

namespace Bundler.Data

inductive IntegerFault
  | malformed (text : String)
  | tooLong (digits : Nat)
  deriving DecidableEq, Repr

/-- The most characters of a text that a message quotes. -/
def quoteLimit : Nat := 200

def IntegerFault.message : IntegerFault → String
  | .malformed text =>
    let shown := String.ofList ((Text.quoted text.toList).take quoteLimit)
    s!"invalid literal for int() with base 10: {shown}"
  | .tooLong digits => Json.tooLong digits

/-- The number of digits at the start and what follows them, if no underscore is out of place. -/
def digitCount? : Bool → Nat → List Char → Option (Nat × List Char)
  | afterDigit, count, [] => if afterDigit then some (count, []) else none
  | afterDigit, count, c :: rest =>
    if Text.isDecimalDigit c then digitCount? true (count + 1) rest
    else if c = '_' then
      if afterDigit then digitCount? false count rest else none
    else if afterDigit then some (count, c :: rest)
    else none

def checkInteger (text : String) : Except IntegerFault Unit :=
  let chars := Text.strip text.toList
  let unsigned := match chars with
    | '+' :: rest | '-' :: rest => rest
    | chars => chars
  match digitCount? false 0 unsigned with
  | none => .error (.malformed text)
  | some (count, rest) =>
    if Json.digitLimit < count then .error (.tooLong count)
    else if rest = [] then .ok ()
    else .error (.malformed text)

end Bundler.Data
