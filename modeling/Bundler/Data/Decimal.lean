/-!
# Decimal numbers

A number as read from a text keeps its decimal digits. Its value is the nearest binary fraction of
53 bits, and it is written with the fewest digits that are read back as that value.
-/

namespace Bundler.Data

/-- `digits · 10 ^ exponent`. -/
structure Decimal where
  negative : Bool
  digits : Nat
  exponent : Int
  deriving DecidableEq, Repr

/-- `mantissa · 2 ^ exponent`. -/
structure Binary where
  mantissa : Nat
  exponent : Int
  deriving DecidableEq, Repr

/-- The quotient rounded to the nearest number; a half goes to the even neighbour. -/
def roundEven (num den : Nat) : Nat :=
  let low := num / den
  let twice := 2 * (num % den)
  if den < twice then low + 1 else if twice < den then low
  else if low % 2 = 0 then low else low + 1

/-- `num / den` as a numerator and denominator after multiplication by a power of two. -/
def shiftRatio (num den : Nat) (power : Int) : Nat × Nat :=
  if power < 0 then (num, den * Nat.pow 2 power.natAbs) else (num * Nat.pow 2 power.natAbs, den)

/-- The exponent of the greatest power of two that is at most `num / den`. -/
def binaryOrder (num den : Nat) : Int :=
  let guess : Int := num.log2 - den.log2
  let (top, bottom) := shiftRatio num den (-guess)
  if top < bottom then guess - 1 else guess

namespace Binary

/-- The value nearest to `num / den`; none where that is beyond the greatest value. -/
def nearest? (num den : Nat) : Option Binary :=
  if num = 0 then some ⟨0, 0⟩
  else
    let exponent := max (binaryOrder num den - 52) (-1074)
    let (top, bottom) := shiftRatio num den (-exponent)
    let mantissa := roundEven top bottom
    let found : Binary :=
      if mantissa = Nat.pow 2 53 then ⟨Nat.pow 2 52, exponent + 1⟩ else ⟨mantissa, exponent⟩
    if 971 < found.exponent then none else some found

/-- `digits · 10 ^ power` compared with `quarters · 2 ^ (exponent - 2)`, both as naturals. -/
def compared (digits quarters : Nat) (power exponent : Int) : Nat × Nat :=
  let shift := exponent - 2
  let left := digits * Nat.pow 10 power.toNat * Nat.pow 2 (-shift).toNat
  let right := quarters * Nat.pow 2 shift.toNat * Nat.pow 10 (-power).toNat
  (left, right)

/-- `digits · 10 ^ power` is read back as the value. -/
def readsBack (value : Binary) (digits : Nat) (power : Int) : Bool :=
  let quarters := 4 * value.mantissa
  let below := if value.mantissa = Nat.pow 2 52 ∧ -1074 < value.exponent then quarters - 1 else quarters - 2
  let (x, low) := compared digits below power value.exponent
  let (y, high) := compared digits (quarters + 2) power value.exponent
  if value.mantissa % 2 = 0 then low ≤ x && y ≤ high else low < x && y < high

/-- The two neighbours of the value among the multiples of `10 ^ power`, and whether the upper one
is nearer. -/
def neighbours (value : Binary) (power : Int) : Nat × Bool :=
  let (unit, target) := compared 1 (4 * value.mantissa) power value.exponent
  (target / unit, unit < 2 * (target % unit) || (unit = 2 * (target % unit) && target / unit % 2 = 1))

/-- The number of digits before the point, or minus the number of zeros after it. -/
def decimalOrder (value : Binary) : Nat → Int → Int
  | 0, order => order
  | fuel + 1, order =>
    let (power, target) := compared 1 (4 * value.mantissa) order value.exponent
    if target < power then order else decimalOrder value fuel (order + 1)

/-- Tries `count`, `count + 1`, … digits until a multiple of the last place is read back. -/
def shortestFrom (value : Binary) (order : Int) : Nat → Nat → Nat × Int
  | 0, count => ((neighbours value (order - count)).1, order - count)
  | fuel + 1, count =>
    let power := order - count
    let (low, upper) := neighbours value power
    let lowFits := readsBack value low power
    let highFits := readsBack value (low + 1) power
    if lowFits && highFits then (if upper then low + 1 else low, power)
    else if lowFits then (low, power)
    else if highFits then (low + 1, power)
    else shortestFrom value order fuel (count + 1)

/-- The fewest digits that are read back as the value, with the power of ten of the last one. -/
def shortest (value : Binary) : Nat × Int :=
  shortestFrom value (decimalOrder value 700 (-330)) 17 1

end Binary

/-- A number with a fractional part, as a text can give it. -/
inductive Real
  | finite (value : Decimal)
  | infinite (negative : Bool)
  | nan
  deriving DecidableEq, Repr

def dropZeros : List Char → List Char
  | digits => (digits.reverse.dropWhile (· = '0')).reverse

/-- Positional from `0.0001` up to sixteen digits before the point, otherwise with an exponent of
at least two digits. -/
def layout (digits : List Char) (order : Int) : String :=
  let text := String.ofList
  if -4 < order ∧ order ≤ 16 then
    if order ≤ 0 then "0." ++ text (List.replicate (-order).toNat '0') ++ text digits
    else
      let whole := digits.take order.toNat
      let fraction := digits.drop order.toNat
      text whole ++ text (List.replicate (order.toNat - whole.length) '0') ++ "."
        ++ (if fraction = [] then "0" else text fraction)
  else
    let exponent := order - 1
    let size := toString exponent.natAbs
    text (digits.take 1) ++ (if digits.length ≤ 1 then "" else "." ++ text (digits.drop 1)) ++ "e"
      ++ (if exponent < 0 then "-" else "+") ++ (if size.length < 2 then "0" ++ size else size)

def Real.text : Real → String
  | .nan => "nan"
  | .infinite negative => if negative then "-inf" else "inf"
  | .finite value =>
    let sign := if value.negative then "-" else ""
    let order := (Nat.toDigits 10 value.digits).length + value.exponent
    let found : Option Binary :=
      if value.digits = 0 ∨ order < -330 then some ⟨0, 0⟩
      else if 310 < order then none
      else Binary.nearest? (value.digits * Nat.pow 10 value.exponent.toNat)
        (Nat.pow 10 (-value.exponent).toNat)
    sign ++ match found with
      | none => "inf"
      | some ⟨0, _⟩ => "0.0"
      | some binary =>
        let (digits, power) := binary.shortest
        let written := Nat.toDigits 10 digits
        layout (dropZeros written) (written.length + power)

end Bundler.Data
