import Spreadsheet.Apply.Shape

/-!
# Functions of real numbers

Every function converts its operands to numbers and has a finite result. Logarithms and the square
root name the operand that lies outside their domain.
-/

namespace Spreadsheet.Real

/-- A function of one number that is defined everywhere. -/
def everywhere (operation : String) (f : Float → Float) (v : Value) : Outcome := do
  finite operation (f (← v.toNumber operation))

/-- A function of one number that is undefined where `excluded` holds. -/
def except (operation : String) (excluded : Float → Bool) (f : Float → Float) (v : Value) :
    Outcome := do
  let x ← v.toNumber operation
  if excluded x then .error (outsideDomain operation v) else finite operation (f x)

/-- The natural logarithm, or the logarithm to a given base. -/
def log (operation : String) (v : Value) (base? : Option Value) : Outcome := do
  let x ← v.toNumber operation
  if x ≤ 0.0 then .error (outsideDomain operation v)
  else match base? with
    | none => finite operation x.log
    | some base =>
      let b ← base.toNumber operation
      if b ≤ 0.0 || b == 1.0 then .error (outsideDomain operation base)
      else finite operation (x.log / b.log)

/-- The power `base ^ n`, multiplied into `acc`, by squaring. The order of the multiplications fixes
how the result is rounded. -/
def powerBySquaring (base acc : Float) (n : Nat) : Float :=
  let acc := if n % 2 = 1 then acc * base else acc
  if n / 2 = 0 then acc else powerBySquaring (base * base) acc (n / 2)
termination_by n
decreasing_by omega

/-- The greatest number of places that can be asked for; it takes 31 bits. -/
def mostPlaces : Int := 2147483647

/-- Rounds to a number of decimal places, halves away from zero; a negative number of places rounds
to the left of the point. Where the scaled number is too large to have digits behind the point, it
is left as it is; where the power of ten is too large, nothing of the number is left. -/
def roundTo (x : Float) (places : Int) : Float :=
  let factor := powerBySquaring 10.0 1.0 (min places.natAbs mostPlaces.toNat)
  if 0 ≤ places then
    let scaled := x * factor
    if scaled.isFinite then scaled.round / factor else x
  else if factor.isFinite then (x / factor).round * factor
  else 0.0

/-- Rounding to a whole number or to a number of places. -/
def round (operation : String) (v : Value) (places? : Option Value) : Outcome := do
  let x ← v.toNumber operation
  let places ← match places? with
    | none => pure 0
    | some p => Number.truncateBetween (-mostPlaces - 1) mostPlaces <$> p.toNumber operation
  finite operation (roundTo x places)

/-- The remainder of a division rounded down; it has the sign of the divisor. -/
def modulo (operation : String) (v w : Value) : Outcome := do
  let x ← v.toNumber operation
  let d ← w.toNumber operation
  if d == 0.0 then .error (.divisionByZero operation)
  else finite operation (x - d * (x / d).floor)

/-- A power with any exponent. -/
def power (operation : String) (v w : Value) : Outcome := do
  let x ← v.toNumber operation
  let y ← w.toNumber operation
  finite operation (Float.pow x y)

/-- The ratio of a circle's circumference to its diameter. -/
def pi : Float := 3.141592653589793

end Spreadsheet.Real
