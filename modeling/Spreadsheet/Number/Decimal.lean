/-!
# Decimal numerals

A numeral is a natural number of digits and a power of ten. It is written positionally, without an
exponent, and turned into the nearest double.
-/

namespace Spreadsheet.Number

/-- The number `digits · 10 ^ exponent`. -/
structure Decimal where
  digits : Nat
  exponent : Int
  deriving DecidableEq, Repr

namespace Decimal

/-- Plain digits with at most one point: zeros stand for a positive power of ten, and a number
below one has a zero before its point. -/
def plain (d : Decimal) : List Char :=
  let digits := Nat.toDigits 10 d.digits
  if 0 ≤ d.exponent then
    digits ++ List.replicate d.exponent.toNat '0'
  else
    let places := (-d.exponent).toNat
    let padded := List.replicate (places + 1 - digits.length) '0' ++ digits
    padded.take (padded.length - places) ++ '.' :: padded.drop (padded.length - places)

/-- The double nearest to the numeral. Beyond 310 digits before the point every numeral is infinite,
and below the 330th place after it every numeral is zero. -/
def toFloat (d : Decimal) : Float :=
  let magnitude := (Nat.toDigits 10 d.digits).length + d.exponent
  if d.digits = 0 || magnitude < -330 then 0.0
  else if 310 < magnitude then 1.0 / 0.0
  else Float.ofScientific d.digits (d.exponent < 0) d.exponent.natAbs

end Decimal

end Spreadsheet.Number
