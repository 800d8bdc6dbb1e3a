import Spreadsheet.Number.Decimal

/-!
# The fewest digits that read back

A finite double stands for every real that rounds to it. Those reals form an interval around the
double, whose ends belong to it when the significand is even. Among the grids of multiples of a
power of ten, taken from coarse to fine, the first one with a point in the interval gives the
numeral: it has the fewest digits, since any numeral with fewer digits lies on a coarser grid.

Only the two neighbours of the double on a grid need to be looked at. All comparisons are made
between natural numbers, after scaling by the denominators.
-/

namespace Spreadsheet.Number

/-- The positive real `significand · 2 ^ exponent`. -/
structure Binary where
  significand : Nat
  exponent : Int
  deriving DecidableEq, Repr

namespace Binary

/-- The significand of a power of two, the least one of 53 bits. -/
def leastSignificand : Nat := 4503599627370496

/-- The magnitude of a finite double. -/
def ofFloat (x : Float) : Binary :=
  let bits := x.toBits.toNat
  let fraction : Nat := bits % leastSignificand
  let biased : Nat := bits / leastSignificand % 2048
  if biased = 0 then ⟨fraction, -1074⟩ else ⟨leastSignificand + fraction, (biased : Int) - 1075⟩

/-- A quarter of the unit in the last place, in a unit that it shares with `gridStep`. -/
def quarter (v : Binary) (k : Int) : Nat :=
  Nat.pow 2 (v.exponent - 2).toNat * Nat.pow 10 (-k).toNat

/-- The step `10 ^ k` of a grid, in a unit that it shares with `quarter`. -/
def gridStep (v : Binary) (k : Int) : Nat :=
  Nat.pow 10 k.toNat * Nat.pow 2 (2 - v.exponent).toNat

/-- The number itself, in the shared unit. -/
def scaled (v : Binary) (k : Int) : Nat :=
  4 * v.significand * v.quarter k

/-- The lower end of the interval of reals that round to `v`. Below the least significand the next
double is only half as far away. -/
def lowEnd (v : Binary) (k : Int) : Nat :=
  (4 * v.significand - if v.significand = leastSignificand then 1 else 2) * v.quarter k

/-- The upper end of the interval of reals that round to `v`. -/
def highEnd (v : Binary) (k : Int) : Nat :=
  (4 * v.significand + 2) * v.quarter k

/-- Whether the `d`-th point of the grid of multiples of `10 ^ k` rounds to `v`. -/
def readsBack (v : Binary) (k : Int) (d : Nat) : Bool :=
  let point := d * v.gridStep k
  if v.significand % 2 = 0 then v.lowEnd k ≤ point && point ≤ v.highEnd k
  else v.lowEnd k < point && point < v.highEnd k

/-- The last point of a grid that does not exceed `v`. -/
def floorOn (v : Binary) (k : Int) : Nat :=
  v.scaled k / v.gridStep k

/-- The point of a grid that rounds to `v`, if there is one: the nearer of the two neighbours, and
the upper one where they are equally near. -/
def onGrid? (v : Binary) (k : Int) : Option Nat :=
  let d := v.floorOn k
  match v.readsBack k d, v.readsBack k (d + 1) with
  | true, true =>
    if 2 * v.scaled k < (2 * d + 1) * v.gridStep k then some d else some (d + 1)
  | true, false => some d
  | false, true => some (d + 1)
  | false, false => none

/-- The numeral on the coarsest grid with a point for `v`, among the grids of `10 ^ k` and the
`finer` ones after it. -/
def coarsest (v : Binary) (k : Int) : Nat → Decimal
  | 0 => ⟨v.floorOn k, k⟩
  | finer + 1 =>
    match v.onGrid? k with
    | some d => ⟨d, k⟩
    | none => v.coarsest (k - 1) finer

/-- The exponent of a power of ten that is larger than `v`. -/
def decimalBound (v : Binary) : Int :=
  (v.significand.log2 + v.exponent + 1) * 30103 / 100000 + 2

/-- The numeral with the fewest digits that rounds to `v`. On the grid of the last place `v` is a
point itself, so no finer grid is needed. -/
def shortest (v : Binary) : Decimal :=
  let start := v.decimalBound
  v.coarsest start (start - min v.exponent 0).toNat

/-- The integer part. -/
def floor (v : Binary) : Nat :=
  v.significand * Nat.pow 2 v.exponent.toNat / Nat.pow 2 (-v.exponent).toNat

end Binary

/-! ## The text of a double -/

/-- The sign of a double; a zero has none. -/
def isNegative (x : Float) : Bool :=
  x < 0.0

/-- The text of a double: the fewest plain digits that read back. Zero has no sign. -/
def render (x : Float) : String :=
  if x.isNaN then "NaN"
  else if x.isInf then (if isNegative x then "-inf" else "inf")
  else if x == 0.0 then "0"
  else String.ofList
    ((if isNegative x then ['-'] else []) ++ (Binary.ofFloat x).shortest.plain)

/-! ## Whole numbers from doubles -/

/-- The integer part of a double, held between two bounds; a double that is no number gives zero. -/
def truncateBetween (least greatest : Int) (x : Float) : Int :=
  if x.isNaN then 0
  else if x.isInf then (if isNegative x then least else greatest)
  else
    let whole : Int := (Binary.ofFloat x).floor
    max least (min greatest (if isNegative x then -whole else whole))

end Spreadsheet.Number
