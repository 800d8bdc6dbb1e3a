import Spreadsheet.Sheet

/-!
# Calculating a sheet

A calculation goes through the cells of a sheet row by row and evaluates every formula cell, each on
its own. It keeps the outcomes and counts, as it goes, how many cells have a value, how many fail,
and how many of those fail because a cell needs its own value. If that is asked for, the first
failure ends it.
-/

namespace Spreadsheet

/-- Counts over the formula cells of a sheet. -/
structure Statistics where
  /-- The formula cells. -/
  formulas : Nat := 0
  /-- Those that have a value. -/
  calculated : Nat := 0
  /-- Those that fail. -/
  errors : Nat := 0
  /-- Those that fail because a cell needs its own value. -/
  circular : Nat := 0
  deriving DecidableEq, Repr

/-- The counts with one more outcome. -/
def Statistics.add (n : Statistics) : Outcome → Statistics
  | .ok _ => { n with formulas := n.formulas + 1, calculated := n.calculated + 1 }
  | .error (.circularReference _) =>
    { n with formulas := n.formulas + 1, errors := n.errors + 1, circular := n.circular + 1 }
  | .error _ => { n with formulas := n.formulas + 1, errors := n.errors + 1 }

/-- The outcomes of the formula cells of a sheet, row by row, and the counts over them. -/
structure Calculation where
  results : List (Position × Outcome)
  statistics : Statistics

namespace Calculation

/-- The outcome of a formula cell, under any spelling of its address. -/
def result? (c : Calculation) (cell : String) : Option Outcome :=
  match Address.parse cell with
  | .ok a => (c.results.find? (·.1 == a.toPosition)).map (·.2)
  | .error _ => none

/-- The value of a formula cell, if it has one. -/
def value? (c : Calculation) (cell : String) : Option Value :=
  (c.result? cell).bind Except.toOption

end Calculation

namespace Sheet

/-- The places of the formula cells, row by row. -/
def formulaCells (s : Sheet) : List Position :=
  (s.toList.filter (·.2.isFormula)).map (·.1)

/-- Goes on with the cells that are still to come. `done` has the outcomes so far, the last one
first, and `counts` counts them. -/
def calculateFrom (s : Sheet) (options : Options) (stopOnError : Bool)
    (done : List (Position × Outcome)) (counts : Statistics) :
    List (Position × Content) → Except SheetError Calculation
  | [] => .ok ⟨done.reverse, counts⟩
  | (p, content) :: rest =>
    if content.isFormula then
      match Spreadsheet.evaluateCell s.lookup options p.name with
      | .ok v =>
        s.calculateFrom options stopOnError ((p, .ok v) :: done) (counts.add (.ok v)) rest
      | .error e =>
        if stopOnError then .error (.formula e)
        else
          s.calculateFrom options stopOnError ((p, .error e) :: done) (counts.add (.error e)) rest
    else s.calculateFrom options stopOnError done counts rest

/-- Evaluates every formula cell under given options. The first failure ends the calculation if
`stopOnError` asks for that. -/
def calculateWith (s : Sheet) (options : Options) (stopOnError : Bool) :
    Except SheetError Calculation :=
  s.calculateFrom options stopOnError [] {} s.toList

/-- Evaluates every formula cell under the sheet's own options. -/
def calculate (s : Sheet) : Except SheetError Calculation :=
  s.calculateWith s.options false

end Sheet

end Spreadsheet
