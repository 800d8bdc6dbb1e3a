import Spreadsheet.Evaluation.Evaluate

/-!
# Sheets

A sheet is a grid of contents that formulas are evaluated against. It knows its cells by their
place, so every spelling of an address reaches the same cell, and lists them row by row.
-/

namespace Spreadsheet

/-- What can go wrong with a sheet: a text that names no cell, or a formula that fails. -/
inductive SheetError
  | address (cause : AddressError)
  | formula (cause : FormulaError)
  deriving DecidableEq, Repr

/-- The text of a sheet error: that of its cause. -/
def SheetError.message : SheetError → String
  | .address cause => cause.message
  | .formula cause => cause.message

/-- The contents of the cells that have been written to, by their places, and the options of
evaluations. -/
structure Sheet where
  cells : Std.TreeMap Position Content := ∅
  options : Options := {}

namespace Sheet

/-- The place that an address names. -/
def place (cell : String) : Except SheetError Position :=
  match Address.parse cell with
  | .ok a => .ok a.toPosition
  | .error e => .error (.address e)

/-- A sheet without cells. -/
def new : Sheet := {}

/-- Writes a content into a cell. -/
def set (s : Sheet) (cell : String) (content : Content) : Except SheetError Sheet := do
  return { s with cells := s.cells.insert (← place cell) content }

/-- Writes a value into a cell. -/
def setValue (s : Sheet) (cell : String) (v : Value) : Except SheetError Sheet :=
  s.set cell (.value v)

/-- Writes a formula into a cell; an equals sign before it is optional. -/
def setFormula (s : Sheet) (cell text : String) : Except SheetError Sheet :=
  s.set cell (.ofFormula text)

/-- Writes typed input into a cell. -/
def setInput (s : Sheet) (cell input : String) : Except SheetError Sheet :=
  s.set cell (.ofInput input)

/-- The content of a cell. -/
def get (s : Sheet) (cell : String) : Except SheetError (Option Content) := do
  return s.cells[← place cell]?

/-- Empties a cell; also gives what it held. -/
def clear (s : Sheet) (cell : String) : Except SheetError (Option Content × Sheet) := do
  let p ← place cell
  return (s.cells[p]?, { s with cells := s.cells.erase p })

/-- The number of cells that hold something. -/
def size (s : Sheet) : Nat :=
  s.cells.size

/-- Whether no cell holds anything. -/
def isEmpty (s : Sheet) : Bool :=
  s.cells.isEmpty

/-- The cells that hold something, row by row. -/
def toList (s : Sheet) : List (Position × Content) :=
  s.cells.toList

/-- What a formula finds under a name; a text that names no cell finds nothing. -/
def lookup (s : Sheet) : Environment := fun name =>
  match place name with
  | .ok p => s.cells[p]?
  | .error _ => none

/-- Marks the failure of a formula. -/
def ofOutcome (outcome : Outcome) : Except SheetError Value :=
  outcome.mapError .formula

/-- The value of a formula on the sheet. -/
def evaluate (s : Sheet) (formula : String) : Except SheetError Value :=
  ofOutcome (evaluateFormula s.lookup s.options formula)

/-- The value of a cell of the sheet. -/
def evaluateCell (s : Sheet) (cell : String) : Except SheetError Value := do
  let p ← place cell
  ofOutcome (Spreadsheet.evaluateCell s.lookup s.options p.name)

end Sheet

end Spreadsheet
