import Spreadsheet.Evaluation.Termination

/-!
# Evaluating formulas and cells

A formula, an expression or a cell is evaluated in an environment by running the machine to its end.
-/

namespace Spreadsheet

/-- Runs the machine for at most `n` steps. -/
def Evaluation.State.runFor (env : Environment) (options : Options) : Nat → State → Option Outcome
  | 0, _ => none
  | n + 1, s =>
    match s.next env options with
    | .finished outcome => some outcome
    | .running s => s.runFor env options n

/-- Runs the machine to its end. -/
def Evaluation.State.run (env : Environment) (options : Options) (s : State) : Outcome :=
  match _h : s.next env options with
  | .finished outcome => outcome
  | .running s => s.run env options
termination_by (State.wellFounded env options).wrap s
decreasing_by exact _h

/-- The value of an expression. -/
def Expr.evaluate (env : Environment) (options : Options) (e : Expr) : Outcome := do
  (Evaluation.State.start (← e.steps)).run env options

/-- The value of a formula text. -/
def evaluateFormula (env : Environment) (options : Options) (text : String) : Outcome := do
  (← Expr.ofFormula text options.maxNesting).evaluate env options

/-- The value of a cell, as a reference to it has it. -/
def evaluateCell (env : Environment) (options : Options) (name : String) : Outcome :=
  (Evaluation.State.start [.load (canonicalName name)]).run env options

end Spreadsheet
