import Spreadsheet.Apply.Builtins
import Spreadsheet.Formula.Run
import Spreadsheet.Grid.Range

/-!
# Steps

An expression is evaluated as a list of steps that work on a stack of values: each operand puts its
value on the stack, and each operation replaces its operands by its result. A range is one step, so
both of its corners have to be cell names; that is checked for every range before the first step is
made.
-/

namespace Spreadsheet

/-- One step of an evaluation. -/
inductive Step
  | push (v : Value)
  /-- Puts the value of a cell, given by its canonical name, on the stack. -/
  | load (name : String)
  /-- Puts the list of the values between two corners, given by their canonical names, on the
  stack. -/
  | range (start stop : String)
  /-- Replaces the top `count` values by the result of an operation. -/
  | apply (operation : Operation) (count : Nat)
  deriving DecidableEq

namespace Expr

/-- The canonical name of a corner of a range; parentheses around a cell name do not matter. -/
def corner : Expr → Except FormulaError String
  | .group inner => inner.corner
  | .reference name => .ok (canonicalName name)
  | .constant v => .error (v.mismatch Operator.range.symbol)
  | e => .error (.typeMismatch Operator.range.symbol ("expression " ++ e.display))

/-- The step of a range between two corners. -/
def rangeStep : List Expr → Except FormulaError Step
  | [start, stop] => do
    let p ← start.corner
    let q ← stop.corner
    return .range p q
  | args => .error (.argumentCount Operator.range.symbol (.exactly 2) args.length)

mutual

/-- The steps of an expression: the operands from left to right, then the operation. -/
def steps : Expr → Except FormulaError (List Step)
  | .constant v => .ok [.push v]
  | .reference name => .ok [.load (canonicalName name)]
  | .group inner => inner.steps
  | .apply operation args =>
    if operation = .operator .range then do return [← rangeStep args]
    else do return (← stepsOfAll args) ++ [.apply operation args.length]

/-- The steps of several expressions, one after the other. -/
def stepsOfAll : List Expr → Except FormulaError (List Step)
  | [] => .ok []
  | e :: rest => do
    let first ← e.steps
    let others ← stepsOfAll rest
    return first ++ others

end

end Expr

end Spreadsheet
