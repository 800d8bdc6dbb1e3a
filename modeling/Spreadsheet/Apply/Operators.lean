import Spreadsheet.Apply.Shape

/-!
# Operators applied to values

Arithmetic converts its operands to numbers from left to right and has finite results. Comparison
needs two scalars. The range operator never applies to values: its operands have to be cell names,
which are looked at before anything is evaluated.
-/

namespace Spreadsheet

namespace Operator

/-- What a comparison operator says of an order. -/
def holds : Operator → Ordering → Bool
  | .equal, o => o == .eq
  | .notEqual, o => o != .eq
  | .lessThan, o => o == .lt
  | .lessEqual, o => o != .gt
  | .greaterThan, o => o == .gt
  | .greaterEqual, o => o != .lt
  | _, _ => false

/-- An arithmetic operator on two numbers; no other operator takes two numbers. -/
def arithmetic (op : Operator) (x y : Float) : Outcome :=
  match op with
  | .add => finite op.symbol (x + y)
  | .subtract => finite op.symbol (x - y)
  | .multiply => finite op.symbol (x * y)
  | .divide =>
    if y == 0.0 then .error (.divisionByZero op.symbol) else finite op.symbol (x / y)
  | .power => finite op.symbol (Float.pow x y)
  | _ => .error (.unknownFunction op.symbol)

/-- An operator on one operand. -/
def applyOne (op : Operator) (v : Value) : Outcome :=
  match op with
  | .identity => do return .number (← v.toNumber op.symbol)
  | .negate => do return .number (-(← v.toNumber op.symbol))
  | .percent => do return .number ((← v.toNumber op.symbol) / 100.0)
  | _ => .error (.argumentCount op.symbol (.exactly 2) 1)

/-- An operator on two operands. -/
def applyTwo (op : Operator) (v w : Value) : Outcome :=
  if op = .concat then do
    let s ← v.toText op.symbol
    let t ← w.toText op.symbol
    return .text (s ++ t)
  else if op.isComparison then do
    return .boolean (op.holds (← v.order w op.symbol))
  else do
    let x ← v.toNumber op.symbol
    let y ← w.toNumber op.symbol
    op.arithmetic x y

/-- The number of operands that an operator takes. -/
def arity (op : Operator) : Arity :=
  .exactly (if op.fixity = .between then 2 else 1)

/-- An operator on any number of operands. -/
def apply (op : Operator) (args : List Value) : Outcome :=
  match op, args with
  | .range, _ => .error (.evaluation .rangeOfValues)
  | op, [v] => op.applyOne v
  | op, [v, w] => op.applyTwo v w
  | op, args => .error (.argumentCount op.symbol op.arity args.length)

end Operator

end Spreadsheet
