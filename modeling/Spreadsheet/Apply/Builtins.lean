import Spreadsheet.Apply.Aggregate
import Spreadsheet.Apply.Operators
import Spreadsheet.Apply.Real

/-!
# Built-in functions applied to values

All operands are values by the time a function is applied, so the conditional function and the
logical ones evaluate every operand.
-/

namespace Spreadsheet

namespace Builtin

/-- The second value if a condition is true, else the third one, or false if there is none. -/
def chooseBy (operation : String) (condition whenTrue : Value) (whenFalse? : Option Value) :
    Outcome := do
  return if ← condition.toBoolean operation then whenTrue
    else whenFalse?.getD (.boolean false)

/-- A function of one text. -/
def ofText (operation : String) (f : String → Value) (v : Value) : Outcome := do
  return f (← v.toText operation)

/-- What a function does with its operands. -/
def shape (f : Builtin) : Shape :=
  match f with
  | .abs => .unary (Real.everywhere f.name Float.abs)
  | .cos => .unary (Real.everywhere f.name Float.cos)
  | .sin => .unary (Real.everywhere f.name Float.sin)
  | .tan => .unary (Real.everywhere f.name Float.tan)
  | .exp => .unary (Real.everywhere f.name Float.exp)
  | .log => .unaryOrBinary (Real.log f.name)
  | .log10 => .unary (Real.except f.name (· ≤ 0.0) Float.log10)
  | .pi => .nullary (.ok (.number Real.pi))
  | .ceil => .unary (Real.everywhere f.name Float.ceil)
  | .floor => .unary (Real.everywhere f.name Float.floor)
  | .sqrt => .unary (Real.except f.name (· < 0.0) Float.sqrt)
  | .round => .unaryOrBinary (Real.round f.name)
  | .mod => .binary (Real.modulo f.name)
  | .int => .unary (Real.everywhere f.name Float.floor)
  | .power => .binary (Real.power f.name)
  | .max => .variadic (Aggregate.extreme Aggregate.greater f.name)
  | .min => .variadic (Aggregate.extreme Aggregate.lesser f.name)
  | .sum => .variadic (Aggregate.sum f.name)
  | .average => .variadic (Aggregate.mean f.name)
  | .mean => .variadic (Aggregate.mean f.name)
  | .count => .variadic Aggregate.count
  | .and => .variadic (Aggregate.logical (·.all id) f.name)
  | .or => .variadic (Aggregate.logical (·.any id) f.name)
  | .not => .unary fun v => do return .boolean !(← v.toBoolean f.name)
  | .xor => .variadic (Aggregate.logical Aggregate.parity f.name)
  | .choose => .binaryOrTernary (chooseBy f.name)
  | .len => .unary (ofText f.name fun s => .number (Float.ofNat s.length))
  | .upper => .unary (ofText f.name fun s => .text (Text.upper s))
  | .lower => .unary (ofText f.name fun s => .text (Text.lower s))
  | .concat => .variadic (Aggregate.concat f.name)

/-- The number of operands that a function takes. -/
def arity (f : Builtin) : Arity :=
  f.shape.arity

/-- A function on any number of operands. -/
def apply (f : Builtin) (args : List Value) : Outcome :=
  match f.shape.outcome? args with
  | some outcome => outcome
  | none => .error (.argumentCount f.name f.arity args.length)

end Builtin

/-- An operation on evaluated operands. -/
def Operation.apply (operation : Operation) (args : List Value) : Outcome :=
  match operation with
  | .operator op => op.apply args
  | .builtin f => f.apply args

end Spreadsheet
