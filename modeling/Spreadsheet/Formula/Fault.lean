import Spreadsheet.Formula.Operation
import Spreadsheet.Grid.Fault

/-!
# Faults of formulas

A formula can fail in three stages: its text is not made of tokens, its tokens make no expression,
or its expression has no value. Each cause is a constructor; the wording is in `message`.
-/

namespace Spreadsheet

/-- Why tokens make no expression. Positions are byte offsets in the formula text. -/
inductive ParseFault
  /-- There are no tokens. -/
  | emptyFormula
  /-- An operand is expected where nothing is left. -/
  | emptyExpression
  /-- A token that cannot stand where it does. -/
  | unexpected (text : String) (position : Nat)
  /-- An operator with nothing behind it. -/
  | noRightOperand (op : Operator)
  /-- An operator that is no sign, with nothing before it. -/
  | noLeftOperand (text : String) (position : Nat)
  /-- A sign without an operand directly behind it. -/
  | bareSign (sign : Operator) (position : Nat)
  /-- A function name without an argument list. -/
  | bareFunction (f : Builtin) (position : Nat)
  /-- Parentheses with nothing between them. -/
  | emptyGroup (position : Nat)
  /-- A group or call below the nesting limit. -/
  | tooDeep (text : String) (position : Nat) (limit : Nat)
  /-- A group is expected where another token stands. -/
  | noGroup (text : String) (position : Nat)
  /-- A group is expected where nothing is left. -/
  | noGroupAtEnd
  /-- An opening parenthesis that is never closed. -/
  | unclosed (position : Nat)
  /-- A closing parenthesis that was never opened. -/
  | unopened (position : Nat)
  /-- An argument list with a parenthesis that is never closed. -/
  | unclosedInArguments
  /-- Nothing stands before a comma. -/
  | noArgumentBefore (position : Nat)
  /-- Nothing stands behind the last comma. -/
  | noArgumentAfter (position : Nat)
  deriving DecidableEq, Repr

/-- Why an expression has no value, where no more specific cause is known. -/
inductive EvaluationFault
  /-- The result is infinite or no number. -/
  | notFinite (operation : String)
  /-- The operand lies outside the domain of a function. -/
  | undefinedFor (operation : String) (operand : String)
  /-- A range operator was applied to values. -/
  | rangeOfValues
  /-- A range has more cells than the limit. -/
  | rangeTooLarge (start stop : String) (cells limit : Nat)
  /-- More formula cells than the limit are being resolved at once. -/
  | chainTooDeep (name : String) (limit : Nat)
  /-- An operation found too few operands. -/
  | tooFewOperands
  /-- The steps of a formula left no value. -/
  | noValue
  deriving DecidableEq, Repr

/-- Why a formula fails. -/
inductive FormulaError
  /-- No token begins at a byte offset; the text from there to the next blank is shown. -/
  | lex (position : Nat) (fragment : String)
  | parse (fault : ParseFault)
  | evaluation (fault : EvaluationFault)
  /-- A name that is called as a function and is none. -/
  | unknownFunction (name : String)
  /-- An operation with the wrong number of operands. -/
  | argumentCount (operation : String) (expected : Arity) (actual : Nat)
  /-- An operand of the wrong type. -/
  | typeMismatch (operation : String) (operand : String)
  | divisionByZero (operation : String)
  /-- A reference that names no cell or range of the grid. -/
  | invalidReference (cause : RangeError)
  /-- A formula cell that needs its own value. -/
  | circularReference (name : String)
  deriving DecidableEq, Repr

/-- The stage in which a formula fails. -/
inductive Stage
  | lex
  | parse
  | evaluation
  deriving DecidableEq, Repr

namespace ParseFault

/-- The text of a fault. -/
def message : ParseFault → String
  | .emptyFormula => "empty formula"
  | .emptyExpression => "empty expression"
  | .unexpected text position => s!"unexpected '{text}' at position {position}"
  | .noRightOperand op => s!"operator '{op.sourceText}' is missing its right operand"
  | .noLeftOperand text position =>
    s!"operator '{text}' at position {position} is missing its left operand"
  | .bareSign sign position => s!"{sign.symbol} at position {position} must be followed by a value"
  | .bareFunction f position =>
    s!"function {f.name} at position {position} must be followed by '('"
  | .emptyGroup position => s!"empty parentheses at position {position}"
  | .tooDeep text position limit =>
    s!"'{text}' at position {position} nests deeper than {limit} levels"
  | .noGroup text position => s!"expected '(' at position {position}, found '{text}'"
  | .noGroupAtEnd => "expected '(' at end of formula"
  | .unclosed position => s!"unmatched '(' at position {position}"
  | .unopened position => s!"unmatched ')' at position {position}"
  | .unclosedInArguments => "unmatched '(' in argument list"
  | .noArgumentBefore position => s!"empty argument before ',' at position {position}"
  | .noArgumentAfter position => s!"empty argument after ',' at position {position}"

end ParseFault

namespace EvaluationFault

/-- The text of a fault. -/
def message : EvaluationFault → String
  | .notFinite operation => s!"{operation} produced a non-finite result"
  | .undefinedFor operation operand => s!"{operation} is undefined for {operand}"
  | .rangeOfValues => s!"{Operator.range.symbol} must be applied to cell references"
  | .rangeTooLarge start stop cells limit =>
    s!"range {start}:{stop} spans {cells} cells, more than the limit of {limit}"
  | .chainTooDeep name limit => s!"reference chain at {name} is deeper than {limit} formula cells"
  | .tooFewOperands => "operand stack underflow"
  | .noValue => "formula produced no value"

end EvaluationFault

namespace FormulaError

/-- The text of an error. -/
def message : FormulaError → String
  | .lex position fragment => s!"Lex error at position {position}: unrecognized input '{fragment}'"
  | .parse fault => "Parse error: " ++ fault.message
  | .evaluation fault => "Evaluation error: " ++ fault.message
  | .unknownFunction name => "Unknown function: " ++ name
  | .argumentCount operation expected actual =>
    s!"Wrong number of arguments for {operation}: expected {expected.text}, got {actual}"
  | .typeMismatch operation operand => s!"{operation} cannot accept {operand}"
  | .divisionByZero operation => "Division by zero in " ++ operation
  | .invalidReference cause => "Invalid reference: " ++ cause.message
  | .circularReference name => "Circular reference detected involving cell " ++ name

/-- The stage that an error belongs to. -/
def stage : FormulaError → Stage
  | .lex .. => .lex
  | .parse _ => .parse
  | _ => .evaluation

end FormulaError

end Spreadsheet
