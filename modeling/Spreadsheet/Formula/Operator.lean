/-!
# Operators

The operators of formulas, how they are written, where they stand and how tightly they bind. `+` and
`-` are written alike as signs and between operands, so a symbol is read by the place it stands in.
-/

namespace Spreadsheet

/-- The operators of formulas. -/
inductive Operator
  /-- The rectangle between two cells. -/
  | range
  /-- The sign `+`. -/
  | identity
  /-- The sign `-`. -/
  | negate
  /-- A hundredth part. -/
  | percent
  | power
  | multiply
  | divide
  | add
  | subtract
  /-- Joining two texts. -/
  | concat
  | equal
  | notEqual
  | lessThan
  | lessEqual
  | greaterThan
  | greaterEqual
  deriving DecidableEq, Repr

/-- Where an operator stands. -/
inductive Fixity
  /-- Before its only operand. -/
  | before
  /-- Between its two operands. -/
  | between
  /-- Behind its only operand. -/
  | behind
  deriving DecidableEq, Repr

namespace Operator

/-- The operator that a symbol stands for behind an operand. -/
def ofSymbol? (symbol : String) : Option Operator :=
  match symbol with
  | ":" => some .range
  | "%" => some .percent
  | "^" => some .power
  | "*" => some .multiply
  | "/" => some .divide
  | "+" => some .add
  | "-" => some .subtract
  | "&" => some .concat
  | "=" => some .equal
  | "<>" => some .notEqual
  | "<" => some .lessThan
  | "<=" => some .lessEqual
  | ">" => some .greaterThan
  | ">=" => some .greaterEqual
  | _ => none

/-- The operator that a symbol stands for before an operand. -/
def signOfSymbol? (symbol : String) : Option Operator :=
  match symbol with
  | "+" => some .identity
  | "-" => some .negate
  | _ => none

/-- The name of an operator in labels and messages; signs are told apart from the operators that
are written like them. -/
def symbol : Operator → String
  | .range => ":"
  | .identity => "unary +"
  | .negate => "unary -"
  | .percent => "%"
  | .power => "^"
  | .multiply => "*"
  | .divide => "/"
  | .add => "+"
  | .subtract => "-"
  | .concat => "&"
  | .equal => "="
  | .notEqual => "<>"
  | .lessThan => "<"
  | .lessEqual => "<="
  | .greaterThan => ">"
  | .greaterEqual => ">="

/-- The symbol as it is written in a formula. -/
def sourceText : Operator → String
  | .identity => "+"
  | .negate => "-"
  | op => op.symbol

/-- Where the operator stands. -/
def fixity : Operator → Fixity
  | .identity | .negate => .before
  | .percent => .behind
  | _ => .between

/-- Whether the operator is a sign. -/
def isSign (op : Operator) : Bool :=
  op.fixity == .before

/-- Whether the operator compares its operands. -/
def isComparison : Operator → Bool
  | .equal | .notEqual | .lessThan | .lessEqual | .greaterThan | .greaterEqual => true
  | _ => false

/-- The strength of a call and of an opening parenthesis, which bind more tightly than any
operator. -/
def callStrength : Nat := 9

@[inherit_doc callStrength]
def groupStrength : Nat := 10

/-- How tightly an operator binds; the greater number binds first. -/
def strength : Operator → Nat
  | .range => 8
  | .identity | .negate => 7
  | .percent => 6
  | .power => 5
  | .multiply | .divide => 4
  | .add | .subtract => 3
  | .concat => 2
  | .equal | .notEqual | .lessThan | .lessEqual | .greaterThan | .greaterEqual => 1

end Operator

end Spreadsheet
