import Spreadsheet.Formula.Builtin
import Spreadsheet.Formula.Operator

/-!
# Operations

Operators and built-in functions are applied alike, to a list of operands, and each takes a certain
number of them.
-/

namespace Spreadsheet

/-- What a formula applies to operands: an operator or a built-in function. -/
inductive Operation
  | operator (op : Operator)
  | builtin (f : Builtin)
  deriving DecidableEq, Repr

/-- The name of an operation in labels and messages. -/
def Operation.name : Operation → String
  | .operator op => op.symbol
  | .builtin f => f.name

/-- How many operands an operation takes; without an upper bound it takes any number from the
least one on. -/
structure Arity where
  least : Nat
  most : Option Nat
  deriving DecidableEq, Repr

namespace Arity

/-- Exactly `n` operands. -/
def exactly (n : Nat) : Arity := ⟨n, some n⟩

/-- Whether a number of operands is accepted. -/
def admits (a : Arity) (n : Nat) : Bool :=
  a.least ≤ n && a.most.all (n ≤ ·)

/-- The numbers accepted, in words. -/
def text (a : Arity) : String :=
  match a.most with
  | some most => if most = a.least then toString most else s!"{a.least} to {most}"
  | none => s!"at least {a.least}"

end Arity

end Spreadsheet
