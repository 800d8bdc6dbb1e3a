import Spreadsheet.Value

/-!
# Tokens

The words of a formula. A token keeps the text it was written with and the byte offset at which it
begins; constants also carry their value.
-/

namespace Spreadsheet

/-- The kinds of tokens. -/
inductive TokenKind
  /-- A parenthesis or a comma. -/
  | symbol
  | operator
  /-- The name of a built-in function. -/
  | function
  /-- A cell name. -/
  | cell
  /-- A number, a text in quotes, or a truth value. -/
  | constant
  deriving DecidableEq, Repr

/-- A token of a formula. -/
structure Token where
  kind : TokenKind
  text : String
  /-- The value of a constant. -/
  value : Option Value := none
  /-- The byte offset in the formula. -/
  position : Nat
  deriving DecidableEq

namespace Token

/-- Whether the token is a given parenthesis or the comma. -/
def isSymbol (t : Token) (s : String) : Bool :=
  t.kind == .symbol && t.text == s

/-- Whether the token opens a group. -/
def opens (t : Token) : Bool := t.isSymbol "("

/-- Whether the token closes a group. -/
def closes (t : Token) : Bool := t.isSymbol ")"

/-- Whether the token separates arguments. -/
def separates (t : Token) : Bool := t.isSymbol ","

/-- How tightly a token binds; `+` and `-` are taken to stand between operands, and a token that
joins nothing binds with strength zero. -/
def strength (t : Token) : Nat :=
  match t.kind with
  | .symbol => if t.text = "(" then Operator.groupStrength else 0
  | .function => Operator.callStrength
  | .operator => ((Operator.ofSymbol? t.text).map Operator.strength).getD 0
  | _ => 0

end Token

end Spreadsheet
