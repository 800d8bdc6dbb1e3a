import Spreadsheet.Formula.Expr

/-!
# From a chain of operands to a tree

A run of operands with operators between them is turned into a tree from right to left. Each operand
and the operator behind it are grafted onto the tree of everything further right: they go down its
left edge past the operators that bind no more tightly, so that tight operators end up below loose
ones and operators of one strength associate to the left.

```text
1 ^ 2 * 3 + 4      graft  3 +  onto  4              gives  [3 + 4]
                   graft  2 *  onto  [3 + 4]        gives  [[2 * 3] + 4]
                   graft  1 ^  onto  [[2 * 3] + 4]  gives  [[[1 ^ 2] * 3] + 4]
```

A difference is written as the sum with the negated right operand.
-/

namespace Spreadsheet

/-- An operand and the operator behind it, waiting for the right operand. -/
structure Pending where
  left : Expr
  op : Operator

/-- Whether an operator takes the left operand of `inner` over. It goes past an operator between
operands that binds no more tightly, and past one behind its operand that binds less tightly, but
never past a sign. -/
def Operator.descends (op inner : Operator) : Bool :=
  match inner.fixity with
  | .between => inner.strength ≤ op.strength
  | .behind => inner.strength < op.strength
  | .before => false

namespace Expr

/-- An operator between two trees. An operator that binds more tightly than a sign takes the operand
of the sign for its own, so that the sign applies to the whole: `-A1:A3` negates the range. -/
def place (op : Operator) (right : Expr) : Expr → Expr
  | .apply (.operator sign) [operand] =>
    if sign.isSign && sign.strength < op.strength then
      .operator sign [place op right operand]
    else .operator op [.operator sign [operand], right]
  | left => .operator op [left, right]

/-- An operator token between two trees; a difference becomes a sum. -/
def join (left : Expr) (op : Operator) (right : Expr) : Expr :=
  if op = .subtract then place .add (.operator .negate [right]) left
  else place op right left

/-- Joins an operand and an operator with the tree to their right, down its left edge. -/
def graft (left : Expr) (op : Operator) : Expr → Expr
  | .apply (.operator inner) (first :: others) =>
    if op.descends inner then .operator inner (graft left op first :: others)
    else join left op (.operator inner (first :: others))
  | right => join left op right

/-- The tree of a chain: what is pending, the nearest first, joined with the last operand. -/
def ofChain (pending : List Pending) (last : Expr) : Expr :=
  pending.foldl (fun right p => graft p.left p.op right) last

end Expr

end Spreadsheet
