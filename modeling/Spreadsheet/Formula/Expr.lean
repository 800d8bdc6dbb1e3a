import Spreadsheet.Value

/-!
# Expressions

The tree of a formula. Operators and functions share one kind of node, an operation applied to a
list of operands; parentheses are kept as nodes of their own. `display` writes a tree with every
operation delimited, so that the text shows how the formula was understood.
-/

namespace Spreadsheet

/-- The tree of a formula. -/
inductive Expr
  | constant (value : Value)
  /-- A cell name, as written. -/
  | reference (name : String)
  | apply (operation : Operation) (args : List Expr)
  /-- A parenthesised expression. -/
  | group (inner : Expr)
  deriving Inhabited

namespace Expr

/-! ## Equality -/

mutual

/-- Whether two trees are the same. -/
def decideEq : (e f : Expr) → Decidable (e = f)
  | .constant v, .constant w => if h : v = w then isTrue (by rw [h]) else isFalse (by simpa using h)
  | .reference s, .reference t =>
    if h : s = t then isTrue (by rw [h]) else isFalse (by simpa using h)
  | .apply o es, .apply p fs =>
    if h : o = p then
      match decideEqAll es fs with
      | isTrue hs => isTrue (by rw [h, hs])
      | isFalse hs => isFalse fun e => hs (Expr.apply.inj e).2
    else isFalse fun e => h (Expr.apply.inj e).1
  | .group e, .group f =>
    match decideEq e f with
    | isTrue h => isTrue (by rw [h])
    | isFalse h => isFalse (by simpa using h)
  | .constant _, .reference _ | .constant _, .apply .. | .constant _, .group _ => isFalse nofun
  | .reference _, .constant _ | .reference _, .apply .. | .reference _, .group _ => isFalse nofun
  | .apply .., .constant _ | .apply .., .reference _ | .apply .., .group _ => isFalse nofun
  | .group _, .constant _ | .group _, .reference _ | .group _, .apply .. => isFalse nofun

/-- Whether two lists of trees are the same. -/
def decideEqAll : (es fs : List Expr) → Decidable (es = fs)
  | [], [] => isTrue rfl
  | [], _ :: _ | _ :: _, [] => isFalse nofun
  | e :: es, f :: fs =>
    match decideEq e f, decideEqAll es fs with
    | isTrue h, isTrue hs => isTrue (by rw [h, hs])
    | isFalse h, _ => isFalse fun e => h (List.cons.inj e).1
    | _, isFalse hs => isFalse fun e => hs (List.cons.inj e).2

end

instance : DecidableEq Expr := decideEq

/-! ## Nodes -/

/-- An operator applied to operands. -/
abbrev operator (op : Operator) (args : List Expr) : Expr := .apply (.operator op) args

/-- The operands of a node, in order. -/
def children : Expr → List Expr
  | .constant _ | .reference _ => []
  | .apply _ args => args
  | .group inner => [inner]

/-- Whether a node is a constant. -/
def isConstant : Expr → Bool
  | .constant _ => true
  | _ => false

/-- Whether all operands of a node are constants. -/
def isTerminal (e : Expr) : Bool :=
  e.children.all isConstant

/-- The name of a node: of its operation, its cell, or the text of its value. -/
def label : Expr → String
  | .constant v => v.display
  | .reference name => name
  | .apply operation _ => operation.name
  | .group _ => "("

/-! ## The text of a tree -/

/-- A name with a list of operands in parentheses. -/
def displayCall (name : String) (args : List String) : String :=
  name ++ "(" ++ ", ".intercalate args ++ ")"

/-- An operation with its operands. An operator with the operands that it needs stands in brackets
in its place; with any other number of operands it is written like a call. -/
def displayApply (operation : Operation) (args : List String) : String :=
  match operation with
  | .builtin f => displayCall f.name args
  | .operator op =>
    match op.fixity, args with
    | .before, [x] => "[" ++ op.sourceText ++ x ++ "]"
    | .between, [x, y] => "[" ++ x ++ " " ++ op.symbol ++ " " ++ y ++ "]"
    | .behind, [x] => "[" ++ x ++ op.symbol ++ "]"
    | _, args => displayCall op.symbol args

mutual

/-- The fully delimited text of a tree: operators in brackets, groups in parentheses. -/
def display : Expr → String
  | .constant (.text s) => "\"" ++ s ++ "\""
  | .constant v => v.display
  | .reference name => name
  | .apply operation args => displayApply operation (displayAll args)
  | .group inner => "(" ++ inner.display ++ ")"

/-- The texts of several trees. -/
def displayAll : List Expr → List String
  | [] => []
  | e :: rest => e.display :: displayAll rest

end

end Expr

end Spreadsheet
