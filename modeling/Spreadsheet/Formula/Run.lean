import Spreadsheet.Formula.Chain
import Spreadsheet.Formula.Group
import Spreadsheet.Formula.Scan

/-!
# From tokens to trees

A run of tokens is read from left to right. An operand is a constant, a cell name, a call or a
group; it may have a sign before it and percent signs behind it, and operators stand between
operands. The runs inside groups and calls are read in the same way, one level deeper, up to a
limit.
-/

namespace Spreadsheet

namespace Run

/-- A token that cannot stand where it does. -/
def unexpected (t : Token) : FormulaError :=
  .parse (.unexpected t.text t.position)

/-- The level inside a group or call that begins with a token, unless that is below the limit. -/
def deeper (limit depth : Nat) (t : Token) : Except FormulaError Nat :=
  if depth < limit then .ok (depth + 1) else .error (.parse (.tooDeep t.text t.position limit))

/-- The tree of a run that has been read: what is pending, the nearest first, and the last operand,
if there is one. -/
def close (pending : List Pending) : Option Expr → Except FormulaError Expr
  | some last => .ok (.ofChain pending last)
  | none =>
    match pending with
    | p :: _ => .error (.parse (.noRightOperand p.op))
    | [] => .error (.parse .emptyExpression)

mutual

/-- Reads a run on. `pending` lists the operands with operators behind them that were read, the
nearest first, and `last` is the operand behind the last operator, if it has been read. -/
def read (limit depth : Nat) (pending : List Pending) (last : Option Expr) (ts : List Token) :
    Except FormulaError Expr :=
  match ts with
  | [] => close pending last
  | t :: rest =>
    match operand? limit depth (t :: rest) with
    | .error e => .error e
    | .ok (some (e, ⟨behind, hb⟩)) =>
      have : behind.length < rest.length + 1 := hb
      if last.isSome then .error (unexpected t)
      else read limit depth pending (some e) behind
    | .ok none =>
      if t.kind ≠ .operator then .error (unexpected t)
      else match last with
        | none =>
          match Operator.signOfSymbol? t.text with
          | none => .error (.parse (.noLeftOperand t.text t.position))
          | some sign =>
            match operand? limit depth rest with
            | .error e => .error e
            | .ok none => .error (.parse (.bareSign sign t.position))
            | .ok (some (e, ⟨behind, hb⟩)) =>
              have : behind.length < rest.length := hb
              read limit depth pending (some (.operator sign [e])) behind
        | some left =>
          if t.text = "%" then read limit depth pending (some (.operator .percent [left])) rest
          else match Operator.ofSymbol? t.text with
            | none => .error (unexpected t)
            | some op => read limit depth (⟨left, op⟩ :: pending) none rest
termination_by 2 * ts.length + 1

/-- The operand at the front of a run, if one begins there, and the tokens behind it. -/
def operand? (limit depth : Nat) (ts : List Token) :
    Except FormulaError (Option (Expr × { rest : List Token // rest.length < ts.length })) :=
  match ts with
  | [] => .ok none
  | t :: rest =>
    match t.kind with
    | .constant =>
      match t.value with
      | some v => .ok (some (.constant v, ⟨rest, by simp⟩))
      | none => .error (unexpected t)
    | .cell => .ok (some (.reference t.text, ⟨rest, by simp⟩))
    | .function =>
      match Builtin.ofName? t.text with
      | none => .error (.unknownFunction t.text)
      | some f =>
        if !rest.head?.any Token.opens then .error (.parse (.bareFunction f t.position))
        else match deeper limit depth t with
          | .error e => .error e
          | .ok inside =>
            match hg : Group.take rest with
            | .error e => .error (.parse e)
            | .ok (inner, behind) =>
              match ha : Group.arguments inner with
              | .error e => .error (.parse e)
              | .ok args =>
                have := Group.spread_lt_of_take hg ha
                match readAll limit inside args with
                | .error e => .error e
                | .ok es =>
                  .ok (some (.apply (.builtin f) es,
                    ⟨behind, Nat.lt_succ_of_lt (Group.length_behind_lt_of_take hg)⟩))
    | .symbol =>
      if !t.opens then .ok none
      else match deeper limit depth t with
        | .error e => .error e
        | .ok inside =>
          match hg : Group.take (t :: rest) with
          | .error e => .error (.parse e)
          | .ok (inner, behind) =>
            if inner.isEmpty then .error (.parse (.emptyGroup t.position))
            else
              have : inner.length < rest.length + 1 := Group.length_lt_of_take hg
              match read limit inside [] none inner with
              | .error e => .error e
              | .ok e => .ok (some (.group e, ⟨behind, Group.length_behind_lt_of_take hg⟩))
    | .operator => .ok none
termination_by 2 * ts.length

/-- Reads each of several runs. -/
def readAll (limit depth : Nat) (args : List (List Token)) : Except FormulaError (List Expr) :=
  match args with
  | [] => .ok []
  | arg :: others =>
    have := Group.spread_cons arg others
    match read limit depth [] none arg with
    | .error e => .error e
    | .ok e =>
      match readAll limit depth others with
      | .error e => .error e
      | .ok es => .ok (e :: es)
termination_by 2 * Group.spread args

end

end Run

/-- How deeply groups and calls may nest if nothing else is said. -/
def defaultNesting : Nat := 256

/-- The part of a formula text that is read: blanks around it and one equals sign before it are
dropped. -/
def formulaBody (text : String) : String :=
  match Text.trimChars text.toList with
  | '=' :: rest => String.ofList rest
  | cs => String.ofList cs

namespace Expr

/-- The tree of a whole list of tokens. -/
def ofTokens (tokens : List Token) (limit : Nat) : Except FormulaError Expr :=
  if tokens.isEmpty then .error (.parse .emptyFormula)
  else Run.read limit 0 [] none tokens

/-- The tree of a formula text. -/
def ofFormula (text : String) (limit : Nat) : Except FormulaError Expr := do
  ofTokens (← tokenize (formulaBody text)) limit

end Expr

end Spreadsheet
