import Spreadsheet.Proofs.Evaluation.Agreement
import Spreadsheet.Proofs.Evaluation.References

/-!
# Evaluation without a memory

The plain reading of a formula: its operands are evaluated from left to right, and a reference is
evaluated anew each time it is met. The path holds the formula cells that led to where the
evaluation is; a cell that is met again on its own path needs its own value. Nothing bounds the
recursion, so on a sheet without end it need not have an outcome.

## Main results

* `formulaValue_eq`: evaluating a formula is answering its questions without a memory.
* `cellValue_of_formula`: so is evaluating a formula cell that is not on the path.
-/

namespace Spreadsheet

/-- An evaluation that may go on for ever, and then has no outcome at all. -/
abbrev Recursion := ExceptT FormulaError Option

namespace Recursion

variable {α β : Type}

/-- An evaluation that has come to its end. -/
def ended (r : Except FormulaError α) : Recursion α := ExceptT.mk (some r)

@[simp] theorem ended_ok_bind (a : α) (f : α → Recursion β) : (ended (.ok a) >>= f) = f a := rfl

@[simp] theorem ended_error_bind (e : FormulaError) (f : α → Recursion β) :
    (ended (.error e) >>= f) = ended (.error e) := rfl

end Recursion

namespace Environment

open Recursion (ended)

mutual

/-- The value of a formula: the corners of all its ranges are looked at first. -/
def formulaValue (env : Environment) (options : Options) (path : List String) (e : Expr) :
    Recursion Value := do
  ended e.checkCorners
  env |>.nodeValue options path e
partial_fixpoint

/-- The value of an expression: operands from left to right, then the operation. A range is the list
of the values of its cells, column by column. -/
def nodeValue (env : Environment) (options : Options) (path : List String) (e : Expr) :
    Recursion Value :=
  match e with
  | .constant v => return v
  | .reference name => env |>.cellValue options path (canonicalName name)
  | .group inner => env |>.nodeValue options path inner
  | .apply operation args =>
    if operation = .operator .range then do
      let (start, stop) ← ended (Expr.corners args)
      let r ← ended (options.rangeBetween start stop)
      return .list (← r.names.mapM fun name => env |>.cellValue options path name)
    else do ended (operation.apply (← args.mapM fun e => env |>.nodeValue options path e))
partial_fixpoint

/-- The value of a cell: its formula is evaluated with the cell on the path. -/
def cellValue (env : Environment) (options : Options) (path : List String) (name : String) :
    Recursion Value :=
  if name ∈ path then ended (.error (.circularReference name))
  else
    match env name with
    | none => return .empty
    | some (.value v) => return v
    | some (.formula text) => do
      let e ← ended (Expr.ofFormula text options.maxNesting)
      env |>.formulaValue options (name :: path) e
partial_fixpoint

end

end Environment

namespace Forgetful

open Recursion (ended)
open Environment (formulaValue nodeValue cellValue)

/-! ## The same questions -/

variable {env : Environment} {options : Options} {α β : Type}

/-- Answers the questions of an inquiry without a memory. -/
def answer (load : String → Recursion Value) : Inquiry α → Recursion α
  | .done r => ended r
  | .ask name next => do answer load (next (← load name))

theorem answer_bind (load : String → Recursion Value) (i : Inquiry α) (f : α → Inquiry β) :
    answer load (i >>= f) = answer load i >>= fun a => answer load (f a) := by
  induction i with
  | done r => cases r <;> rfl
  | ask name next ih =>
    rw [Inquiry.ask_bind, answer, answer, bind_assoc]
    exact congrArg (load name >>= ·) (funext ih)

theorem answer_askAll (load : String → Recursion Value) (names : List String) :
    answer load (Inquiry.askAll names) = names.mapM load := by
  induction names with
  | nil => rfl
  | cons name rest ih =>
    rw [Inquiry.askAll, answer, List.mapM_cons]
    refine congrArg (load name >>= ·) (funext fun v => ?_)
    rw [answer_bind, ih]
    rfl

theorem answer_rangeInquiry (load : String → Recursion Value) (start stop : String) :
    answer load (rangeInquiry options start stop) = do
      let r ← ended (options.rangeBetween start stop)
      return .list (← r.names.mapM load) := by
  rw [rangeInquiry]
  cases options.rangeBetween start stop with
  | error e => rfl
  | ok r =>
    rw [Inquiry.done_ok_bind, answer_bind, answer_askAll]
    rfl

mutual

/-- Evaluating an expression without a memory is answering its questions in the same way. -/
theorem nodeValue_eq (path : List String) : (e : Expr) →
    nodeValue env options path e = answer (cellValue env options path) (e.inquiry options)
  | .constant v => by
    rw [nodeValue, Expr.inquiry]
    rfl
  | .reference name => by
    rw [nodeValue, Expr.inquiry, answer]
    exact (bind_pure _).symm
  | .group inner => by
    rw [nodeValue, Expr.inquiry]
    exact nodeValue_eq path inner
  | .apply operation args => by
    rw [nodeValue, Expr.inquiry]
    split
    · cases Expr.corners args with
      | error e => rfl
      | ok p => exact (answer_rangeInquiry _ p.1 p.2).symm
    · rw [answer_bind, ← mapM_nodeValue path args]
      rfl

theorem mapM_nodeValue (path : List String) : (es : List Expr) →
    (es.mapM fun e => nodeValue env options path e) =
      answer (cellValue env options path) (Expr.inquiryOfAll options es)
  | [] => rfl
  | e :: rest => by
    rw [List.mapM_cons, Expr.inquiryOfAll, answer_bind, nodeValue_eq path e]
    refine congrArg (_ >>= ·) (funext fun v => ?_)
    rw [answer_bind, mapM_nodeValue path rest]
    rfl

end

theorem formulaValue_eq (path : List String) (e : Expr) :
    formulaValue env options path e =
      answer (cellValue env options path) (e.checkedInquiry options) := by
  rw [formulaValue, Expr.checkedInquiry, nodeValue_eq, answer_bind]
  rfl

theorem cellValue_of_formula {path : List String} {name text : String} (hpath : name ∉ path)
    (henv : env name = some (.formula text)) :
    cellValue env options path name =
      answer (cellValue env options (name :: path)) (formulaInquiry options text) := by
  rw [cellValue, if_neg hpath, henv, formulaInquiry, answer_bind]
  exact congrArg (ended (Expr.ofFormula text options.maxNesting) >>= ·)
    (funext fun e => formulaValue_eq (name :: path) e)

theorem cellValue_of_plain {path : List String} {name : String} {v : Value} (hpath : name ∉ path)
    (h : env.plain? name = some v) : cellValue env options path name = ended (.ok v) := by
  rw [cellValue, if_neg hpath]
  rcases Environment.plain?_eq_some.1 h with ⟨henv, rfl⟩ | henv
  · rw [henv]
    rfl
  · rw [henv]
    rfl

end Forgetful

end Spreadsheet
