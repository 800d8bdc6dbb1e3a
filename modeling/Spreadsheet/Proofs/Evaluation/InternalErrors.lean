import Spreadsheet.Proofs.Evaluation.OwnErrors
import Spreadsheet.Proofs.Evaluation.Runs
import Spreadsheet.Proofs.Formula.Formed

/-!
# Internal errors never occur

The machine is ready for steps that take more values than there are or leave none, operators for
operands of any number, and the reader of tokens for functions that do not exist. No formula text
leads to any of this: its tokens only call functions that exist, every operator in its tree has the
operands that it needs, and the steps of a tree take what they have put on the stack. So an error is
always one that its user can have caused.

## Main results

* `failsOnly_retrieve`: the errors of an evaluation are those of formulas, cycles and chains.
* `State.depth_pos`: when a formula cell has been resolved, it was counted.
* `evaluate_not_internal`: no evaluation of a formula text fails with an internal error.
-/

namespace Spreadsheet

/-- The errors that only steps, trees and tokens of another origin than a formula text lead to. -/
inductive FormulaError.Internal : FormulaError → Prop
  | tooFewOperands : Internal (.evaluation .tooFewOperands)
  | noValue : Internal (.evaluation .noValue)
  | rangeOfValues : Internal (.evaluation .rangeOfValues)
  | unknownFunction (name : String) : Internal (.unknownFunction name)
  | operandCount (op : Operator) (expected : Arity) (actual : Nat) :
    Internal (.argumentCount op.symbol expected actual)

open FormulaError (Own Internal OfOperands OfReading)

theorem Builtin.name_ne_symbol (f : Builtin) (op : Operator) : f.name ≠ op.symbol := by
  cases f <;> cases op <;> decide

namespace FormulaError

variable {e : FormulaError}

theorem OfReading.not_internal (h : e.OfReading) : ¬ e.Internal := by
  rintro (_ | _) <;> cases h

theorem OfOperands.not_internal {operation : String} (h : e.OfOperands operation) :
    ¬ e.Internal := by
  rintro (_ | _) <;> cases h

theorem not_internal_argumentCount (f : Builtin) (expected : Arity) (actual : Nat) :
    ¬ Internal (.argumentCount f.name expected actual) := by
  intro h
  generalize hname : f.name = name at h
  cases h with
  | operandCount op => exact f.name_ne_symbol op hname

/-- The steps of a formula are never at fault, be its tree of a text or not. -/
theorem Own.not_of_steps (h : e.Own) :
    e ≠ .evaluation .tooFewOperands ∧ e ≠ .evaluation .noValue := by
  constructor
  · rintro rfl
    cases h with
    | reading h => cases h
    | operation _ h => cases h
  · rintro rfl
    cases h with
    | reading h => cases h
    | operation _ h => cases h

end FormulaError

/-! ## Operations and ranges -/

theorem Builtin.not_internal_apply (f : Builtin) (args : List Value) :
    FailsOnly (¬ Internal ·) (f.apply args) := by
  cases h : f.arity.admits args.length with
  | true => exact (failsOnly_apply_of_admits h).mono fun _ => OfOperands.not_internal
  | false =>
    rw [apply_of_not_admits h]
    exact failsOnly_error.2 (FormulaError.not_internal_argumentCount f _ _)

theorem Operator.not_internal_apply {op : Operator} {args : List Value} (hrange : op ≠ .range)
    (h : op.arity.admits args.length = true) : FailsOnly (¬ Internal ·) (op.apply args) :=
  (failsOnly_apply_of_admits hrange h).mono fun _ => OfOperands.not_internal

theorem not_internal_rangeInquiry (options : Options) (start stop : String) :
    (rangeInquiry options start stop).FailsOnly (¬ Internal ·) := by
  refine Inquiry.failsOnly_bind ?_ fun r => ?_
  · change FailsOnly _ (options.rangeBetween start stop)
    rw [Options.rangeBetween]
    split
    · exact failsOnly_error.2 fun h => by cases h
    · split
      · exact failsOnly_error.2 fun h => by cases h
      · exact failsOnly_ok _
  · exact Inquiry.failsOnly_bind (Inquiry.failsOnly_askAll r.names) fun vs =>
      Inquiry.failsOnly_pure _

/-! ## Trees of formulas -/

namespace Expr

variable {options : Options}

theorem not_internal_checkCornersOfAll {es : List Expr}
    (h : ∀ e ∈ es, FailsOnly (¬ Internal ·) e.checkCorners) :
    FailsOnly (¬ Internal ·) (checkCornersOfAll es) := by
  induction es with
  | nil => exact failsOnly_ok ()
  | cons e rest ih =>
    obtain ⟨he, hrest⟩ := List.forall_mem_cons.1 h
    rw [checkCornersOfAll]
    exact failsOnly_bind he fun _ => ih hrest

theorem not_internal_inquiryOfAll {es : List Expr}
    (h : ∀ e ∈ es, (e.inquiry options).FailsOnly (¬ Internal ·)) :
    (inquiryOfAll options es).FailsOnly (¬ Internal ·) := by
  induction es with
  | nil => exact Inquiry.failsOnly_pure []
  | cons e rest ih =>
    obtain ⟨he, hrest⟩ := List.forall_mem_cons.1 h
    rw [inquiryOfAll]
    refine Inquiry.failsOnly_bind he fun v => ?_
    exact Inquiry.failsOnly_bind (ih hrest) fun vs => Inquiry.failsOnly_pure (v :: vs)

/-- An operator with the operands that it needs is applied to as many values. -/
theorem not_internal_operator {op : Operator} {args : List Expr} (hrange : op ≠ .range)
    (hcount : op.arity.admits args.length = true)
    (h : ∀ e ∈ args, (e.inquiry options).FailsOnly (¬ Internal ·)) :
    ((operator op args).inquiry options).FailsOnly (¬ Internal ·) := by
  rw [inquiry, if_neg (by simpa using hrange)]
  refine Inquiry.failsOnly_bind_of_yields (not_internal_inquiryOfAll h)
    (yields_inquiryOfAll options args) fun vs hvs => ?_
  exact Operator.not_internal_apply hrange (by rw [hvs]; exact hcount)

/-- The tree of a formula has corners where its ranges need them, and operands where its operators
need them. -/
theorem Formed.not_internal (options : Options) {e : Expr} (h : e.Formed) :
    FailsOnly (¬ Internal ·) e.checkCorners ∧ (e.inquiry options).FailsOnly (¬ Internal ·) := by
  induction h with
  | constant _ =>
    rw [checkCorners, inquiry]
    exact ⟨failsOnly_ok (), Inquiry.failsOnly_pure _⟩
  | reference s _ =>
    rw [checkCorners, inquiry]
    exact ⟨failsOnly_ok (), fun v => Inquiry.failsOnly_pure v⟩
  | @call f es _ ih =>
    constructor
    · rw [checkCorners, if_neg (by simp)]
      exact not_internal_checkCornersOfAll fun e he => (ih e he).1
    · rw [inquiry, if_neg (by simp)]
      refine Inquiry.failsOnly_bind (not_internal_inquiryOfAll fun e he => (ih e he).2) fun vs => ?_
      exact f.not_internal_apply vs
  | @sign op e hsign _ ih =>
    have hbefore : op.fixity = .before := by simpa [Operator.isSign] using hsign
    have hrange : op ≠ .range := fun hop => by
      rw [hop] at hbefore
      cases hbefore
    have hcount : op.arity.admits 1 = true := by
      rw [Operator.admits_arity_of_not_between (by rw [hbefore]; decide)]
    constructor
    · rw [checkCorners, if_neg (by simpa using hrange)]
      exact not_internal_checkCornersOfAll (by simpa using ih.1)
    · exact not_internal_operator hrange hcount (by simpa using ih.2)
  | percent _ ih =>
    constructor
    · rw [checkCorners, if_neg (by decide)]
      exact not_internal_checkCornersOfAll (by simpa using ih.1)
    · exact not_internal_operator (by decide) rfl (by simpa using ih.2)
  | @between op left right hfixity _ _ _ ihleft ihright =>
    by_cases hrange : op = .range
    · have hcorners : FailsOnly (¬ Internal ·) (corners [left, right]) :=
        (failsOnly_corners_pair left right).mono fun _ => OfOperands.not_internal
      rw [hrange, checkCorners, inquiry, if_pos rfl, if_pos rfl]
      exact ⟨failsOnly_bind hcorners fun _ => failsOnly_ok (),
        Inquiry.failsOnly_bind hcorners fun p => not_internal_rangeInquiry options p.1 p.2⟩
    · have hcount : op.arity.admits 2 = true := by
        rw [Operator.admits_arity_of_between hfixity]
      constructor
      · rw [checkCorners, if_neg (by simpa using hrange)]
        exact not_internal_checkCornersOfAll (by simpa using ⟨ihleft.1, ihright.1⟩)
      · exact not_internal_operator hrange hcount (by simpa using ⟨ihleft.2, ihright.2⟩)
  | group _ ih =>
    rw [checkCorners, inquiry]
    exact ih

end Expr

/-- A formula text has no internal errors, whatever the values of its cells are. -/
theorem not_internal_formulaInquiry (options : Options) (text : String) :
    (formulaInquiry options text).FailsOnly (¬ Internal ·) := by
  rw [formulaInquiry]
  cases he : Expr.ofFormula text options.maxNesting with
  | error err =>
    have hreading := Expr.failsOnly_ofFormula text options.maxNesting err he
    exact failsOnly_error.2 hreading.not_internal
  | ok e =>
    obtain ⟨hcorners, hinquiry⟩ := (Expr.formed_of_ofFormula he).not_internal options
    exact Inquiry.failsOnly_bind (i := .done e.checkCorners) hcorners fun _ => hinquiry

/-! ## Whole evaluations -/

namespace Evaluation

variable {env : Environment} {options : Options} {P : FormulaError → Prop}

theorem failsOnly_run {α : Type} {load : Loader} {i : Inquiry α} (hi : i.FailsOnly P)
    (hload : ∀ name memory, FailsOnly P (load name memory)) (memory : Memory) :
    FailsOnly P (i.run load memory) := by
  intro e he
  rcases Inquiry.own_or_of_run_error hi he with hown | ⟨name, between, _, hfails⟩
  · exact hown
  · exact hload name between e hfails

/-- An evaluation fails only as formulas do, or with a cycle or a chain that is too long; by
induction on the levels. -/
theorem failsOnly_retrieve (hcycle : ∀ name, P (.circularReference name))
    (hdeep : ∀ name limit, P (.evaluation (.chainTooDeep name limit)))
    (hformula : ∀ text, (formulaInquiry options text).FailsOnly P) (levels : Nat)
    (path : List String) (name : String) (memory : Memory) :
    FailsOnly P (retrieve env options levels path name memory) := by
  induction levels generalizing path name memory with
  | zero =>
    intro e he
    cases failsToLoad_of_retrieve he with
    | cycle _ _ _ => exact hcycle name
    | tooDeep _ _ => exact hdeep name _
  | succ levels ih =>
    intro e he
    cases failsToLoad_of_retrieve he with
    | cycle _ _ _ => exact hcycle name
    | within _ _ hrun =>
      exact failsOnly_run (hformula _) (fun other memory => ih (name :: path) other memory) memory
        e hrun

theorem not_internal_evaluateFormula (env : Environment) (options : Options) (text : String) :
    FailsOnly (¬ Internal ·) (evaluateFormula env options text) := by
  intro e he
  have hcycle : ∀ name, ¬ Internal (.circularReference name) := fun name h => by cases h
  have hdeep : ∀ name limit, ¬ Internal (.evaluation (.chainTooDeep name limit)) :=
    fun name limit h => by cases h
  exact failsOnly_run (not_internal_formulaInquiry options text)
    (failsOnly_retrieve hcycle hdeep (not_internal_formulaInquiry options) _ []) ∅ e
    (run_of_evaluateFormula_eq_error he)

/-- The steps of a tree take no more values than there are and leave one. -/
theorem not_of_steps_evaluate (env : Environment) (options : Options) (e : Expr) :
    FailsOnly (fun err => err ≠ .evaluation .tooFewOperands ∧ err ≠ .evaluation .noValue)
      (e.evaluate env options) := by
  have hformula : ∀ text, (formulaInquiry options text).FailsOnly fun err =>
      err ≠ .evaluation .tooFewOperands ∧ err ≠ .evaluation .noValue := fun text =>
    (failsOnly_formulaInquiry options text).mono fun _ => Own.not_of_steps
  have hload : ∀ name memory, FailsOnly
      (fun err => err ≠ .evaluation .tooFewOperands ∧ err ≠ .evaluation .noValue)
      (retrieve env options options.maxReferences [] name memory) :=
    failsOnly_retrieve (fun _ => by simp) (fun _ _ => by simp) hformula _ []
  have hrun := failsOnly_run
    ((e.failsOnly_checkedInquiry options).mono fun _ h => h.own.not_of_steps) hload ∅
  rw [Expr.evaluate_eq_retrieve]
  exact failsOnly_map hrun Prod.fst

/-! ## The formula cells that are being resolved -/

/-- The formula cell that the steps of a frame resolve. -/
def Frame.cell? : Frame → Option String
  | .steps _ cell => cell
  | .range .. => none

theorem Frame.Asks.cells_eq {name : String} {before after : List Frame}
    (h : Asks name before after) : after.filterMap cell? = before.filterMap cell? := by
  cases h <;> rfl

namespace State

variable {s t : State}

/-- Every formula cell that is being resolved is counted. -/
def Counted (s : State) : Prop :=
  s.depth = (s.frames.filterMap Frame.cell?).length

theorem Counted.moves (hs : s.Counted) (h : Moves env options s t) : t.Counted := by
  rw [Counted] at hs
  cases h with
  | @leave cell rest h =>
    rw [h] at hs
    cases cell with
    | none => exact hs
    | some name => exact congrArg (· - 1) hs
  | push h | apply h _ _ | range h _ | collect h _ _ =>
    rw [h] at hs
    exact hs
  | load h _ => exact hs.trans (congrArg List.length h.cells_eq.symm)
  | enter h _ _ _ _ _ =>
    exact congrArg (· + 1) (hs.trans (congrArg List.length h.cells_eq.symm))

theorem counted_of_reaches {steps : List Step} (h : Reaches env options (start steps) s) :
    s.Counted :=
  h.invariant rfl fun _ _ _ => Counted.moves

/-- When a formula cell has been resolved, it was counted. -/
theorem depth_pos {steps : List Step} {name : String} {rest : List Frame}
    (h : Reaches env options (start steps) s) (hframes : s.frames = .steps [] (some name) :: rest) :
    0 < s.depth := by
  rw [counted_of_reaches h, hframes]
  exact Nat.succ_pos _

end State

end Evaluation

open Evaluation

/-- Nothing that is ready for steps, trees or tokens of another origin is ever met. No formula text
fails with an internal error; the steps of a tree, be it of a text or not, take no more values than
there are and leave one; whenever the machine has resolved a formula cell, it has counted it; and a
function looks at operands only of the number that it takes. -/
theorem evaluate_not_internal (env : Environment) (options : Options) :
    (∀ text e, evaluateFormula env options text = .error e → ¬ e.Internal) ∧
      (∀ e : Expr, e.evaluate env options ≠ .error (.evaluation .tooFewOperands) ∧
        e.evaluate env options ≠ .error (.evaluation .noValue)) ∧
      (∀ steps s name rest, State.Reaches env options (.start steps) s →
        s.frames = .steps [] (some name) :: rest → 0 < s.depth) ∧
      ∀ (f : Builtin) (args : List Value),
        if f.arity.admits args.length then f.shape.outcome? args = some (f.apply args)
        else f.apply args = .error (.argumentCount f.name f.arity args.length) := by
  refine ⟨not_internal_evaluateFormula env options, fun e => ?_,
    fun steps s name rest hreaches hframes => State.depth_pos hreaches hframes, fun f args => ?_⟩
  · have hsteps := not_of_steps_evaluate env options e
    exact ⟨fun h => (hsteps _ h).1 rfl, fun h => (hsteps _ h).2 rfl⟩
  · split
    · next h => exact Builtin.outcome?_of_admits h
    · next h => exact Builtin.apply_of_not_admits (by simpa using h)

/-- A wrong number of operands is that of a function, never that of an operator. -/
theorem evaluate_not_internal_abs :
    evaluateFormula (fun _ => none) {} "ABS(1, 2)" =
        .error (.argumentCount "ABS" (.exactly 1) 2) ∧
      ¬ Internal (.argumentCount "ABS" (.exactly 1) 2) := by
  have hfails : evaluateFormula (fun _ => none) {} "ABS(1, 2)" =
      .error (.argumentCount "ABS" (.exactly 1) 2) := by
    rw [evaluateFormula_eq_retrieve]
    decide +kernel
  exact ⟨hfails, (evaluate_not_internal (fun _ => none) {}).1 _ _ hfails⟩

end Spreadsheet
