import Spreadsheet.Proofs.Evaluation.Inquiry
import Spreadsheet.Proofs.Grid.Walk
import Mathlib.Data.List.Induction

/-!
# What the steps of an expression ask

The steps of an expression leave one value on the stack. Seen as an inquiry, they ask for the same
cells and come to the same result as the expression itself, taken apart node by node: operands from
left to right, then the operation. The corners of all ranges are looked at beforehand, so a bad one
is found before any question is asked.

## Main results

* `steps_map_unit`: an expression has steps exactly if the corners of all its ranges are cell names.
* `inquiryAll_steps`: the steps of an expression put its value on the stack.
-/

namespace Spreadsheet

/-! ## Expressions as inquiries -/

/-- The rectangle between two corners, if it is not larger than a range may be. -/
def Options.rangeBetween (options : Options) (start stop : String) : Except FormulaError Range :=
  match Range.ofNames start stop with
  | .error e => .error (.invalidReference e)
  | .ok r =>
    if options.maxRangeCells < r.count then
      .error (.evaluation (.rangeTooLarge start stop r.count options.maxRangeCells))
    else .ok r

/-- Asks for every cell between two corners. -/
def rangeInquiry (options : Options) (start stop : String) : Inquiry Value := do
  let r ← .done (options.rangeBetween start stop)
  return .list (← Inquiry.askAll r.names)

namespace Expr

/-- The canonical names of the corners of a range. -/
def corners : List Expr → Except FormulaError (String × String)
  | [start, stop] => do return (← start.corner, ← stop.corner)
  | args => .error (.argumentCount Operator.range.symbol (.exactly 2) args.length)

mutual

/-- Looks at the corners of all ranges, from left to right. -/
def checkCorners : Expr → Except FormulaError Unit
  | .constant _ | .reference _ => .ok ()
  | .group inner => inner.checkCorners
  | .apply operation args =>
    if operation = .operator .range then do let _ ← corners args
    else checkCornersOfAll args

/-- Looks at the corners of all ranges of several expressions. -/
def checkCornersOfAll : List Expr → Except FormulaError Unit
  | [] => .ok ()
  | e :: rest => do
    e.checkCorners
    checkCornersOfAll rest

end

mutual

/-- The value of an expression as an inquiry. -/
def inquiry (options : Options) : Expr → Inquiry Value
  | .constant v => pure v
  | .reference name => .ask (canonicalName name) pure
  | .group inner => inner.inquiry options
  | .apply operation args =>
    if operation = .operator .range then do
      let (start, stop) ← .done (corners args)
      rangeInquiry options start stop
    else do .done (operation.apply (← inquiryOfAll options args))

/-- The values of several expressions, from left to right. -/
def inquiryOfAll (options : Options) : List Expr → Inquiry (List Value)
  | [] => pure []
  | e :: rest => do return (← e.inquiry options) :: (← inquiryOfAll options rest)

end

/-- The value of a formula: the corners first, then the rest. -/
def checkedInquiry (options : Options) (e : Expr) : Inquiry Value := do
  .done e.checkCorners
  e.inquiry options

end Expr

/-! ## Steps as inquiries -/

namespace Step

/-- Replaces the top `count` values of a stack by what `f` makes of them. -/
def replaceTop (count : Nat) (f : List Value → Outcome) (stack : List Value) :
    Except FormulaError (List Value) :=
  match Evaluation.takeTop count stack [] with
  | none => .error (.evaluation .tooFewOperands)
  | some (args, rest) => do return (← f args) :: rest

/-- What one step makes of a stack. -/
def inquiry (options : Options) (stack : List Value) : Step → Inquiry (List Value)
  | .push v => pure (v :: stack)
  | .load name => .ask name fun v => pure (v :: stack)
  | .range start stop => do return (← rangeInquiry options start stop) :: stack
  | .apply operation count => .done (replaceTop count operation.apply stack)

/-- What steps make of a stack, one after the other. -/
def inquiryAll (options : Options) : List Step → List Value → Inquiry (List Value)
  | [], stack => pure stack
  | step :: todo, stack => do inquiryAll options todo (← step.inquiry options stack)

theorem inquiryAll_append (options : Options) (first others : List Step) (stack : List Value) :
    inquiryAll options (first ++ others) stack =
      inquiryAll options first stack >>= inquiryAll options others := by
  induction first generalizing stack with
  | nil => rfl
  | cons step todo ih =>
    simp only [List.cons_append, inquiryAll, bind_assoc]
    exact congrArg (step.inquiry options stack >>= ·) (funext ih)

end Step

/-- Values that were put on a stack one after the other are taken off in their order. -/
theorem takeTop_reverse_append (vs stack taken : List Value) :
    Evaluation.takeTop vs.length (vs.reverse ++ stack) taken = some (vs ++ taken, stack) := by
  induction vs using List.reverseRec generalizing taken with
  | nil => rfl
  | append_singleton vs v ih =>
    rw [List.length_append, List.reverse_append]
    exact (ih (v :: taken)).trans (by simp)

theorem replaceTop_reverse_append (f : List Value → Outcome) (vs stack : List Value) :
    Step.replaceTop vs.length f (vs.reverse ++ stack) = (f vs).map (· :: stack) := by
  rw [Step.replaceTop, takeTop_reverse_append, List.append_nil]
  dsimp only
  cases f vs <;> rfl

/-! ## Corners -/

namespace Expr

theorem rangeStep_eq (args : List Expr) :
    rangeStep args = (corners args).map fun p => .range p.1 p.2 := by
  match args with
  | [start, stop] =>
    rw [rangeStep, corners]
    cases start.corner with
    | error e => rfl
    | ok p => cases stop.corner <;> rfl
  | [] | [_] | _ :: _ :: _ :: _ => rfl

mutual

theorem steps_map_unit : (e : Expr) → e.steps.map (fun _ => ()) = e.checkCorners
  | .constant _ => rfl
  | .reference _ => rfl
  | .group inner => by
    rw [steps, checkCorners]
    exact steps_map_unit inner
  | .apply operation args => by
    rw [steps, checkCorners]
    split
    · rw [rangeStep_eq]
      cases corners args <;> rfl
    · rw [← stepsOfAll_map_unit args]
      cases stepsOfAll args <;> rfl

theorem stepsOfAll_map_unit :
    (es : List Expr) → (stepsOfAll es).map (fun _ => ()) = checkCornersOfAll es
  | [] => rfl
  | e :: rest => by
    rw [stepsOfAll, checkCornersOfAll, ← steps_map_unit e, ← stepsOfAll_map_unit rest]
    cases e.steps with
    | error err => rfl
    | ok first => cases stepsOfAll rest <;> rfl

end

/-! ## The value of an expression is what its steps leave -/

theorem yields_inquiryOfAll (options : Options) (es : List Expr) :
    (inquiryOfAll options es).Yields fun vs => vs.length = es.length := by
  induction es with
  | nil => rfl
  | cons e rest ih =>
    rw [inquiryOfAll]
    refine Inquiry.yields_bind (P := fun _ => True) (Inquiry.yields_true _) fun v _ => ?_
    exact Inquiry.yields_bind ih fun vs hvs => congrArg (· + 1) hvs

mutual

/-- The steps of an expression put its value on the stack. -/
theorem inquiryAll_steps (options : Options) : (e : Expr) → {steps : List Step} →
    e.steps = .ok steps → (stack : List Value) →
    Step.inquiryAll options steps stack = e.inquiry options >>= fun v => pure (v :: stack)
  | .constant v, steps, h, stack => by
    cases h
    rfl
  | .reference name, steps, h, stack => by
    cases h
    rfl
  | .group inner, steps, h, stack => by
    rw [Expr.steps] at h
    rw [inquiry]
    exact inquiryAll_steps options inner h stack
  | .apply operation args, steps, h, stack => by
    rw [Expr.steps] at h
    rw [inquiry]
    split at h
    · next hrange =>
      rw [if_pos hrange]
      rw [rangeStep_eq] at h
      cases hcorners : corners args with
      | error e => rw [hcorners] at h; cases h
      | ok p =>
        rw [hcorners] at h
        cases h
        simp [Step.inquiryAll, Step.inquiry]
    · next hrange =>
      rw [if_neg hrange]
      cases hargs : stepsOfAll args with
      | error e => rw [hargs] at h; cases h
      | ok first =>
        rw [hargs] at h
        cases h
        rw [Step.inquiryAll_append, inquiryAll_stepsOfAll options args hargs stack, bind_assoc,
          bind_assoc]
        refine Inquiry.bind_congr_of_yields (yields_inquiryOfAll options args) fun vs hvs => ?_
        rw [pure_bind, ← hvs]
        simp only [Step.inquiryAll, Step.inquiry, replaceTop_reverse_append, bind_pure]
        cases operation.apply vs <;> rfl

theorem inquiryAll_stepsOfAll (options : Options) : (es : List Expr) → {steps : List Step} →
    stepsOfAll es = .ok steps → (stack : List Value) →
    Step.inquiryAll options steps stack =
      inquiryOfAll options es >>= fun vs => pure (vs.reverse ++ stack)
  | [], steps, h, stack => by
    cases h
    rfl
  | e :: rest, steps, h, stack => by
    rw [stepsOfAll] at h
    cases hfirst : e.steps with
    | error err => rw [hfirst] at h; cases h
    | ok first =>
      cases hothers : stepsOfAll rest with
      | error err => rw [hfirst, hothers] at h; cases h
      | ok others =>
        rw [hfirst, hothers] at h
        cases h
        rw [Step.inquiryAll_append, inquiryAll_steps options e hfirst stack, inquiryOfAll]
        simp only [bind_assoc, pure_bind]
        refine congrArg (e.inquiry options >>= ·) (funext fun v => ?_)
        rw [inquiryAll_stepsOfAll options rest hothers (v :: stack)]
        simp

end

end Expr

end Spreadsheet
