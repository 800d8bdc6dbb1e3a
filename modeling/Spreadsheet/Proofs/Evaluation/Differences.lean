import Spreadsheet.Proofs.Evaluation.Grouped
import Spreadsheet.Proofs.Number.Negation

/-!
# Differences as sums of negatives

The parser writes a difference as the sum with the negative of its right operand. Written so, the
right operand is converted to a number before the left one, on behalf of a sign, and the sum is what
has to be finite. None of that shows in a value: each of the two forms has one exactly if both
operands are numbers and their difference is finite, and then it is that difference. So it does not
matter which differences of an expression, at whatever place, are written in which form.

## Main results

* `Operator.sum_negative`: a sum with a negative comes to what the difference comes to.
* `Expr.run_withoutDifferences`: the form of its differences shows in no run of an expression.
* `Expr.evaluate_withoutDifferences`: nor in its evaluation.
-/

namespace Spreadsheet

/-! ## One difference -/

theorem sameVariant_finite (op op' : String) (x : Float) :
    SameVariant (finite op x) (finite op' x) := by
  rw [finite, finite]
  split <;> rfl

namespace Operator

/-- An operator that neither joins texts nor compares converts both operands to numbers. -/
theorem applyTwo_eq {op : Operator} (hconcat : op ≠ .concat) (horder : op.isComparison = false)
    (v w : Value) :
    op.applyTwo v w =
      v.toNumber op.symbol >>= fun x => w.toNumber op.symbol >>= fun y => op.arithmetic x y := by
  rw [applyTwo, if_neg hconcat, horder]
  rfl

/-- A sum with a negative comes to what the difference comes to. -/
theorem sum_negative (v w : Value) :
    SameVariant (apply .negate [w] >>= fun n => apply .add [v, n]) (apply .subtract [v, w]) := by
  have hnegative : apply .negate [w] =
      w.toNumber "unary -" >>= fun y => pure (.number (-y)) := rfl
  have hsum : ∀ n, apply .add [v, n] =
      v.toNumber "+" >>= fun x => n.toNumber "+" >>= fun y => finite "+" (x + y) :=
    applyTwo_eq (by decide) rfl v
  have hdifference : apply .subtract [v, w] =
      v.toNumber "-" >>= fun x => w.toNumber "-" >>= fun y => finite "-" (x - y) :=
    applyTwo_eq (by decide) rfl v w
  rw [hnegative, hdifference]
  simp only [hsum, Value.toNumber]
  cases hleft : v.asNumber? with
  | none => cases w.asNumber? <;> rfl
  | some x =>
    cases w.asNumber? with
    | none => rfl
    | some y =>
      show SameVariant (finite "+" (x + -y)) (finite "-" (x - y))
      rw [Number.add_neg]
      exact sameVariant_finite _ _ _

end Operator

/-! ## All differences -/

namespace Expr

/-- An operation on operands, where a difference is written as the sum with a negative. -/
def applyAsSum : Operation → List Expr → Expr
  | .operator .subtract, [left, right] => .operator .add [left, .operator .negate [right]]
  | operation, args => .apply operation args

mutual

/-- An expression with all its differences written as sums with negatives. -/
def withoutDifferences : Expr → Expr
  | .constant v => .constant v
  | .reference name => .reference name
  | .apply operation args => applyAsSum operation (withoutDifferencesOfAll args)
  | .group inner => .group inner.withoutDifferences

/-- Several expressions with all their differences written so. -/
def withoutDifferencesOfAll : List Expr → List Expr
  | [] => []
  | e :: rest => e.withoutDifferences :: withoutDifferencesOfAll rest

end

/-- What is not a difference is left as it is. -/
theorem applyAsSum_or (operation : Operation) (args : List Expr) :
    applyAsSum operation args = .apply operation args ∨
      ∃ left right, operation = .operator .subtract ∧ args = [left, right] ∧
        applyAsSum operation args = .operator .add [left, .operator .negate [right]] := by
  fun_cases applyAsSum operation args with
  | case1 left right => exact .inr ⟨left, right, rfl, rfl, rfl⟩
  | case2 => exact .inl rfl

theorem applyAsSum_of_ne {operation : Operation} (h : operation ≠ .operator .subtract)
    (args : List Expr) : applyAsSum operation args = .apply operation args := by
  rcases applyAsSum_or operation args with hsame | ⟨left, right, hsubtract, -, -⟩
  · exact hsame
  · exact absurd hsubtract h

/-! ## Corners -/

theorem corner_applyAsSum (operation : Operation) (args args' : List Expr) :
    SameVariant (applyAsSum operation args).corner (Expr.apply operation args').corner := by
  rcases applyAsSum_or operation args with h | ⟨left, right, -, -, h⟩
  · rw [h]
    rfl
  · rw [h]
    rfl

theorem corner_withoutDifferences (e : Expr) :
    SameVariant e.withoutDifferences.corner e.corner := by
  fun_induction corner e with
  | case1 inner ih => exact ih
  | case2 name => exact .refl _
  | case3 v => exact .refl _
  | case4 e hgroup hreference hconstant =>
    cases e with
    | constant v => exact (hconstant v rfl).elim
    | reference name => exact (hreference name rfl).elim
    | group inner => exact (hgroup inner rfl).elim
    | apply operation args =>
      rw [withoutDifferences]
      exact corner_applyAsSum operation _ args

theorem corners_withoutDifferences (args : List Expr) :
    SameVariant (corners (withoutDifferencesOfAll args)) (corners args) := by
  match args with
  | [start, stop] =>
    exact (corner_withoutDifferences start).bind fun p =>
      (corner_withoutDifferences stop).bind fun q => .refl _
  | [] | [_] | _ :: _ :: _ :: _ => rfl

theorem checkCorners_applyAsSum {operation : Operation} (h : operation ≠ .operator .range)
    (args : List Expr) : (applyAsSum operation args).checkCorners = checkCornersOfAll args := by
  rcases applyAsSum_or operation args with hsame | ⟨left, right, -, hargs, hsum⟩
  · rw [hsame, checkCorners, if_neg h]
  · rw [hsum, hargs]
    simp only [checkCorners, checkCornersOfAll]
    cases left.checkCorners <;> cases right.checkCorners <;> rfl

mutual

theorem checkCorners_withoutDifferences (e : Expr) :
    SameVariant e.withoutDifferences.checkCorners e.checkCorners := by
  match e with
  | .constant v => exact .refl _
  | .reference name => exact .refl _
  | .group inner =>
    rw [withoutDifferences, checkCorners, checkCorners]
    exact checkCorners_withoutDifferences inner
  | .apply operation args =>
    rw [withoutDifferences]
    by_cases hrange : operation = .operator .range
    · subst hrange
      exact (corners_withoutDifferences args).bind fun _ => .refl _
    · rw [checkCorners_applyAsSum hrange, checkCorners, if_neg hrange]
      exact checkCornersOfAll_withoutDifferences args

theorem checkCornersOfAll_withoutDifferences : (es : List Expr) →
    SameVariant (checkCornersOfAll (withoutDifferencesOfAll es)) (checkCornersOfAll es)
  | [] => .refl _
  | e :: rest => by
    rw [withoutDifferencesOfAll, checkCornersOfAll, checkCornersOfAll]
    exact (checkCorners_withoutDifferences e).bind fun _ =>
      checkCornersOfAll_withoutDifferences rest

end

/-! ## Values -/

variable {options : Options} {load : Loader}

theorem sameVariant_run_done {α : Type} {r r' : Except FormulaError α} (h : SameVariant r r')
    (memory : Memory) :
    SameVariant ((Inquiry.done r).run load memory) ((Inquiry.done r').run load memory) :=
  h.bind fun _ => .refl _

theorem inquiry_one {op : Operator} (h : op ≠ .range) (e : Expr) :
    (operator op [e]).inquiry options =
      e.inquiry options >>= fun v => .done (Operator.apply op [v]) := by
  rw [inquiry, if_neg fun hrange => h (Operation.operator.inj hrange)]
  simp only [inquiryOfAll, bind_assoc, pure_bind]
  rfl

theorem inquiry_two {op : Operator} (h : op ≠ .range) (left right : Expr) :
    (operator op [left, right]).inquiry options =
      left.inquiry options >>= fun v => right.inquiry options >>= fun w =>
        .done (Operator.apply op [v, w]) := by
  rw [inquiry, if_neg fun hrange => h (Operation.operator.inj hrange)]
  simp only [inquiryOfAll, bind_assoc, pure_bind]
  rfl

/-- Both forms of a difference ask the same and come to the same, for the same operands. -/
theorem run_sum_negative (left right : Expr) (memory : Memory) :
    SameVariant
      (((operator .add [left, operator .negate [right]]).inquiry options).run load memory)
      (((operator .subtract [left, right]).inquiry options).run load memory) := by
  rw [inquiry_two (by decide), inquiry_two (by decide), inquiry_one (by decide),
    Inquiry.run_bind, Inquiry.run_bind]
  refine SameVariant.bind (.refl _) fun p => ?_
  rw [bind_assoc, Inquiry.run_bind, Inquiry.run_bind]
  refine SameVariant.bind (.refl _) fun q => ?_
  have hdone : (Inquiry.done (Operator.apply .negate [q.1]) >>= fun n =>
      .done (Operator.apply .add [p.1, n])) =
        .done (Operator.apply .negate [q.1] >>= fun n => Operator.apply .add [p.1, n]) := by
    cases Operator.apply .negate [q.1] <;> rfl
  rw [hdone]
  exact sameVariant_run_done (Operator.sum_negative p.1 q.1) q.2

theorem run_applyAsSum (operation : Operation) (args : List Expr) (memory : Memory) :
    SameVariant (((applyAsSum operation args).inquiry options).run load memory)
      (((Expr.apply operation args).inquiry options).run load memory) := by
  rcases applyAsSum_or operation args with hsame | ⟨left, right, hoperation, hargs, hsum⟩
  · rw [hsame]
    exact .refl _
  · rw [hsum, hoperation, hargs]
    exact run_sum_negative left right memory

mutual

/-- The form of its differences shows in no run of an expression. -/
theorem run_withoutDifferences : (e : Expr) → (memory : Memory) →
    SameVariant ((e.withoutDifferences.inquiry options).run load memory)
      ((e.inquiry options).run load memory)
  | .constant _, _ | .reference _, _ => .refl _
  | .group inner, memory => by
    rw [withoutDifferences, inquiry, inquiry]
    exact run_withoutDifferences inner memory
  | .apply operation args, memory => by
    rw [withoutDifferences]
    by_cases hrange : operation = .operator .range
    · subst hrange
      rw [applyAsSum_of_ne (by decide), inquiry, inquiry, if_pos rfl, if_pos rfl, Inquiry.run_bind,
        Inquiry.run_bind]
      exact (sameVariant_run_done (corners_withoutDifferences args) memory).bind fun _ => .refl _
    · refine (run_applyAsSum operation _ memory).trans ?_
      rw [inquiry, inquiry, if_neg hrange, if_neg hrange, Inquiry.run_bind, Inquiry.run_bind]
      exact (run_withoutDifferencesOfAll args memory).bind fun _ => .refl _

theorem run_withoutDifferencesOfAll : (es : List Expr) → (memory : Memory) →
    SameVariant ((inquiryOfAll options (withoutDifferencesOfAll es)).run load memory)
      ((inquiryOfAll options es).run load memory)
  | [], _ => .refl _
  | e :: rest, memory => by
    rw [withoutDifferencesOfAll, inquiryOfAll, inquiryOfAll, Inquiry.run_bind, Inquiry.run_bind]
    refine (run_withoutDifferences e memory).bind fun p => ?_
    rw [Inquiry.run_bind, Inquiry.run_bind]
    exact (run_withoutDifferencesOfAll rest p.2).bind fun _ => .refl _

end

/-- Writing all differences of an expression as sums with negatives changes neither whether it has
a value nor which one, nor the variant of the error that it has instead of one. -/
theorem evaluate_withoutDifferences (env : Environment) (options : Options) (e : Expr) :
    SameVariant (e.withoutDifferences.evaluate env options) (e.evaluate env options) := by
  rw [evaluate_eq_retrieve, evaluate_eq_retrieve, checkedInquiry, checkedInquiry,
    Inquiry.run_bind, Inquiry.run_bind]
  refine SameVariant.map ?_ Prod.fst
  exact (sameVariant_run_done (checkCorners_withoutDifferences e) _).bind fun p =>
    run_withoutDifferences e p.2

end Expr

end Spreadsheet
