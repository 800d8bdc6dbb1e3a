import Spreadsheet.Proofs.Evaluation.OwnCell
import Spreadsheet.Proofs.Formula.Enclosing

/-!
# Groups and evaluation

A group has the steps of what is inside it, and a corner of a range may stand in parentheses. So
trees that are the same but for groups come to the same value, or to errors of the same variant; the
message of an error can show the parentheses of the tree that is to blame.

## Main results

* `Expr.steps_ungrouped`: dropping groups changes no steps.
* `Expr.evaluate_of_ungrouped_eq`: trees that are the same but for groups come to the same.
* `Expr.evaluate_enclosed`: parentheses that are put around an operand or an argument change no
  result.
-/

namespace Spreadsheet

namespace SameVariant

variable {α β : Type} {r r' : Except FormulaError α}

theorem bind (h : SameVariant r r') {f f' : α → Except FormulaError β}
    (hf : ∀ a, SameVariant (f a) (f' a)) : SameVariant (r >>= f) (r' >>= f') := by
  cases r with
  | ok a =>
    have hr' : r' = .ok a := (mapError_eq_ok FormulaError.variant).1 h.symm
    rw [hr']
    exact hf a
  | error e =>
    cases r' with
    | ok a' => cases h
    | error e' => exact congrArg Except.error (Except.error.inj h)

end SameVariant

namespace Expr

/-! ## Steps -/

theorem corner_ungrouped (e : Expr) : SameVariant e.ungrouped.corner e.corner := by
  fun_induction corner e with
  | case1 inner ih =>
    rw [ungrouped_group]
    exact ih
  | case2 name =>
    rw [ungrouped_reference]
    exact .refl _
  | case3 v =>
    rw [ungrouped_constant]
    exact .refl _
  | case4 e hgroup hreference hconstant =>
    cases e with
    | constant v => exact (hconstant v rfl).elim
    | reference name => exact (hreference name rfl).elim
    | group inner => exact (hgroup inner rfl).elim
    | apply operation args =>
      rw [ungrouped_apply]
      rfl

theorem rangeStep_ungrouped (args : List Expr) :
    SameVariant (rangeStep (ungroupedAll args)) (rangeStep args) := by
  match args with
  | [start, stop] =>
    rw [ungroupedAll_cons, ungroupedAll_cons, ungroupedAll_nil]
    exact (corner_ungrouped start).bind fun p =>
      (corner_ungrouped stop).bind fun q => .refl _
  | [] => rw [ungroupedAll_nil]; exact .refl _
  | [e] => rw [ungroupedAll_cons, ungroupedAll_nil]; rfl
  | e :: f :: g :: rest => rw [ungroupedAll_cons, ungroupedAll_cons, ungroupedAll_cons]; rfl

mutual

/-- Dropping groups changes no steps. -/
theorem steps_ungrouped (e : Expr) : SameVariant e.ungrouped.steps e.steps := by
  match e with
  | .constant v => rw [ungrouped_constant]; exact .refl _
  | .reference name => rw [ungrouped_reference]; exact .refl _
  | .group inner =>
    rw [ungrouped_group, steps]
    exact steps_ungrouped inner
  | .apply operation args =>
    rw [ungrouped_apply, steps, steps, length_ungroupedAll]
    split
    · exact (rangeStep_ungrouped args).bind fun _ => .refl _
    · exact (stepsOfAll_ungrouped args).bind fun _ => .refl _

theorem stepsOfAll_ungrouped (es : List Expr) :
    SameVariant (stepsOfAll (ungroupedAll es)) (stepsOfAll es) := by
  match es with
  | [] => rw [ungroupedAll_nil]; exact .refl _
  | e :: rest =>
    rw [ungroupedAll_cons, stepsOfAll, stepsOfAll]
    exact (steps_ungrouped e).bind fun _ => (stepsOfAll_ungrouped rest).bind fun _ => .refl _

end

/-! ## Results -/

variable {env : Environment} {options : Options}

theorem evaluate_ungrouped (e : Expr) :
    SameVariant (e.ungrouped.evaluate env options) (e.evaluate env options) :=
  (steps_ungrouped e).bind fun _ => .refl _

/-- Trees that are the same but for groups come to the same. -/
theorem evaluate_of_ungrouped_eq {e e' : Expr} (h : e'.ungrouped = e.ungrouped) :
    SameVariant (e'.evaluate env options) (e.evaluate env options) := by
  have he : SameVariant (e.ungrouped.evaluate env options) (e.evaluate env options) :=
    evaluate_ungrouped e
  have he' : SameVariant (e'.ungrouped.evaluate env options) (e'.evaluate env options) :=
    evaluate_ungrouped e'
  rw [h] at he'
  exact he'.symm.trans he

/-- Parentheses that are put around an operand or an argument change no result. -/
theorem evaluate_enclosed {before segment after new : List Token} {limit limit' : Nat} {e : Expr}
    (h : ofTokens (before ++ (segment ++ after)) limit = .ok e)
    (hsegment : Segment before segment after) (hnew : Enclosed segment new)
    (hlimit : Group.nesting (before ++ (new ++ after)) ≤ limit') :
    ∃ e', ofTokens (before ++ (new ++ after)) limit' = .ok e' ∧ e'.ungrouped = e.ungrouped ∧
      ∀ env options, SameVariant (e'.evaluate env options) (e.evaluate env options) := by
  obtain ⟨e', hread, htree⟩ := exists_ofTokens_enclosed h hsegment hnew hlimit
  exact ⟨e', hread, htree, fun env options => evaluate_of_ungrouped_eq htree⟩

end Expr

/-- The first corner of the range in `sum(-A1:A2)`. -/
def cornerToken : Token := ⟨.cell, "A1", none, 5⟩

/-- What stands before that corner. -/
def cornerBefore : List Token :=
  [⟨.function, "sum", none, 0⟩, ⟨.symbol, "(", none, 3⟩, ⟨.operator, "-", none, 4⟩]

/-- What stands behind it. -/
def cornerAfter : List Token :=
  [⟨.operator, ":", none, 7⟩, ⟨.cell, "A2", none, 8⟩, ⟨.symbol, ")", none, 10⟩]

/-- The corner in two pairs of parentheses. -/
def cornerEnclosed : List Token :=
  [⟨.symbol, "(", none, 5⟩, ⟨.symbol, "(", none, 6⟩, cornerToken, ⟨.symbol, ")", none, 9⟩,
    ⟨.symbol, ")", none, 10⟩]

/-- A corner of a range, with a sign before it, can be put in parentheses. -/
theorem evaluate_enclosed_corner :
    ∃ e, Expr.ofTokens (cornerBefore ++ ([cornerToken] ++ cornerAfter)) 1 = .ok e ∧
      Segment cornerBefore [cornerToken] cornerAfter ∧ Enclosed [cornerToken] cornerEnclosed ∧
      Group.nesting (cornerBefore ++ (cornerEnclosed ++ cornerAfter)) ≤ 3 ∧
      ∃ e', Expr.ofTokens (cornerBefore ++ (cornerEnclosed ++ cornerAfter)) 3 = .ok e' ∧
        e'.ungrouped = e.ungrouped ∧
        ∀ env options, SameVariant (e'.evaluate env options) (e.evaluate env options) := by
  have hread : Expr.ofTokens (cornerBefore ++ ([cornerToken] ++ cornerAfter)) 1 =
      .ok (.apply (.builtin .sum)
        [.operator .negate [.operator .range [.reference "A1", .reference "A2"]]]) := by
    with_unfolding_all rfl
  have hsegment : Segment cornerBefore [cornerToken] cornerAfter :=
    .operand (.cell rfl) fun t ht => by cases ht; decide
  have hinner : Enclosed [cornerToken]
      (⟨.symbol, "(", none, 6⟩ :: ([cornerToken] ++ [⟨.symbol, ")", none, 9⟩])) :=
    .pair rfl .none rfl
  have henclosed : Enclosed [cornerToken] cornerEnclosed :=
    @Enclosed.pair _ ⟨.symbol, "(", none, 5⟩ ⟨.symbol, ")", none, 10⟩ _ rfl hinner rfl
  have hnesting : Group.nesting (cornerBefore ++ (cornerEnclosed ++ cornerAfter)) ≤ 3 := by
    decide +kernel
  exact ⟨_, hread, hsegment, henclosed, hnesting,
    Expr.evaluate_enclosed hread hsegment henclosed hnesting⟩

end Spreadsheet
