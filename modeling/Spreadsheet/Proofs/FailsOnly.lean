import Spreadsheet.Formula.Fault

/-!
# Where errors come from

A computation in parts fails with the error of the first part that fails. What errors are possible
is therefore known part by part.

## Main results

* `failsOnly_bind`, `failsOnly_mapM`: the errors of a whole are those of its parts.
-/

namespace Spreadsheet

variable {α β : Type} {P Q : FormulaError → Prop}

/-- If a computation fails, its error is of a certain kind. -/
def FailsOnly (P : FormulaError → Prop) (r : Except FormulaError α) : Prop :=
  ∀ e, r = .error e → P e

theorem failsOnly_ok (a : α) : FailsOnly P (.ok a : Except FormulaError α) := fun e h => by
  cases h

@[simp] theorem failsOnly_error {e : FormulaError} :
    FailsOnly P (.error e : Except FormulaError α) ↔ P e := by
  constructor
  · intro h
    exact h e rfl
  · intro h e' he
    cases he
    exact h

theorem FailsOnly.mono {r : Except FormulaError α} (h : FailsOnly P r)
    (hPQ : ∀ e, P e → Q e) : FailsOnly Q r := fun e he => hPQ e (h e he)

/-- The errors of two parts, the second of which needs the result of the first. -/
theorem failsOnly_bind {r : Except FormulaError α} {f : α → Except FormulaError β}
    (hr : FailsOnly P r) (hf : ∀ a, FailsOnly P (f a)) : FailsOnly P (r >>= f) := by
  intro e he
  cases r with
  | error e' =>
    cases he
    exact hr e rfl
  | ok a => exact hf a e he

theorem failsOnly_map {r : Except FormulaError α} (hr : FailsOnly P r) (f : α → β) :
    FailsOnly P (f <$> r) := by
  intro e he
  cases r with
  | error e' =>
    cases he
    exact hr e rfl
  | ok a => cases he

/-- The errors of a list of parts. -/
theorem failsOnly_mapM {f : α → Except FormulaError β} (hf : ∀ a, FailsOnly P (f a))
    (as : List α) : FailsOnly P (as.mapM f) := by
  induction as with
  | nil => exact failsOnly_ok []
  | cons a rest ih =>
    rw [List.mapM_cons]
    refine failsOnly_bind (hf a) fun b => ?_
    exact failsOnly_bind ih fun bs => failsOnly_ok (b :: bs)

end Spreadsheet
