import Spreadsheet.Proofs.Apply.Finite
import Spreadsheet.Proofs.Evaluation.Held
import Spreadsheet.Proofs.Evaluation.Replacing

/-!
# Evaluations with finite numbers

Infinities come into an evaluation in two ways: as a numeral that is too large for a double, and as
a sum that overflows. Where neither happens, every number that the machine ever holds is finite, and
so is every number of the result.

## Main results

* `State.finite_of_makes`: a step that does not overflow makes a finite value of finite ones.
* `evaluateFormula_finite`: without such numerals and sums, the machine holds only finite numbers,
  and the result of a formula is finite.
-/

namespace Spreadsheet

namespace Evaluation

/-- The next step is an operation that overflows. -/
def State.Overflows (s : State) : Prop :=
  ∃ operation count todo cell rest args below,
    s.frames = .steps (.apply operation count :: todo) cell :: rest ∧
      takeTop count s.values [] = some (args, below) ∧ operation.Overflows args

/-- A step that does not overflow makes a finite value of finite ones. -/
theorem State.finite_of_makes {s : State} {v : Value} (hs : s.Holds Value.Finite)
    (hoverflow : ¬ s.Overflows) (h : s.Makes v) : v.Finite := by
  cases h with
  | apply h htake hv =>
    exact Operation.finite_of_apply hv (hs.taken htake) fun hoperation =>
      hoverflow ⟨_, _, _, _, _, _, _, h, htake, hoperation⟩
  | collect h hdone htake => exact Value.finite_list_iff.2 (hs.taken htake)

end Evaluation

open Evaluation

/-- Where all contents of cells and all numerals are finite, no sum overflows, and nothing is
counted that is beyond all machines, the numbers in the result of a formula are finite, and so are
all that the machine holds on the way there. -/
theorem evaluateFormula_finite {env : Environment} {options : Options} {text : String}
    (hsupplies : Supplies env options Value.Finite)
    (hconstants : ∀ e, Expr.ofFormula text options.maxNesting = .ok e →
      ∀ v ∈ e.constants, v.Finite)
    (hsums : ∀ s, Visits env options text s → ¬ s.Overflows) :
    (∀ s, Visits env options text s → s.Holds Value.Finite) ∧
      ∀ v, evaluateFormula env options text = .ok v → v.Finite := by
  have hheld : ∀ s, Visits env options text s → s.Holds Value.Finite :=
    fun _ h => h.holds hsupplies hconstants fun s _ hvisits hs hmakes =>
      State.finite_of_makes hs (hsums s hvisits) hmakes
  exact ⟨hheld, fun v hv => prop_of_evaluateFormula hheld hv⟩

/-- A cell with a number. -/
def numberCell : Environment
  | "A1" => some (.value (.number 1.0))
  | _ => none

/-- The sum of that cell and a number. -/
def numberSum : Expr :=
  .apply (.builtin .sum) [.reference "A1", .constant (.number 2.0)]

theorem ofFormula_numberSum : Expr.ofFormula "SUM(A1, 2)" defaultNesting = .ok numberSum := by
  decide +kernel

theorem not_overflows_of_visits_numberCell :
    ∀ s, Visits numberCell {} "SUM(A1, 2)" s → ¬ s.Overflows := by
  have hstart : numberSum.steps =
      .ok [.load "A1", .push (.number 2.0), .apply (.builtin .sum) 2] := by
    decide +kernel
  rintro s ⟨e, steps, he, hsteps, hreaches⟩
  cases ofFormula_numberSum.symm.trans he
  cases hstart.symm.trans hsteps
  -- of the states that are reached, only the third is about to apply an operation
  refine State.forall_reaches_of_next (P := fun s => ¬ s.Overflows) rfl ?load
    (State.forall_reaches_of_next rfl ?push (State.forall_reaches_of_next rfl ?apply
      (State.forall_reaches_of_next rfl ?leave (State.forall_reaches_of_finished rfl ?last))))
    s hreaches
  case apply =>
    rintro ⟨_, _, _, _, _, _, _, hframes, htake, hoverflow⟩
    cases hframes
    cases htake
    cases hoverflow with
    | total _ h hxs =>
      cases h
      exact absurd hxs (by decide +kernel)
  all_goals
    rintro ⟨_, _, _, _, _, _, _, hframes, _⟩
    cases hframes

/-- The sum of two finite numbers that is finite. -/
theorem evaluateFormula_finite_numberCell :
    evaluateFormula numberCell {} "SUM(A1, 2)" = .ok (.number 3.0) ∧
      Value.Finite (.number 3.0) := by
  have hplain : ∀ name v, numberCell name = some (.value v) → v.Finite := by
    intro name v h
    unfold numberCell at h
    split at h <;> cases h
    exact Value.finite_number_iff.2 rfl
  have hsupplies : Supplies numberCell {} Value.Finite := by
    refine ⟨Value.finite_text "", hplain _ _, fun h => ?_⟩
    unfold numberCell at h
    split at h <;> cases h
  have hconstants : ∀ e, Expr.ofFormula "SUM(A1, 2)" defaultNesting = .ok e →
      ∀ v ∈ e.constants, v.Finite := by
    intro e he v hv
    cases ofFormula_numberSum.symm.trans he
    cases List.mem_singleton.1 hv
    exact Value.finite_number_iff.2 rfl
  have hvalue : evaluateFormula numberCell {} "SUM(A1, 2)" = .ok (.number 3.0) := by
    rw [evaluateFormula_eq_retrieve]
    decide +kernel
  exact ⟨hvalue, (evaluateFormula_finite hsupplies hconstants
    not_overflows_of_visits_numberCell).2 _ hvalue⟩

/-- No cell holds anything. -/
def noCells : Environment := fun _ => none

/-- A sum of two finite numbers that is infinite, although addition refuses it; and a numeral that
is too large for a double. -/
theorem exists_infinite_of_noCells :
    (∀ name v, noCells name = some (.value v) → v.Finite) ∧
      evaluateFormula noCells {} "SUM(1e308, 1e308)" = .ok (.number (1.0 / 0.0)) ∧
      evaluateFormula noCells {} "1e308 + 1e308" = .error (.evaluation (.notFinite "+")) ∧
      evaluateFormula noCells {} "1e999" = .ok (.number (1.0 / 0.0)) ∧
      ¬ Value.Finite (.number (1.0 / 0.0)) := by
  refine ⟨fun name v h => ?_, ?_, ?_, ?_, fun h => ?_⟩
  · cases h
  · rw [evaluateFormula_eq_retrieve]
    decide +kernel
  · rw [evaluateFormula_eq_retrieve]
    decide +kernel
  · rw [evaluateFormula_eq_retrieve]
    decide +kernel
  · exact absurd (Value.finite_number_iff.1 h) (by decide +kernel)

end Spreadsheet
