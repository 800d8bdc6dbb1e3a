import Spreadsheet.Proofs.Evaluation.Locality
import Spreadsheet.Proofs.Evaluation.OwnErrors
import Spreadsheet.Proofs.Evaluation.Remembering

/-!
# The limit on chains of references

How many formula cells may be resolved at once matters only for evaluations that reach that number.
Whatever comes out of the others comes out with more room too. And where there is room for every
formula cell that a cell leads to, its evaluation never runs out of room: if cycles are looked for,
the cells on a path are different cells.

## Main results

* `retrieve_eq_of_not_deep`: more levels change nothing but a chain that is too deep.
* `not_deep_of_room`: with a level for each formula cell, no chain is too deep.
-/

namespace Spreadsheet

/-- The error of a chain of references that is too deep. -/
def FormulaError.Deep (e : FormulaError) : Prop :=
  ∃ name limit, e = .evaluation (.chainTooDeep name limit)

theorem FormulaError.Own.not_deep {e : FormulaError} (h : e.Own) : ¬ e.Deep := by
  rintro ⟨name, limit, rfl⟩
  exact FormulaError.not_own_chainTooDeep name limit h

theorem FormulaError.not_deep_circularReference (name : String) :
    ¬ FormulaError.Deep (.circularReference name) := by
  rintro ⟨_, _, h⟩
  cases h

namespace Evaluation

open Forgetful (Room Covers)

variable {env : Environment} {options : Options} {memory : Memory}

theorem room_nil {cells : Finset String} {levels : Nat} (h : cells.card ≤ levels) :
    Room cells levels [] where
  nodup := List.nodup_nil
  subset := fun _ hmem => (List.not_mem_nil hmem).elim
  enough := by simpa using h

/-- The cells that a formula asks for lead to no more formula cells than the cell that holds it. -/
theorem covers_of_mayAsk {cells : Finset String} {name text other : String}
    (h : Covers env options cells name) (henv : env name = some (.formula text))
    (hother : (formulaInquiry options text).MayAsk other) : Covers env options cells other :=
  fun last lastText hlast => h last lastText (.head ⟨text, henv, mentioned_of_mayAsk hother⟩ hlast)

/-- More levels change nothing but the error of a chain that is too deep. By induction on the fewer
levels; on the last one, a formula cell is always too deep. -/
theorem retrieve_eq_of_not_deep {levels levels' : Nat} (hle : levels ≤ levels')
    (path : List String) :
    SameWhere (¬ ·.Deep) (retrieve env options levels path)
      (retrieve env options levels' path) := by
  induction levels generalizing levels' path with
  | zero =>
    intro name memory hshallow
    refine retrieve_eq_of_open rfl rfl Iff.rfl fun text hopen hpath => ?_
    exact absurd ⟨name, _, rfl⟩ (hshallow _ (retrieve_zero_of_unresolved hopen hpath))
  | succ levels ih =>
    intro name memory hshallow
    refine retrieve_eq_of_open rfl rfl Iff.rfl fun text hopen hpath => ?_
    obtain ⟨more, rfl⟩ : ∃ more, levels' = more + 1 := ⟨levels' - 1, by omega⟩
    rw [retrieve_succ_of_unresolved hopen hpath] at hshallow
    rw [retrieve_succ_of_unresolved hopen hpath, retrieve_succ_of_unresolved hopen hpath]
    have hrun : FailsOnly (¬ ·.Deep) ((formulaInquiry options text).run
        (retrieve env options levels (name :: path)) memory) := by
      intro e he
      rw [he] at hshallow
      exact hshallow e rfl
    rw [(ih (by omega) (name :: path)).run _ hrun]

/-- With a level for each formula cell that a cell leads to, its chains of references are never too
deep. By induction on the levels; an error of a formula is its own or that of a cell it asks for. -/
theorem not_deep_of_room (detect : options.detectCycles = true) {cells : Finset String}
    {levels : Nat} {path : List String} {name : String} {e : FormulaError}
    (hroom : Room cells levels path) (hcovers : Covers env options cells name)
    (h : retrieve env options levels path name memory = .error e) : ¬ e.Deep := by
  induction levels generalizing path name memory with
  | zero =>
    cases failsToLoad_of_retrieve h with
    | cycle _ _ _ => exact FormulaError.not_deep_circularReference name
    | tooDeep hopen hpath =>
      have hname : name ∈ cells := hcovers name _ .refl hopen.formula
      exact absurd hname (hroom.not_zero (hpath detect))
  | succ levels ih =>
    cases failsToLoad_of_retrieve h with
    | cycle _ _ _ => exact FormulaError.not_deep_circularReference name
    | @within _ text _ hopen hpath hrun =>
      have hname : name ∈ cells := hcovers name text .refl hopen.formula
      rcases Inquiry.own_or_of_run_error (failsOnly_formulaInquiry options text) hrun with
        hown | ⟨other, between, hask, hload⟩
      · exact hown.not_deep
      · exact ih (hroom.cons (hpath detect) hname) (covers_of_mayAsk hcovers hopen.formula hask)
          hload

end Evaluation

end Spreadsheet
