import Spreadsheet.Proofs.Evaluation.Replacing
import Spreadsheet.Proofs.Sheet.Lookup

/-!
# A cell stands for its value

Writing the value of a cell into it, in the place of the formula that gives it, changes no formula:
neither a value nor an error, nor which of several errors comes first. The cell may be looked up
under any spelling of its address, and each of them finds what gives the same value.

## Main results

* `replaces_write`: such a sheet only has values in the place of formulas.
* `evaluate_setValue`: every formula is evaluated as before.
-/

namespace Spreadsheet

open Evaluation

/-- What value a cell has depends only on what it holds. -/
theorem Environment.HasWithin.of_same_content {env : Environment} {options : Options} {n : Nat}
    {name other : String} {v : Value} (h : env.HasWithin options n name v)
    (hsame : env other = env name) : env.HasWithin options n other v := by
  induction n with
  | zero => rwa [HasWithin, plain?, hsame, ← plain?]
  | succ n ih =>
    rcases h with hless | ⟨text, henv, hformula⟩
    · exact .inl (ih hless)
    · exact .inr ⟨text, hsame.trans henv, hformula⟩

namespace Sheet

/-- A value in the place of a cell that has it. -/
theorem replaces_write {s : Sheet} {p : Position} {v : Value} (options : Options)
    (hp : p.inGrid = true) (hv : s.lookup.HasValue options p.name v) :
    s.lookup.Replaces (s.write p (.value v)).lookup options := by
  intro name
  cases hplace : place name with
  | error e =>
    rw [lookup, lookup, hplace]
    exact .inl rfl
  | ok q =>
    by_cases hpq : p = q
    · subst hpq
      have hsame : s.lookup name = s.lookup p.name := by
        rw [lookup, lookup, hplace, place_name hp]
      obtain ⟨n, hn⟩ := hv
      refine .inr ⟨v, ⟨n, hn.of_same_content hsame⟩, ?_⟩
      rw [lookup, hplace]
      exact Std.TreeMap.getElem?_insert_self
    · refine .inl ?_
      rw [lookup, lookup, hplace]
      exact Std.TreeMap.getElem?_insert.trans (if_neg (by simpa using hpq))

/-- What evaluating a cell of a sheet comes to is the value of the cell. -/
theorem hasValue_of_evaluateCell {s : Sheet} {p : Position} {cell : String} {v : Value}
    (hplace : place cell = .ok p) (h : s.evaluateCell cell = .ok v) :
    s.lookup.HasValue s.options p.name v := by
  rw [evaluateCell, hplace] at h
  change ofOutcome _ = _ at h
  cases hvalue : Spreadsheet.evaluateCell s.lookup s.options p.name with
  | error e => rw [hvalue] at h; cases h
  | ok w =>
    rw [hvalue] at h
    cases h
    have hw := Evaluation.hasValue_of_evaluateCell hvalue
    rwa [canonicalName_name (inGrid_of_place hplace)] at hw

/-- A cell that has a value may hold it in the place of its formula: every formula then has the same
value or the same error as before. It is enough that as many formula cells may be resolved at once
as the sheet has. -/
theorem evaluate_setValue (s : Sheet) (cell : String) (v : Value)
    (detect : s.options.detectCycles = true)
    (room : s.formulaCells.length ≤ s.options.maxReferences)
    (hvalue : s.evaluateCell cell = .ok v) :
    ∃ s', s.setValue cell v = .ok s' ∧ ∀ formula, s'.evaluate formula = s.evaluate formula := by
  cases hplace : place cell with
  | error e =>
    rw [evaluateCell, hplace] at hvalue
    cases hvalue
  | ok p =>
    refine ⟨s.write p (.value v), set_of_place hplace, fun formula => ?_⟩
    have hreplaces : s.lookup.Replaces (s.write p (.value v)).lookup s.options :=
      replaces_write s.options (inGrid_of_place hplace) (hasValue_of_evaluateCell hplace hvalue)
    rw [evaluate, evaluate, options_write, evaluateFormula_eq_of_replaces detect hreplaces
      (fun name => covers_formulaNames s.options) (s.card_formulaNames_le.trans room)]

/-- A cell that refers to two others, and one that refers to itself. -/
def relaySheet : Sheet where
  cells := ((((∅ : Std.TreeMap Position Content).insert ⟨0, 0⟩ (.formula "B1 & b01")).insert ⟨0, 1⟩
    (.formula "C1")).insert ⟨0, 2⟩ (.value (.text "x"))).insert ⟨0, 3⟩ (.formula "A1 & D1")
  options := { maxReferences := 3 }

/-- Three levels are enough for three formula cells, though one of them has no value. -/
theorem evaluate_setValue_relaySheet :
    relaySheet.evaluateCell "A1" = .ok (.text "xx") ∧
      ∃ s', relaySheet.setValue "A1" (.text "xx") = .ok s' ∧
        ∀ formula, s'.evaluate formula = relaySheet.evaluate formula := by
  have hvalue : relaySheet.evaluateCell "A1" = .ok (.text "xx") := by
    rw [evaluateCell]
    simp only [evaluateCell_eq_retrieve]
    decide +kernel
  exact ⟨hvalue, evaluate_setValue relaySheet "A1" (.text "xx") rfl (by decide +kernel) hvalue⟩

end Sheet

end Spreadsheet
