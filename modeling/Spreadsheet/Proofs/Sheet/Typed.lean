import Spreadsheet.Proofs.Evaluation.OwnCell
import Spreadsheet.Proofs.Sheet.Lookup

/-!
# Formulas typed into cells

A formula that is written into a cell, or typed into it behind an equals sign, means there what it
means by itself: the cell has the value of the formula, or both fail with the same variant of error.
The formula must not depend on the cell, and a formula that begins with two equals signs is left
out, since only one of them is dropped where it is evaluated by itself.

## Main results

* `evaluateCell_of_typed`: evaluating the cell is evaluating the formula.
-/

namespace Spreadsheet

open Evaluation

/-- The variant of a sheet error that is the failure of a formula. -/
def SheetError.variant : SheetError → Option FormulaError.Variant
  | .address _ => none
  | .formula e => some e.variant

namespace Sheet

theorem mapError_ofOutcome {outcome outcome' : Outcome} (h : SameVariant outcome outcome') :
    (ofOutcome outcome).mapError SheetError.variant =
      (ofOutcome outcome').mapError SheetError.variant := by
  have hvariant : ∀ r : Outcome, (ofOutcome r).mapError SheetError.variant =
      r.mapError fun e => some e.variant := by
    intro r
    cases r <;> rfl
  rw [hvariant, hvariant]
  exact mapError_eq_of_mapError_eq h fun _ _ hsame => congrArg some hsame

/-- What is written to a cell does not matter for a formula that does not depend on the cell. -/
theorem lookup_write_of_dependsOn {s : Sheet} {p : Position} {content : Content} {options : Options}
    {text name : String} (hrefs : ¬ DependsOn s.lookup options text p.name)
    (hname : DependsOn s.lookup options text name) :
    (s.write p content).lookup name = s.lookup name :=
  lookup_write_of_ne (canonical_of_dependsOn hname) fun heq => hrefs (heq ▸ hname)

theorem evaluate_write {s : Sheet} {p : Position} {text : String} (content : Content)
    (hrefs : ¬ DependsOn s.lookup s.options text p.name) :
    (s.write p content).evaluate text = s.evaluate text := by
  rw [evaluate, evaluate, options_write,
    evaluateFormula_eq_of_alike fun _ => lookup_write_of_dependsOn hrefs]

/-- A cell that stores a formula has the value of the formula, or an error of the same variant. -/
theorem evaluateCell_write {s : Sheet} {cell text : String} {p : Position}
    (hplace : place cell = .ok p) (hrefs : ¬ DependsOn s.lookup s.options text p.name)
    (hroom : s.formulaCells.length < s.options.maxReferences) (hmark : ¬ MarkedTwice text) :
    ((s.write p (.formula (Content.stored text))).evaluateCell cell).mapError SheetError.variant =
      (s.evaluate text).mapError SheetError.variant := by
  have hp : p.inGrid = true := inGrid_of_place hplace
  have hname : canonicalName p.name = p.name := canonicalName_name hp
  have hstored : ¬ DependsOn s.lookup s.options (Content.stored text) (canonicalName p.name) := by
    rw [hname, dependsOn_stored hmark]
    exact hrefs
  have hcell : (s.write p (.formula (Content.stored text))).lookup (canonicalName p.name) =
      some (.formula (Content.stored text)) := by
    rw [hname]
    exact lookup_write_self hp
  have hsame : SameVariant
      (Spreadsheet.evaluateCell (s.write p (.formula (Content.stored text))).lookup s.options
        p.name)
      (evaluateFormula s.lookup s.options (Content.stored text)) :=
    evaluateCell_sameVariant hcell hstored
      (fun _ => lookup_write_of_dependsOn (hname ▸ hstored))
      (fun _ => covers_formulaNames s.options) (s.card_formulaNames_le.trans_lt hroom)
  rw [evaluateCell, hplace]
  exact mapError_ofOutcome (hsame.trans (evaluateFormula_stored hmark))

/-- A formula that does not depend on a cell means the same written into it, or typed into it behind
an equals sign, as evaluated by itself, before or after: the values are equal, or the errors are of
one variant. There must be room for one formula cell more than the sheet has, and the text must not
begin with two equals signs. -/
theorem evaluateCell_of_typed (s : Sheet) (cell text : String) (p : Position)
    (hplace : place cell = .ok p) (hrefs : ¬ DependsOn s.lookup s.options text p.name)
    (hroom : s.formulaCells.length < s.options.maxReferences) :
    (¬ MarkedTwice text → ∃ s', s.setFormula cell text = .ok s' ∧
      s'.evaluate text = s.evaluate text ∧
      (s'.evaluateCell cell).mapError SheetError.variant =
        (s'.evaluate text).mapError SheetError.variant) ∧
    ((Text.trim text).toList.head? = some '=' → ¬ MarkedTwice (Text.trim text) →
      ∃ s', s.setInput cell text = .ok s' ∧
        s'.evaluate text = s.evaluate text ∧
        (s'.evaluateCell cell).mapError SheetError.variant =
          (s'.evaluate text).mapError SheetError.variant) := by
  constructor
  · intro hmark
    refine ⟨s.write p (.formula (Content.stored text)), ?_, evaluate_write _ hrefs, ?_⟩
    · rw [setFormula, Content.ofFormula_eq, set_of_place hplace]
    · rw [evaluate_write _ hrefs]
      exact evaluateCell_write hplace hrefs hroom hmark
  · intro hinput hmark
    have htrim : s.evaluate (Text.trim text) = s.evaluate text := by
      rw [evaluate, evaluate, evaluateFormula, evaluateFormula, Expr.ofFormula_trim]
    have hrefs' : ¬ DependsOn s.lookup s.options (Text.trim text) p.name := by
      simpa only [DependsOn, ReadsDirectly, Expr.ofFormula_trim] using hrefs
    refine ⟨s.write p (.formula (Content.stored (Text.trim text))), ?_, evaluate_write _ hrefs, ?_⟩
    · rw [setInput, Content.ofInput_eq hinput, set_of_place hplace]
    · rw [evaluate_write _ hrefs, ← htrim]
      exact evaluateCell_write hplace hrefs' hroom hmark

/-- A cell that refers to another one. -/
def linkSheet : Sheet where
  cells := ((∅ : Std.TreeMap Position Content).insert ⟨0, 1⟩ (.formula "C1")).insert ⟨0, 2⟩
    (.value (.text "x"))
  options := { maxReferences := 2 }

theorem dependsOn_linkSheet {name : String} (h : DependsOn linkSheet.lookup linkSheet.options " =b1"
    name) : name = "B1" ∨ name = "C1" := by
  obtain ⟨first, hfirst, hreached⟩ := h
  have hparse : Expr.ofFormula " =b1" linkSheet.options.maxNesting = .ok (.reference "b1") := by
    decide +kernel
  have hlink : Expr.ofFormula "C1" linkSheet.options.maxNesting = .ok (.reference "C1") := by
    decide +kernel
  induction hreached with
  | refl =>
    rw [eq_of_readsDirectly_reference hparse hfirst]
    exact .inl (by decide +kernel)
  | tail _ hreads ih =>
    obtain ⟨text, hformula, hlast⟩ := hreads
    rcases ih with rfl | rfl
    · have hcontent : linkSheet.lookup "B1" = some (.formula "C1") := by decide +kernel
      rw [hcontent] at hformula
      cases hformula
      rw [eq_of_readsDirectly_reference hlink hlast]
      exact .inr (by decide +kernel)
    · have hcontent : linkSheet.lookup "C1" = some (.value (.text "x")) := by decide +kernel
      rw [hcontent] at hformula
      cases hformula

/-- A formula behind a blank and an equals sign, written into a cell and typed into it. -/
theorem evaluateCell_of_typed_linkSheet :
    (∃ s', linkSheet.setFormula "$A$1" " =b1" = .ok s' ∧
      s'.evaluate " =b1" = linkSheet.evaluate " =b1" ∧
      (s'.evaluateCell "$A$1").mapError SheetError.variant =
        (s'.evaluate " =b1").mapError SheetError.variant) ∧
    (∃ s', linkSheet.setInput "$A$1" " =b1" = .ok s' ∧
      s'.evaluate " =b1" = linkSheet.evaluate " =b1" ∧
      (s'.evaluateCell "$A$1").mapError SheetError.variant =
        (s'.evaluate " =b1").mapError SheetError.variant) ∧
    linkSheet.evaluate " =b1" = .ok (.text "x") := by
  have hplace : place "$A$1" = .ok ⟨0, 0⟩ := by decide +kernel
  have hname : (⟨0, 0⟩ : Position).name = "A1" := by decide +kernel
  have hrefs : ¬ DependsOn linkSheet.lookup linkSheet.options " =b1" (⟨0, 0⟩ : Position).name := by
    intro h
    rw [hname] at h
    rcases dependsOn_linkSheet h with heq | heq <;> simp at heq
  have hvalue : linkSheet.evaluate " =b1" = .ok (.text "x") := by
    rw [evaluate, evaluateFormula_eq_retrieve]
    decide +kernel
  have htyped := evaluateCell_of_typed linkSheet "$A$1" " =b1" ⟨0, 0⟩ hplace hrefs
    (by decide +kernel)
  exact ⟨htyped.1 (by decide +kernel), htyped.2 (by decide +kernel) (by decide +kernel), hvalue⟩

/-- A text with two equals signs has a value in a cell, though it cannot be read by itself. -/
theorem exists_value_of_markedTwice :
    ¬ DependsOn new.lookup new.options "==TRUE" (⟨0, 0⟩ : Position).name ∧
      new.formulaCells.length < new.options.maxReferences ∧
      ∃ s', new.setFormula "A1" "==TRUE" = .ok s' ∧
        s'.evaluateCell "A1" = .ok (.boolean true) ∧
        s'.evaluate "==TRUE" = .error (.formula (.parse (.noLeftOperand "=" 0))) := by
  have hfail : ∀ s : Sheet, s.options = {} →
      s.evaluate "==TRUE" = .error (.formula (.parse (.noLeftOperand "=" 0))) := by
    intro s hs
    have hparse : Expr.ofFormula "==TRUE" defaultNesting =
        .error (.parse (.noLeftOperand "=" 0)) := by decide +kernel
    rw [evaluate, evaluateFormula, hs, hparse]
    rfl
  refine ⟨?_, by decide +kernel, new.write ⟨0, 0⟩ (.formula "=TRUE"), ?_, ?_, hfail _ rfl⟩
  · rintro ⟨first, ⟨e, hparse, _⟩, _⟩
    have hmark : MarkedTwice "==TRUE" := by decide +kernel
    obtain ⟨err, hnone⟩ := Expr.ofFormula_of_markedTwice hmark new.options.maxNesting
    rw [hnone] at hparse
    cases hparse
  · rw [setFormula, Content.ofFormula_eq, set_of_place (p := ⟨0, 0⟩) (by decide +kernel)]
    rfl
  · rw [evaluateCell]
    simp only [evaluateCell_eq_retrieve]
    decide +kernel

end Sheet

end Spreadsheet
