import Spreadsheet.Proofs.Evaluation.Detection
import Spreadsheet.Proofs.Evaluation.Replacing
import Spreadsheet.Proofs.Formula.Marks

/-!
# A formula in a cell of its own

A formula can be evaluated by itself or from a cell that holds it. From the cell there is one level
less, and the cell is on the path; neither matters if the formula does not read the cell and there
is a level more than there are formula cells. Without a look for cycles an evaluation that meets a
cycle goes too deep either way, though it may stop at another cell.

## Main results

* `sameVariant_levels`: with room to spare, a level more or less shows in no value and no variant of
  errors.
* `evaluateCell_sameVariant`: a formula comes to the same in a cell of its own.
* `evaluateFormula_stored`: and it does not matter whether it or what is stored of it is evaluated.
-/

namespace Spreadsheet

/-! ## Variants of errors -/

/-- The variants of the errors of formulas. -/
inductive FormulaError.Variant
  | lex
  | parse
  | evaluation
  | unknownFunction
  | argumentCount
  | typeMismatch
  | divisionByZero
  | invalidReference
  | circularReference
  deriving DecidableEq, Repr

/-- The variant of an error, without its details. -/
def FormulaError.variant : FormulaError → Variant
  | .lex .. => .lex
  | .parse _ => .parse
  | .evaluation _ => .evaluation
  | .unknownFunction _ => .unknownFunction
  | .argumentCount .. => .argumentCount
  | .typeMismatch .. => .typeMismatch
  | .divisionByZero _ => .divisionByZero
  | .invalidReference _ => .invalidReference
  | .circularReference _ => .circularReference

theorem FormulaError.variant_unplaced (e : FormulaError) : e.unplaced.variant = e.variant := by
  cases e <;> rfl

/-- The same result, or errors of the same variant. -/
def SameVariant {α : Type} (r r' : Except FormulaError α) : Prop :=
  r.mapError FormulaError.variant = r'.mapError FormulaError.variant

namespace SameVariant

variable {α β : Type} {r r' r'' : Except FormulaError α}

theorem refl (r : Except FormulaError α) : SameVariant r r := rfl

theorem trans (h : SameVariant r r') (h' : SameVariant r' r'') : SameVariant r r'' := Eq.trans h h'

theorem of_eq (h : r = r') : SameVariant r r' := h ▸ refl r

theorem map (h : SameVariant r r') (f : α → β) : SameVariant (r.map f) (r'.map f) := by
  rw [SameVariant, mapError_map, mapError_map, h]

end SameVariant

namespace Evaluation

open Forgetful (Room Covers)

variable {env other : Environment} {options on off : Options} {memory : Memory} {levels : Nat}
  {name text : String} {cells : Finset String}

theorem TooDeep.sameVariant {α : Type} {r r' : Except FormulaError α} (h : TooDeep options r)
    (h' : TooDeep options r') : SameVariant r r' := by
  obtain ⟨cell, rfl⟩ := h
  obtain ⟨cell', rfl⟩ := h'
  rfl

/-! ## A level more or less -/

/-- With a level for each formula cell that a formula leads to, another level makes no difference,
if cycles are looked for. -/
theorem run_levels_eq (detect : options.detectCycles = true)
    (hcovers : ∀ name, Mentioned options text name → Covers env options cells name)
    (hroom : cells.card ≤ levels) :
    (formulaInquiry options text).run (retrieve env options (levels + 1) []) memory =
      (formulaInquiry options text).run (retrieve env options levels []) memory := by
  refine (retrieve_eq_of_not_deep (Nat.le_succ levels) []).run _ fun e he => ?_
  rcases Inquiry.own_or_of_run_error (failsOnly_formulaInquiry options text) he with
    hown | ⟨name, between, hask, hload⟩
  · exact hown.not_deep
  · exact not_deep_of_room detect (room_nil hroom) (hcovers name (mentioned_of_mayAsk hask)) hload

/-- If cycles are not looked for, a formula that meets one goes too deep on either level. -/
theorem sameVariant_levels_of_twins (h : Twins on off)
    (hcovers : ∀ name, Mentioned on text name → Covers env on cells name)
    (hroom : cells.card ≤ levels) :
    SameVariant ((formulaInquiry off text).run (retrieve env off (levels + 1) []) memory)
      ((formulaInquiry off text).run (retrieve env off levels []) memory) := by
  have hsame : (formulaInquiry on text).run (retrieve env on (levels + 1) []) memory =
      (formulaInquiry on text).run (retrieve env on levels []) memory :=
    run_levels_eq h.detects hcovers hroom
  rw [← h.formulaInquiry_eq]
  by_cases hnone : ReportsNone
      ((formulaInquiry on text).run (retrieve env on levels []) memory)
  · rw [(retrieve_eq_of_reportsNone h levels []).run _ hnone,
      (retrieve_eq_of_reportsNone h (levels + 1) []).run _ (hsame ▸ hnone), hsame]
    exact .refl _
  · obtain ⟨last, hcircular⟩ : ∃ last,
        (formulaInquiry on text).run (retrieve env on levels []) memory =
          .error (.circularReference last) := by
      simpa [ReportsNone] using hnone
    have hown := failsOnly_formulaInquiry on text
    exact (tooDeep_of_run_circular h _ hown (levels + 1) (hsame.trans hcircular)).sameVariant
      (tooDeep_of_run_circular h _ hown levels hcircular)

/-- With a level for each formula cell, another level shows in no value and no variant of errors. -/
theorem sameVariant_levels
    (hcovers : ∀ name, Mentioned options text name → Covers env options cells name)
    (hroom : cells.card ≤ levels) :
    SameVariant ((formulaInquiry options text).run (retrieve env options (levels + 1) []) memory)
      ((formulaInquiry options text).run (retrieve env options levels []) memory) := by
  cases hdetect : options.detectCycles with
  | true => exact .of_eq (run_levels_eq hdetect hcovers hroom)
  | false =>
    have htwins : Twins { options with detectCycles := true } options :=
      ⟨rfl, rfl, rfl, rfl, hdetect⟩
    exact sameVariant_levels_of_twins htwins hcovers hroom

/-! ## The cell -/

/-- A formula that does not read the cell which holds it comes to the same there as by itself. -/
theorem evaluateCell_sameVariant {cell : String}
    (hcell : other (canonicalName cell) = some (.formula text))
    (hrefs : ¬ DependsOn env options text (canonicalName cell))
    (hother : ∀ name, DependsOn env options text name → other name = env name)
    (hcovers : ∀ name, Mentioned options text name → Covers env options cells name)
    (hroom : cells.card < options.maxReferences) :
    SameVariant (evaluateCell other options cell) (evaluateFormula env options text) := by
  obtain ⟨levels, hlevels⟩ : ∃ levels, options.maxReferences = levels + 1 :=
    ⟨options.maxReferences - 1, by omega⟩
  have hopen : Unresolved other ∅ (canonicalName cell) text :=
    ⟨Std.TreeMap.getElem?_emptyc, hcell⟩
  have hpath : ∀ name, DependsOn env options text name →
      (name ∈ [canonicalName cell] ↔ name ∈ ([] : List String)) := by
    intro name hname
    simp only [List.mem_singleton, List.not_mem_nil, iff_false]
    rintro rfl
    exact hrefs hname
  rw [evaluateCell_eq_retrieve, evaluateFormula_eq_retrieve, hlevels,
    retrieve_succ_of_unresolved hopen fun _ => List.not_mem_nil, map_fst_remember,
    run_formulaInquiry_congr levels hother hpath]
  exact ((sameVariant_levels hcovers (by omega)).map Prod.fst).symm

end Evaluation

/-! ## What is stored of the formula -/

theorem SameVariant.of_unplaced {α : Type} {r r' : Except FormulaError α}
    (h : r.mapError FormulaError.unplaced = r'.mapError FormulaError.unplaced) :
    SameVariant r r' := by
  refine mapError_eq_of_mapError_eq h fun e e' hsame => ?_
  rw [← e.variant_unplaced, hsame, e'.variant_unplaced]

variable {env : Environment} {options : Options} {text name : String}

/-- What is stored of a formula text has the same tree, if there is one. -/
theorem Expr.ofFormula_stored_eq_ok {limit : Nat} {e : Expr} (h : ¬ MarkedTwice text) :
    ofFormula (Content.stored text) limit = .ok e ↔ ofFormula text limit = .ok e := by
  rw [← mapError_eq_ok FormulaError.unplaced, ofFormula_stored limit h, mapError_eq_ok]

/-- It has the same value, or an error of the same variant. -/
theorem evaluateFormula_stored (h : ¬ MarkedTwice text) :
    SameVariant (evaluateFormula env options (Content.stored text))
      (evaluateFormula env options text) := by
  have hread := SameVariant.of_unplaced (Expr.ofFormula_stored options.maxNesting h)
  rw [evaluateFormula, evaluateFormula]
  cases htext : Expr.ofFormula text options.maxNesting with
  | ok e =>
    rw [(Expr.ofFormula_stored_eq_ok h).2 htext]
    exact .refl _
  | error e =>
    cases hstored : Expr.ofFormula (Content.stored text) options.maxNesting with
    | ok e' =>
      rw [hstored, htext] at hread
      cases hread
    | error e' =>
      rw [hstored, htext] at hread
      exact congrArg Except.error (Except.error.inj hread)

/-- And it depends on the same cells. -/
theorem dependsOn_stored (h : ¬ MarkedTwice text) :
    DependsOn env options (Content.stored text) name ↔ DependsOn env options text name := by
  simp only [DependsOn, ReadsDirectly, Expr.ofFormula_stored_eq_ok h]

end Spreadsheet
