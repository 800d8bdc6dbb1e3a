import Spreadsheet.Proofs.Evaluation.Agreement
import Spreadsheet.Proofs.Evaluation.OwnErrors
import Spreadsheet.Proofs.Evaluation.References

/-!
# What an error of operands names

An error that is about operands names the operation that they do not suit. The operation is applied
in the tree of the formula, or in that of a formula cell which the formula depends on, and so a
token of their texts stands for it. The name is written there, with one exception: a minus sign
between two operands is read as a sum with a negative, and `+` is what the error of that sum names.

## Main results

* `exists_consults_of_run_error`: an error is that of a text which is consulted, if it is not of
  references.
* `evaluateFormula_blames`: where the operation that an error names is written.
-/

namespace Spreadsheet

open FormulaError (Blames OfOperands OfReading)

/-! ## The text that is to blame -/

/-- The errors of references that go in a circle or too deep. -/
inductive FormulaError.OfReferences : FormulaError → Prop
  | circular (name : String) : OfReferences (.circularReference name)
  | tooDeep (name : String) (limit : Nat) : OfReferences (.evaluation (.chainTooDeep name limit))

/-- The texts that the value of a formula text comes from: its own, and those of the formula cells
that it depends on. -/
inductive Consults (env : Environment) (options : Options) (text : String) : String → Prop
  | itself : Consults env options text text
  | cell {name source : String} (h : DependsOn env options text name)
    (hcell : env name = some (.formula source)) : Consults env options text source

variable {env : Environment} {options : Options} {text operation : String} {e : FormulaError}

/-- What the formula of a cell consults, a formula that reads the cell consults. -/
theorem Consults.of_reads {name source last : String} (hreads : ReadsDirectly options text name)
    (hcell : env name = some (.formula source)) (h : Consults env options source last) :
    Consults env options text last := by
  cases h with
  | itself => exact .cell ⟨name, hreads, .refl⟩ hcell
  | cell hdepends hlast =>
    obtain ⟨first, hfirst, hpath⟩ := hdepends
    exact .cell ⟨name, hreads, .head ⟨source, hcell, hfirst⟩ hpath⟩ hlast

namespace Evaluation

/-- An error that is not of references is that of a text which is consulted; by induction on the
levels. -/
theorem exists_consults_of_run_error {P : String → FormulaError → Prop}
    (hformula : ∀ source, (formulaInquiry options source).FailsOnly (P source)) (levels : Nat)
    (path : List String) (memory : Memory)
    (h : (formulaInquiry options text).run (retrieve env options levels path) memory = .error e) :
    e.OfReferences ∨ ∃ source, Consults env options text source ∧ P source e := by
  induction levels generalizing text path memory with
  | zero =>
    rcases Inquiry.own_or_of_run_error (hformula text) h with hown | ⟨name, between, -, hload⟩
    · exact .inr ⟨text, .itself, hown⟩
    · cases failsToLoad_of_retrieve hload with
      | cycle _ _ _ => exact .inl (.circular name)
      | tooDeep _ _ => exact .inl (.tooDeep name _)
  | succ levels ih =>
    rcases Inquiry.own_or_of_run_error (hformula text) h with hown | ⟨name, between, hask, hload⟩
    · exact .inr ⟨text, .itself, hown⟩
    · cases failsToLoad_of_retrieve hload with
      | cycle _ _ _ => exact .inl (.circular name)
      | within hopen _ hrun =>
        rcases ih (name :: path) between hrun with hreferences | ⟨source, hconsults, hown⟩
        · exact .inl hreferences
        · have hreads : ReadsDirectly options text name := readsDirectly_of_mayAsk hask
          exact .inr ⟨source, hconsults.of_reads hreads hopen.formula, hown⟩

end Evaluation

/-! ## The operation that is to blame -/

/-- A formula text fails when it is read, or as its tree does. -/
theorem failsOnly_formulaInquiry_faults (options : Options) (text : String) :
    (formulaInquiry options text).FailsOnly fun e => e.OfReading ∨
      ∃ tree, Expr.ofFormula text options.maxNesting = .ok tree ∧ tree.Faults e := by
  rw [formulaInquiry]
  cases htree : Expr.ofFormula text options.maxNesting with
  | error e =>
    exact failsOnly_error.2 (.inl (Expr.failsOnly_ofFormula text options.maxNesting e htree))
  | ok tree =>
    exact (tree.failsOnly_checkedInquiry options).mono fun _ h => .inr ⟨tree, rfl, h⟩

theorem FormulaError.OfOperands.not_ofReferences (h : e.OfOperands operation) :
    ¬ e.OfReferences := by
  intro hreferences
  cases hreferences with
  | circular => cases h
  | tooDeep => cases h

theorem FormulaError.OfOperands.not_ofReading (h : e.OfOperands operation) : ¬ e.OfReading := by
  intro hreading
  cases hreading with
  | lex => cases h
  | parse => cases h

/-- An error of operands names one operation. -/
theorem FormulaError.OfOperands.eq_of_blames {other : String} (h : e.OfOperands operation)
    (hblames : e.Blames other) : operation = other := by
  cases h with
  | typeMismatch => cases hblames with | typeMismatch => rfl
  | divisionByZero => cases hblames with | divisionByZero => rfl
  | notFinite => cases hblames with | notFinite => rfl
  | undefinedFor => cases hblames with | undefinedFor => rfl

/-- The operation that an error of operands names is applied in the tree that fails. -/
theorem Expr.Faults.exists_applies {tree : Expr} (h : tree.Faults e)
    (hoperands : e.OfOperands operation) :
    ∃ applied, tree.Applies applied ∧ applied.name = operation := by
  cases h with
  | operation happlies hblames => exact ⟨_, happlies, (hoperands.eq_of_blames hblames).symm⟩
  | invalidReference => cases hoperands
  | rangeTooLarge => cases hoperands

/-- Tokens name an operation: it is written, or it is a sum and a minus sign stands behind an
operand. -/
inductive NamedIn (tokens : List Token) : String → Prop
  | written {t : Token} {operation : String} (ht : t ∈ tokens) (h : t.Writes operation) :
    NamedIn tokens operation
  | difference {before after : List Token} {t : Token} (htokens : tokens = before ++ t :: after)
    (h : t.Subtracts (awaitsOperand true before)) : NamedIn tokens Operator.add.symbol

/-- What the tree of a formula text applies is named in its tokens. -/
theorem exists_namedIn_of_applies {source : String} {limit : Nat} {tree : Expr}
    {applied : Operation} (htree : Expr.ofFormula source limit = .ok tree)
    (h : tree.Applies applied) :
    ∃ tokens, tokenize (formulaBody source) = .ok tokens ∧ NamedIn tokens applied.name := by
  rw [Expr.ofFormula] at htree
  cases htokens : tokenize (formulaBody source) with
  | error err =>
    rw [htokens] at htree
    cases htree
  | ok tokens =>
    rw [htokens] at htree
    have hstands : StandsIn applied true tokens := (Expr.applies_iff_of_ofTokens htree).1 h
    obtain ⟨before, t, after, hsplit, hfor⟩ := standsIn_iff.1 hstands
    refine ⟨tokens, rfl, ?_⟩
    rcases hfor.writes with hwrites | ⟨rfl, hminus⟩
    · exact .written (by rw [hsplit]; exact List.mem_append_right _ List.mem_cons_self) hwrites
    · exact .difference hsplit hminus

/-- If an evaluation fails with an error of operands, the operation that the error names is
named in the text of the formula, or in that of a formula cell that it depends on: it is written
there, or it is a sum and a minus sign stands there between two operands. -/
theorem evaluateFormula_blames (h : evaluateFormula env options text = .error e)
    (hoperands : e.OfOperands operation) :
    ∃ source tokens, Consults env options text source ∧
      tokenize (formulaBody source) = .ok tokens ∧ NamedIn tokens operation := by
  have hrun := run_of_evaluateFormula_eq_error h
  rcases Evaluation.exists_consults_of_run_error (failsOnly_formulaInquiry_faults options) _ [] ∅
    hrun with hreferences | ⟨source, hconsults, hreading | ⟨tree, htree, hfaults⟩⟩
  · exact absurd hreferences hoperands.not_ofReferences
  · exact absurd hreading hoperands.not_ofReading
  · obtain ⟨applied, happlies, rfl⟩ := hfaults.exists_applies hoperands
    obtain ⟨tokens, htokens, hnamed⟩ := exists_namedIn_of_applies htree happlies
    exact ⟨source, tokens, hconsults, htokens, hnamed⟩

/-- One cell, with a difference that has no value. -/
def differenceCell : Environment
  | "A1" => some (.formula "\"x\" - 1")
  | _ => none

/-- The formula that refers to the cell fails with the sum that stands for the difference. -/
theorem evaluateFormula_blames_differenceCell :
    evaluateFormula differenceCell {} "2 * A1" = .error (.typeMismatch "+" "text \"x\"") ∧
      OfOperands "+" (.typeMismatch "+" "text \"x\"") ∧
      ∃ source tokens, Consults differenceCell {} "2 * A1" source ∧
        tokenize (formulaBody source) = .ok tokens ∧ NamedIn tokens "+" := by
  have hfails : evaluateFormula differenceCell {} "2 * A1" =
      .error (.typeMismatch "+" "text \"x\"") := by
    rw [evaluateFormula_eq_retrieve]
    decide +kernel
  exact ⟨hfails, .typeMismatch _, evaluateFormula_blames hfails (.typeMismatch _)⟩

/-- The tokens of the difference. -/
def textDifference : List Token :=
  [⟨.constant, "\"x\"", some (.text "x"), 0⟩, ⟨.operator, "-", none, 4⟩,
    ⟨.constant, "1", some (.number (Number.Decimal.toFloat ⟨1, 0⟩)), 6⟩]

/-- The difference by itself fails with an error that names `+`, which is written nowhere. -/
theorem exists_unwritten_of_textDifference :
    evaluateFormula (fun _ => none) {} "\"x\" - 1" = .error (.typeMismatch "+" "text \"x\"") ∧
      OfOperands "+" (.typeMismatch "+" "text \"x\"") ∧
      ¬ ∃ source tokens, Consults (fun _ => none) {} "\"x\" - 1" source ∧
        tokenize (formulaBody source) = .ok tokens ∧ ∃ t ∈ tokens, t.Writes "+" := by
  refine ⟨by rw [evaluateFormula_eq_retrieve]; decide +kernel, .typeMismatch _, ?_⟩
  rintro ⟨source, tokens, hconsults, htokens, t, ht, hwrites⟩
  have hsource : source = "\"x\" - 1" := by
    cases hconsults with
    | itself => rfl
    | cell _ hcell => cases hcell
  have hread : tokenize (formulaBody "\"x\" - 1") = .ok textDifference := by
    with_unfolding_all rfl
  rw [hsource, hread] at htokens
  cases htokens
  have hunwritten : ∀ op : Operator, op.symbol = "+" → op.sourceText ≠ "-" := by
    intro op
    cases op <;> decide
  rcases hwrites with ⟨hkind, -⟩ | ⟨hkind, op, htext, hname⟩
  · simp only [textDifference, List.mem_cons, List.not_mem_nil, or_false] at ht
    rcases ht with rfl | rfl | rfl <;> cases hkind
  · simp only [textDifference, List.mem_cons, List.not_mem_nil, or_false] at ht
    rcases ht with rfl | rfl | rfl
    · cases hkind
    · exact hunwritten op hname htext
    · cases hkind

end Spreadsheet
