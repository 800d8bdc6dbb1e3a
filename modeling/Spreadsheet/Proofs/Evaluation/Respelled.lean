import Spreadsheet.Proofs.Evaluation.Grouped
import Spreadsheet.Proofs.Formula.Written

/-!
# Formulas that are written alike

Cells are loaded by their canonical names, so synonymous trees have the same steps; only an error
that shows a tree shows how it is written. Formula texts whose tokens are written alike are read as
synonymous trees, or neither of them is read. So they come to the same value, or to errors of the
same variant.

## Main results

* `Expr.Synonymous.steps`: synonymous trees have the same steps.
* `evaluateFormula_writtenAlike`: formulas that are written alike come to the same.
-/

namespace Spreadsheet

namespace Expr

/-! ## Steps -/

theorem Synonymous.corner {e e' : Expr} (h : e.Synonymous e') :
    SameVariant e.corner e'.corner := by
  match h with
  | .constant v => exact .refl _
  | .reference hname =>
    rw [Expr.corner, Expr.corner, hname]
    exact .refl _
  | .apply _ _ => rfl
  | .group hinner => exact hinner.corner

theorem SynonymousAll.rangeStep {args args' : List Expr} (h : SynonymousAll args args') :
    SameVariant (rangeStep args) (rangeStep args') := by
  match h with
  | .cons hstart (.cons hstop .nil) =>
    exact hstart.corner.bind fun p => hstop.corner.bind fun q => .refl _
  | .nil => exact .refl _
  | .cons _ .nil => rfl
  | .cons _ (.cons _ (.cons _ hrest)) => rfl

mutual

/-- Synonymous trees have the same steps. -/
theorem Synonymous.steps {e e' : Expr} (h : e.Synonymous e') : SameVariant e.steps e'.steps := by
  match h with
  | .constant v => exact .refl _
  | .reference hname =>
    rw [Expr.steps, Expr.steps, hname]
    exact .refl _
  | .group hinner =>
    rw [Expr.steps, Expr.steps]
    exact hinner.steps
  | .apply operation hargs =>
    rw [Expr.steps, Expr.steps, hargs.length_eq]
    split
    · exact hargs.rangeStep.bind fun _ => .refl _
    · exact hargs.stepsOfAll.bind fun _ => .refl _

theorem SynonymousAll.stepsOfAll {es es' : List Expr} (h : SynonymousAll es es') :
    SameVariant (stepsOfAll es) (stepsOfAll es') := by
  match h with
  | .nil => exact .refl _
  | .cons he hrest =>
    rw [Expr.stepsOfAll, Expr.stepsOfAll]
    exact he.steps.bind fun _ => hrest.stepsOfAll.bind fun _ => .refl _

end

/-- Synonymous trees come to the same. -/
theorem Synonymous.evaluate {e e' : Expr} (h : e.Synonymous e') (env : Environment)
    (options : Options) : SameVariant (e.evaluate env options) (e'.evaluate env options) :=
  h.steps.bind fun _ => .refl _

end Expr

/-! ## Formula texts -/

variable {text text' : String} {tokens tokens' : List Token}

/-- Tokens of texts that cannot be read fail with errors of one variant. -/
theorem Expr.variant_of_ofTokens {limit : Nat} {e : FormulaError}
    (h : tokenize text = .ok tokens) (he : ofTokens tokens limit = .error e) :
    e.variant = .parse := by
  obtain ⟨fault, rfl⟩ := (failsOnly_ofTokens tokens limit e he).exists_fault h
  rfl

/-- Formulas that are written alike come to the same value, or to errors of the same variant. -/
theorem evaluateFormula_writtenAlike (h : tokenize (formulaBody text) = .ok tokens)
    (h' : tokenize (formulaBody text') = .ok tokens')
    (halike : List.Forall₂ Token.WrittenAlike tokens tokens') (env : Environment)
    (options : Options) :
    SameVariant (evaluateFormula env options text) (evaluateFormula env options text') := by
  have hsynonymous := synonymous_of_writtenAlike h h' halike
  have hback : List.Forall₂ Token.Synonymous tokens' tokens :=
    List.Forall₂.flip (hsynonymous.imp fun t t' ht => ht.symm)
  rw [evaluateFormula, evaluateFormula, Expr.ofFormula, Expr.ofFormula, h, h']
  change SameVariant (Expr.ofTokens tokens options.maxNesting >>= _)
    (Expr.ofTokens tokens' options.maxNesting >>= _)
  cases hread : Expr.ofTokens tokens options.maxNesting with
  | ok e =>
    obtain ⟨e', hread', he⟩ := Expr.exists_ofTokens_synonymous hread hsynonymous
    rw [hread']
    exact he.evaluate env options
  | error err =>
    cases hread' : Expr.ofTokens tokens' options.maxNesting with
    | ok e' =>
      obtain ⟨e, hok, _⟩ := Expr.exists_ofTokens_synonymous hread' hback
      rw [hread] at hok
      cases hok
    | error err' =>
      have hvariant : err.variant = err'.variant :=
        (Expr.variant_of_ofTokens h hread).trans (Expr.variant_of_ofTokens h' hread').symm
      exact congrArg Except.error hvariant

/-- The tokens of a choice, written with small letters, anchors and a leading zero. -/
def smallChoice : List Token :=
  [⟨.function, "if", none, 0⟩, ⟨.symbol, "(", none, 2⟩, ⟨.cell, "$a$01", none, 3⟩,
    ⟨.operator, ">", none, 8⟩,
    ⟨.constant, "1e2", some (.number (Number.Decimal.toFloat ⟨1, 2⟩)), 9⟩,
    ⟨.symbol, ",", none, 12⟩, ⟨.constant, "true", some (.boolean true), 13⟩,
    ⟨.symbol, ",", none, 17⟩, ⟨.cell, "zzzz9", none, 18⟩, ⟨.symbol, ")", none, 23⟩]

/-- The tokens of the same choice in capital letters. -/
def capitalChoice : List Token :=
  [⟨.function, "IF", none, 0⟩, ⟨.symbol, "(", none, 2⟩, ⟨.cell, "A1", none, 3⟩,
    ⟨.operator, ">", none, 5⟩,
    ⟨.constant, "1E2", some (.number (Number.Decimal.toFloat ⟨1, 2⟩)), 6⟩,
    ⟨.symbol, ",", none, 9⟩, ⟨.constant, "TRUE", some (.boolean true), 10⟩,
    ⟨.symbol, ",", none, 14⟩, ⟨.cell, "ZZZZ9", none, 15⟩, ⟨.symbol, ")", none, 20⟩]

theorem writtenAlike_choice : List.Forall₂ Token.WrittenAlike smallChoice capitalChoice := by
  let anchored : Spelling :=
    ⟨true, ['a'], true, ['0', '1'], by simp, by simp, List.all_eq_true.1 rfl,
      List.all_eq_true.1 rfl⟩
  let plain : Spelling :=
    ⟨false, ['A'], false, ['1'], by simp, by simp, List.all_eq_true.1 rfl, List.all_eq_true.1 rfl⟩
  have hcell : Token.WrittenAlike ⟨.cell, "$a$01", none, 3⟩ ⟨.cell, "A1", none, 3⟩ :=
    @Token.WrittenAlike.spelling _ _ anchored plain ⟨⟨0, 0⟩, true, true⟩ rfl rfl (by decide)
      (by decide) (by decide +kernel) ⟨by decide, by decide⟩
  have hsame : ∀ {kind : TokenKind} {text : String} {value : Option Value} {n m : Nat},
      Token.WrittenAlike ⟨kind, text, value, n⟩ ⟨kind, text, value, m⟩ := .same rfl rfl
  have hfunction : Token.WrittenAlike ⟨.function, "if", none, 0⟩ ⟨.function, "IF", none, 0⟩ :=
    .letterCase rfl (.inl rfl) (by decide)
  have hexponent : Text.sameName "1e2" "1E2" = true := by decide
  have hnumber : ∀ {x : Float}, Token.WrittenAlike ⟨.constant, "1e2", some (.number x), 9⟩
      ⟨.constant, "1E2", some (.number x), 6⟩ :=
    .letterCase rfl (.inr (.inr ⟨rfl, by simp⟩)) hexponent
  have hboolean : Token.WrittenAlike ⟨.constant, "true", some (.boolean true), 13⟩
      ⟨.constant, "TRUE", some (.boolean true), 10⟩ :=
    .letterCase rfl (.inr (.inr ⟨rfl, by decide⟩)) (by decide)
  have hstray : Token.WrittenAlike ⟨.cell, "zzzz9", none, 18⟩ ⟨.cell, "ZZZZ9", none, 15⟩ :=
    .letterCase rfl (.inr (.inl rfl)) (by decide)
  exact .cons hfunction <| .cons hsame <| .cons hcell <| .cons hsame <| .cons hnumber <|
    .cons hsame <| .cons hboolean <| .cons hsame <| .cons hstray <| .cons hsame .nil

set_option maxRecDepth 10000 in
/-- A choice comes to the same in small letters and in capitals, with anchors and without. -/
theorem evaluateFormula_writtenAlike_choice :
    tokenize (formulaBody "=if($a$01>1e2,true,zzzz9)") = .ok smallChoice ∧
      tokenize (formulaBody "IF(A1>1E2,TRUE,ZZZZ9)") = .ok capitalChoice ∧
      List.Forall₂ Token.WrittenAlike smallChoice capitalChoice ∧
      ∀ env options, SameVariant (evaluateFormula env options "=if($a$01>1e2,true,zzzz9)")
        (evaluateFormula env options "IF(A1>1E2,TRUE,ZZZZ9)") := by
  have hsmall : tokenize (formulaBody "=if($a$01>1e2,true,zzzz9)") = .ok smallChoice := by
    with_unfolding_all rfl
  have hcapital : tokenize (formulaBody "IF(A1>1E2,TRUE,ZZZZ9)") = .ok capitalChoice := by
    with_unfolding_all rfl
  exact ⟨hsmall, hcapital, writtenAlike_choice,
    evaluateFormula_writtenAlike hsmall hcapital writtenAlike_choice⟩

end Spreadsheet
