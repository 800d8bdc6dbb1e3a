import Spreadsheet.Proofs.Apply.Aggregates
import Spreadsheet.Proofs.Evaluation.Agreement
import Spreadsheet.Proofs.Formula.RangeCalls

/-!
# Ranges cut between two columns

A range asks for its cells column by column. If it is cut between two columns, the two parts ask for
the same cells in the same order, so the memory, the cells on the path and the first error are the
same for both. An aggregate does not tell their values in two lists from those in one.

## Main results

* `Expr.checkedInquiry_columns`: an aggregate over a range is the same inquiry as over its parts.
* `evaluate_aggregate_columns`: it has the same value or error, also as a formula text.
-/

namespace Spreadsheet

/-- An expression is a range between two corners of a rectangle; groups around it do not matter. -/
inductive Expr.RangesOver (r : Range) : Expr → Prop
  | range {args : List Expr} {start stop : String} (hcorners : corners args = .ok (start, stop))
    (hrange : Range.ofNames start stop = .ok r) : RangesOver r (.operator .range args)
  | group {inner : Expr} (h : RangesOver r inner) : RangesOver r (.group inner)

theorem Inquiry.askAll_append (names others : List String) :
    askAll (names ++ others) = do
      let vs ← askAll names
      let ws ← askAll others
      return vs ++ ws := by
  induction names with
  | nil => simp [askAll]
  | cons name rest ih =>
    have hrest : ∀ v : Value, (do return v :: (← askAll (rest ++ others)) : Inquiry (List Value)) =
        (do return v :: (← askAll rest)) >>= fun vs => do return vs ++ (← askAll others) := by
      intro v
      rw [ih]
      simp
    exact congrArg (ask name) (funext hrest)

theorem Range.names_eq_append {r : Range} {col : Nat} (hleft : r.first.col ≤ col)
    (hright : col < r.last.col) :
    r.names = (r.upTo col hleft).names ++ (r.beyond col hright).names := by
  rw [names, cells_eq_append hleft hright, List.map_append]
  rfl

theorem Range.inGrid_last_upTo {r : Range} {col : Nat} (h : r.last.inGrid = true)
    (hleft : r.first.col ≤ col) (hright : col < r.last.col) :
    (r.upTo col hleft).last.inGrid = true := by
  rw [Position.inGrid_iff] at h ⊢
  dsimp only [upTo]
  omega

namespace Expr

variable {e e₁ e₂ : Expr} {r : Range} {options : Options}

theorem RangesOver.checkCorners (h : e.RangesOver r) : e.checkCorners = .ok () := by
  induction h with
  | range hcorners _ =>
    rw [Expr.checkCorners, if_pos rfl, hcorners]
    rfl
  | group _ ih =>
    rw [Expr.checkCorners]
    exact ih

/-- A range asks for its cells, and its value is the list of their values. -/
theorem RangesOver.inquiry_eq (h : e.RangesOver r) (hcount : r.count ≤ options.maxRangeCells) :
    e.inquiry options = Inquiry.askAll r.names >>= fun vs => pure (.list vs) := by
  induction h with
  | range hcorners hrange =>
    rw [inquiry, if_pos rfl, hcorners, Inquiry.done_ok_bind]
    dsimp only
    rw [rangeInquiry, Options.rangeBetween_eq_ok_iff.2 ⟨hrange, hcount⟩, Inquiry.done_ok_bind]
  | group _ ih =>
    rw [inquiry]
    exact ih

theorem checkedInquiry_call (f : Builtin) {es : List Expr} (h : checkCornersOfAll es = .ok ()) :
    (apply (.builtin f) es).checkedInquiry options =
      inquiryOfAll options es >>= fun vs => .done (f.apply vs) := by
  have hoperation : Operation.builtin f ≠ .operator .range := fun heq => by cases heq
  rw [checkedInquiry, Expr.checkCorners, if_neg hoperation, h, Inquiry.done_ok_bind, inquiry,
    if_neg hoperation]
  rfl

/-- An aggregate over a range is the same inquiry as over the parts of the range. -/
theorem checkedInquiry_columns {f : Builtin} (hf : f ∈ Builtin.aggregates) {col : Nat}
    (hcount : r.count ≤ options.maxRangeCells) (hleft : r.first.col ≤ col)
    (hright : col < r.last.col) (h : e.RangesOver r) (h₁ : e₁.RangesOver (r.upTo col hleft))
    (h₂ : e₂.RangesOver (r.beyond col hright)) :
    (apply (.builtin f) [e]).checkedInquiry options =
      (apply (.builtin f) [e₁, e₂]).checkedInquiry options := by
  have hcounts := Range.count_eq_add hleft hright
  have hcount₁ : (r.upTo col hleft).count ≤ options.maxRangeCells := by omega
  have hcount₂ : (r.beyond col hright).count ≤ options.maxRangeCells := by omega
  have hwhole : checkCornersOfAll [e] = .ok () := by
    rw [checkCornersOfAll, h.checkCorners]
    rfl
  have hparts : checkCornersOfAll [e₁, e₂] = .ok () := by
    rw [checkCornersOfAll, h₁.checkCorners, checkCornersOfAll, h₂.checkCorners]
    rfl
  rw [checkedInquiry_call f hwhole, checkedInquiry_call f hparts]
  -- Both sides ask for the names of the first part and then for those of the second one.
  simp only [inquiryOfAll, h.inquiry_eq hcount, h₁.inquiry_eq hcount₁, h₂.inquiry_eq hcount₂,
    Range.names_eq_append hleft hright, Inquiry.askAll_append, bind_assoc, pure_bind,
    Builtin.apply_append hf]

end Expr

/-- A call with ranges as a formula text. -/
theorem evaluateFormula_rangeCallText (env : Environment) (options : Options) (f : Builtin)
    (p : Spelling × Spelling) (others : List (Spelling × Spelling))
    (h : ∀ q ∈ p :: others, Unreserved q) :
    evaluateFormula env options (rangeCallText f (p :: others)) =
      if 0 < options.maxNesting then
        (Expr.apply (.builtin f) ((p :: others).map rangeExpr)).evaluate env options
      else .error (.parse (.tooDeep f.name 0 options.maxNesting)) := by
  rw [evaluateFormula, Expr.ofFormula_rangeCall f p others h]
  split <;> rfl

theorem Range.SpelledBy.rangesOver {r : Range} {p : Spelling × Spelling} (h : r.SpelledBy p) :
    (rangeExpr p).RangesOver r :=
  .range rfl (Range.ofNames_canonicalName h.ofNames)

/-- Cutting a range between two columns changes no aggregate. For a range of the grid within the
limit, cut behind a column, an aggregate over the range has the same value, or the same error, as
over its two parts, in every environment and for all options. This holds for all expressions that
are these ranges, in whatever way their corners are given, and for the formula texts with any names
of opposite corners that are not names of functions; there are such names for each range. -/
theorem evaluate_aggregate_columns (env : Environment) (options : Options) {f : Builtin}
    (hf : f ∈ Builtin.aggregates) {r : Range} {col : Nat} (hgrid : r.last.inGrid = true)
    (hcount : r.count ≤ options.maxRangeCells) (hleft : r.first.col ≤ col)
    (hright : col < r.last.col) :
    (∀ e e₁ e₂ : Expr, e.RangesOver r → e₁.RangesOver (r.upTo col hleft) →
        e₂.RangesOver (r.beyond col hright) →
        (Expr.apply (.builtin f) [e]).evaluate env options =
          (Expr.apply (.builtin f) [e₁, e₂]).evaluate env options) ∧
      (∃ p p₁ p₂, r.SpelledBy p ∧ (r.upTo col hleft).SpelledBy p₁ ∧
        (r.beyond col hright).SpelledBy p₂) ∧
      ∀ p p₁ p₂ : Spelling × Spelling, r.SpelledBy p → (r.upTo col hleft).SpelledBy p₁ →
        (r.beyond col hright).SpelledBy p₂ →
        evaluateFormula env options (f.name ++ "(" ++ p.1.text ++ ":" ++ p.2.text ++ ")") =
          evaluateFormula env options (f.name ++ "(" ++ p₁.1.text ++ ":" ++ p₁.2.text ++ "," ++
            p₂.1.text ++ ":" ++ p₂.2.text ++ ")") := by
  have htrees : ∀ e e₁ e₂ : Expr, e.RangesOver r → e₁.RangesOver (r.upTo col hleft) →
      e₂.RangesOver (r.beyond col hright) →
      (Expr.apply (.builtin f) [e]).evaluate env options =
        (Expr.apply (.builtin f) [e₁, e₂]).evaluate env options := by
    intro e e₁ e₂ h h₁ h₂
    rw [Expr.evaluate_eq_retrieve, Expr.evaluate_eq_retrieve,
      Expr.checkedInquiry_columns hf hcount hleft hright h h₁ h₂]
  refine ⟨htrees, ?_, fun p p₁ p₂ h h₁ h₂ => ?_⟩
  · obtain ⟨p, hp⟩ := Range.exists_spelledBy hgrid
    obtain ⟨p₁, hp₁⟩ := Range.exists_spelledBy (Range.inGrid_last_upTo hgrid hleft hright)
    obtain ⟨p₂, hp₂⟩ := @Range.exists_spelledBy (r.beyond col hright) hgrid
    exact ⟨p, p₁, p₂, hp, hp₁, hp₂⟩
  · have hone : f.name ++ "(" ++ p.1.text ++ ":" ++ p.2.text ++ ")" = rangeCallText f [p] := by
      simp [rangeCallText, rangeText, String.append_assoc]
    have htwo : f.name ++ "(" ++ p₁.1.text ++ ":" ++ p₁.2.text ++ "," ++ p₂.1.text ++ ":" ++
        p₂.2.text ++ ")" = rangeCallText f [p₁, p₂] := by
      simp [rangeCallText, rangeText, String.append_assoc]
    rw [hone, htwo, evaluateFormula_rangeCallText env options f p [] (by simpa using h.unreserved),
      evaluateFormula_rangeCallText env options f p₁ [p₂]
        (by simpa using ⟨h₁.unreserved, h₂.unreserved⟩)]
    exact if_congr Iff.rfl (htrees _ _ _ h.rangesOver h₁.rangesOver h₂.rangesOver) rfl

/-- Numbers, a text and a formula in three columns. -/
def tableCells : Environment
  | "A1" => some (.value (.number 1.0))
  | "B1" => some (.formula "A1+1")
  | "B2" => some (.value (.text "x"))
  | "C1" => some (.value (.number 4.0))
  | _ => none

/-- A sum over three columns is that over the first one and the other two, whichever opposite
corners are named, with anchors or without. -/
theorem evaluate_sum_columns_tableCells :
    evaluateFormula tableCells {} "SUM(A1:C2)" = .ok (.number 7.0) ∧
      evaluateFormula tableCells {} "SUM(A2:$A1,B2:C1)" = .ok (.number 7.0) := by
  let table : Range := ⟨⟨0, 0⟩, ⟨1, 2⟩, by decide, by decide⟩
  let whole : Spelling × Spelling := (Position.spelling ⟨0, 0⟩, Position.spelling ⟨1, 2⟩)
  let first : Spelling × Spelling :=
    (Position.spelling ⟨1, 0⟩, { Position.spelling ⟨0, 0⟩ with colAnchored := true })
  let others : Spelling × Spelling := (Position.spelling ⟨1, 1⟩, Position.spelling ⟨0, 2⟩)
  obtain ⟨_, _, htexts⟩ := evaluate_aggregate_columns tableCells {} (f := .sum) (r := table)
    (by decide) (by decide) (by decide) (by decide : 0 ≤ 0) (by decide : 0 < 2)
  have hvalue : evaluateFormula tableCells {} "SUM(A1:C2)" = .ok (.number 7.0) := by
    rw [evaluateFormula_eq_retrieve]
    decide +kernel
  have hwhole : table.SpelledBy whole := ⟨by unfold Unreserved; decide +kernel, by decide +kernel⟩
  have hfirst : (table.upTo 0 (by decide)).SpelledBy first :=
    ⟨by unfold Unreserved; decide +kernel, by decide +kernel⟩
  have hothers : (table.beyond 0 (by decide)).SpelledBy others :=
    ⟨by unfold Unreserved; decide +kernel, by decide +kernel⟩
  have htext : Builtin.sum.name ++ "(" ++ whole.1.text ++ ":" ++ whole.2.text ++ ")" =
      "SUM(A1:C2)" := by
    decide +kernel
  have hparts : Builtin.sum.name ++ "(" ++ first.1.text ++ ":" ++ first.2.text ++ "," ++
      others.1.text ++ ":" ++ others.2.text ++ ")" = "SUM(A2:$A1,B2:C1)" := by
    decide +kernel
  have hsame := htexts whole first others hwhole hfirst hothers
  rw [htext, hparts, hvalue] at hsame
  exact ⟨hvalue, hsame.symm⟩

end Spreadsheet
