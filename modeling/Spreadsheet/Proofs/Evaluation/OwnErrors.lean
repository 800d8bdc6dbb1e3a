import Spreadsheet.Proofs.Apply.Blame
import Spreadsheet.Proofs.Evaluation.Retrieval
import Spreadsheet.Proofs.Formula.Applied
import Spreadsheet.Proofs.Formula.Reading

/-!
# The errors of a formula itself

Some errors lie in a formula: its text, its operations, its ranges. The others are those of the
cells that it refers to, and it passes them on. That cells refer to each other in a circle, or in
too long a chain, is never an error of one formula.

## Main results

* `failsOnly_formulaInquiry`: where no question fails, a formula fails with an error of its own.
* `Inquiry.own_or_of_run_error`: otherwise its error is that of a cell which it asked for.
* `Evaluation.SameWhere.run`: a run meets a difference of loaders only through an error.
-/

namespace Spreadsheet

/-- The errors of a formula itself. -/
inductive FormulaError.Own : FormulaError → Prop
  | reading {e : FormulaError} (h : e.OfReading) : Own e
  | operation (operation : Operation) {e : FormulaError} (h : e.Blames operation.name) : Own e
  | invalidReference (cause : RangeError) : Own (.invalidReference cause)
  | rangeTooLarge (start stop : String) (cells limit : Nat) :
    Own (.evaluation (.rangeTooLarge start stop cells limit))

open FormulaError (Own)

theorem FormulaError.not_own_circularReference (name : String) :
    ¬ Own (.circularReference name) := by
  intro h
  cases h with
  | reading h => cases h
  | operation _ h => cases h

theorem FormulaError.not_own_chainTooDeep (name : String) (limit : Nat) :
    ¬ Own (.evaluation (.chainTooDeep name limit)) := by
  intro h
  cases h with
  | reading h => cases h
  | operation _ h => cases h

/-! ## Inquiries -/

namespace Inquiry

variable {α β : Type} {P : FormulaError → Prop}

/-- Whatever the answers are, an error is of a certain kind. -/
def FailsOnly (P : FormulaError → Prop) : Inquiry α → Prop
  | .done r => Spreadsheet.FailsOnly P r
  | .ask _ next => ∀ v, (next v).FailsOnly P

/-- The errors of two parts, of which the second one meets only the results that are possible. -/
theorem failsOnly_bind_of_yields {Q : α → Prop} {i : Inquiry α} {f : α → Inquiry β}
    (hi : i.FailsOnly P) (hyields : i.Yields Q) (hf : ∀ a, Q a → (f a).FailsOnly P) :
    (i >>= f).FailsOnly P := by
  induction i with
  | done r =>
    cases r with
    | ok a => exact hf a hyields
    | error e => exact failsOnly_error.2 (hi e rfl)
  | ask name next ih => exact fun v => ih v (hi v) (hyields v)

theorem failsOnly_bind {i : Inquiry α} {f : α → Inquiry β} (hi : i.FailsOnly P)
    (hf : ∀ a, (f a).FailsOnly P) : (i >>= f).FailsOnly P :=
  failsOnly_bind_of_yields hi i.yields_true fun a _ => hf a

theorem FailsOnly.mono {Q : FormulaError → Prop} {i : Inquiry α} (h : i.FailsOnly P)
    (hPQ : ∀ e, P e → Q e) : i.FailsOnly Q := by
  induction i with
  | done r => exact Spreadsheet.FailsOnly.mono h hPQ
  | ask name next ih => exact fun v => ih v (h v)

theorem failsOnly_pure (a : α) : (pure a : Inquiry α).FailsOnly P := failsOnly_ok a

theorem failsOnly_askAll (names : List String) : (askAll names).FailsOnly P := by
  induction names with
  | nil => exact failsOnly_pure []
  | cons name rest ih => exact fun v => failsOnly_bind ih fun vs => failsOnly_pure (v :: vs)

/-- An error that is not of the inquiry's own is that of a question. -/
theorem own_or_of_run_error {i : Inquiry α} {load : Loader} {memory : Memory} {e : FormulaError}
    (hi : i.FailsOnly P) (h : i.run load memory = .error e) :
    P e ∨ ∃ name between, i.MayAsk name ∧ load name between = .error e := by
  induction i generalizing memory with
  | done r =>
    cases r with
    | ok a => cases h
    | error e' =>
      cases h
      exact .inl (hi e rfl)
  | ask name next ih =>
    rcases run_ask_eq_error h with hload | ⟨v, between, _, hnext⟩
    · exact .inr ⟨name, memory, .here next, hload⟩
    · rcases ih v (hi v) hnext with hown | ⟨other, later, hask, hload⟩
      · exact .inl hown
      · exact .inr ⟨other, later, .later hask, hload⟩

end Inquiry

/-! ## Expressions -/

/-- The errors of an expression itself: of an operation that it applies, or of a range. -/
inductive Expr.Faults (e : Expr) : FormulaError → Prop
  | operation {operation : Operation} (h : e.Applies operation) {err : FormulaError}
    (hblames : err.Blames operation.name) : Faults e err
  | invalidReference (cause : RangeError) : Faults e (.invalidReference cause)
  | rangeTooLarge (start stop : String) (cells limit : Nat) :
    Faults e (.evaluation (.rangeTooLarge start stop cells limit))

theorem Expr.Faults.own {e : Expr} {err : FormulaError} (h : e.Faults err) : err.Own := by
  cases h with
  | operation _ hblames => exact .operation _ hblames
  | invalidReference cause => exact .invalidReference cause
  | rangeTooLarge start stop cells limit => exact .rangeTooLarge start stop cells limit

/-- What an expression applies, a larger one applies too. -/
theorem Expr.Faults.mono {e e' : Expr} {err : FormulaError} (h : e.Faults err)
    (happlies : ∀ operation, e.Applies operation → e'.Applies operation) : e'.Faults err := by
  cases h with
  | operation h hblames => exact .operation (happlies _ h) hblames
  | invalidReference cause => exact .invalidReference cause
  | rangeTooLarge start stop cells limit => exact .rangeTooLarge start stop cells limit

theorem Options.failsOnly_rangeBetween (options : Options) (start stop : String) (e : Expr) :
    FailsOnly e.Faults (options.rangeBetween start stop) := by
  rw [rangeBetween]
  split
  · exact failsOnly_error.2 (.invalidReference _)
  · split
    · exact failsOnly_error.2 (.rangeTooLarge ..)
    · exact failsOnly_ok _

theorem failsOnly_rangeInquiry (options : Options) (start stop : String) (e : Expr) :
    (rangeInquiry options start stop).FailsOnly e.Faults := by
  refine Inquiry.failsOnly_bind (options.failsOnly_rangeBetween start stop e) fun r => ?_
  exact Inquiry.failsOnly_bind (Inquiry.failsOnly_askAll r.names) fun vs => Inquiry.failsOnly_pure _

namespace Expr

/-- A corner that is no cell name is an operand that the range operator does not take. -/
theorem failsOnly_corner (e : Expr) :
    FailsOnly (FormulaError.OfOperands Operator.range.symbol) e.corner := by
  fun_induction corner e with
  | case1 inner ih => exact ih
  | case2 name => exact failsOnly_ok _
  | case3 v => exact failsOnly_error.2 (.typeMismatch v.describe)
  | case4 e => exact failsOnly_error.2 (.typeMismatch _)

theorem failsOnly_corners_pair (start stop : Expr) :
    FailsOnly (FormulaError.OfOperands Operator.range.symbol) (corners [start, stop]) := by
  rw [corners]
  refine failsOnly_bind start.failsOnly_corner fun p => ?_
  exact failsOnly_bind stop.failsOnly_corner fun q => failsOnly_ok (p, q)

theorem failsOnly_corners (args : List Expr) :
    FailsOnly (operator .range args).Faults (corners args) := by
  have happlies : (operator .range args).Applies (.operator .range) := .here args
  refine FailsOnly.mono ?_ fun e => .operation happlies
  unfold corners
  split
  · next start stop =>
    exact (failsOnly_corners_pair start stop).mono fun _ => FormulaError.OfOperands.blames
  · exact failsOnly_error.2 (.argumentCount _ _)

/-- The errors of several expressions themselves. -/
def FaultsOfAll (es : List Expr) (err : FormulaError) : Prop :=
  ∃ e ∈ es, e.Faults err

theorem FaultsOfAll.apply {es : List Expr} {err : FormulaError} (h : FaultsOfAll es err)
    (operation : Operation) : (Expr.apply operation es).Faults err := by
  obtain ⟨e, he, hfaults⟩ := h
  exact hfaults.mono fun _ => .operand he

theorem FaultsOfAll.tail {e : Expr} {es : List Expr} {err : FormulaError} (h : FaultsOfAll es err) :
    FaultsOfAll (e :: es) err := by
  obtain ⟨e', he, hfaults⟩ := h
  exact ⟨e', List.mem_cons_of_mem _ he, hfaults⟩

theorem Faults.head {e : Expr} {err : FormulaError} (h : e.Faults err) (es : List Expr) :
    FaultsOfAll (e :: es) err :=
  ⟨e, List.mem_cons_self, h⟩

mutual

theorem failsOnly_checkCorners : (e : Expr) → FailsOnly e.Faults e.checkCorners
  | .constant _ | .reference _ => by
    rw [checkCorners]
    exact failsOnly_ok ()
  | .group inner => by
    rw [checkCorners]
    exact (failsOnly_checkCorners inner).mono fun _ h => h.mono fun _ => .group
  | .apply operation args => by
    rw [checkCorners]
    by_cases hrange : operation = .operator .range
    · subst hrange
      exact failsOnly_bind (failsOnly_corners args) fun _ => failsOnly_ok ()
    · rw [if_neg hrange]
      exact (failsOnly_checkCornersOfAll args).mono fun _ h => h.apply operation

theorem failsOnly_checkCornersOfAll :
    (es : List Expr) → FailsOnly (FaultsOfAll es) (checkCornersOfAll es)
  | [] => failsOnly_ok ()
  | e :: rest => by
    rw [checkCornersOfAll]
    refine failsOnly_bind ((failsOnly_checkCorners e).mono fun _ h => h.head rest) fun _ => ?_
    exact (failsOnly_checkCornersOfAll rest).mono fun _ h => h.tail

end

variable (options : Options)

mutual

theorem failsOnly_inquiry : (e : Expr) → (e.inquiry options).FailsOnly e.Faults
  | .constant v => by
    rw [inquiry]
    exact Inquiry.failsOnly_pure v
  | .reference name => by
    rw [inquiry]
    exact fun v => Inquiry.failsOnly_pure v
  | .group inner => by
    rw [inquiry]
    exact (failsOnly_inquiry inner).mono fun _ h => h.mono fun _ => .group
  | .apply operation args => by
    rw [inquiry]
    by_cases hrange : operation = .operator .range
    · subst hrange
      exact Inquiry.failsOnly_bind (failsOnly_corners args) fun p =>
        failsOnly_rangeInquiry options p.1 p.2 _
    · rw [if_neg hrange]
      refine Inquiry.failsOnly_bind
        ((failsOnly_inquiryOfAll args).mono fun _ h => h.apply operation) fun vs => ?_
      exact (operation.failsOnly_apply vs).mono fun _ => .operation (.here args)

theorem failsOnly_inquiryOfAll :
    (es : List Expr) → (inquiryOfAll options es).FailsOnly (FaultsOfAll es)
  | [] => Inquiry.failsOnly_pure []
  | e :: rest => by
    rw [inquiryOfAll]
    refine Inquiry.failsOnly_bind
      ((failsOnly_inquiry e).mono fun _ h => h.head rest) fun v => ?_
    exact Inquiry.failsOnly_bind ((failsOnly_inquiryOfAll rest).mono fun _ h => h.tail) fun vs =>
      Inquiry.failsOnly_pure (v :: vs)

end

/-- An expression fails with an error of its own, unless a question fails. -/
theorem failsOnly_checkedInquiry (e : Expr) : (e.checkedInquiry options).FailsOnly e.Faults :=
  Inquiry.failsOnly_bind e.failsOnly_checkCorners fun _ => e.failsOnly_inquiry options

end Expr

/-- Where no question fails, a formula fails with an error of its own. -/
theorem failsOnly_formulaInquiry (options : Options) (text : String) :
    (formulaInquiry options text).FailsOnly Own := by
  refine Inquiry.failsOnly_bind ?_ fun e =>
    (e.failsOnly_checkedInquiry options).mono fun _ => Expr.Faults.own
  exact (Expr.failsOnly_ofFormula text options.maxNesting).mono fun e => .reading

/-! ## Loaders that differ where they fail -/

namespace Evaluation

variable {P : FormulaError → Prop} {load load' : Loader}

/-- Two ways of loading cells that differ at most where one of them fails in some other way than a
certain one. -/
def SameWhere (P : FormulaError → Prop) (load load' : Loader) : Prop :=
  ∀ name memory, FailsOnly P (load name memory) → load' name memory = load name memory

/-- A run whose error, if any, is of that kind has met no difference. -/
theorem SameWhere.run {α : Type} {memory : Memory} (h : SameWhere P load load') (i : Inquiry α)
    (hP : FailsOnly P (i.run load memory)) : i.run load' memory = i.run load memory := by
  induction i generalizing memory with
  | done r => rfl
  | ask name next ih =>
    rw [Inquiry.run_ask] at hP
    rw [Inquiry.run_ask, Inquiry.run_ask]
    have hfirst : FailsOnly P (load name memory) := by
      intro e he
      rw [he] at hP
      exact hP e rfl
    rw [h name memory hfirst]
    cases hload : load name memory with
    | error e => rfl
    | ok p =>
      rw [hload] at hP
      exact ih p.1 hP

end Evaluation

end Spreadsheet
