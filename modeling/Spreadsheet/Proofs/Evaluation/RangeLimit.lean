import Spreadsheet.Proofs.Evaluation.Held
import Spreadsheet.Proofs.Evaluation.Lookups
import Spreadsheet.Proofs.Evaluation.Values
import Spreadsheet.Proofs.Grid.Spellings

/-!
# The limit on ranges

Each operand of an expression is evaluated, also the one that a condition does not choose. So an
expression with a range that cannot be walked through has no value, whatever the values of the cells
are, and neither has anything that refers to it. In a run, the limit is looked at before the first
cell of the range.

## Main results

* `Expr.yields_inquiry_of_occursIn`: an expression with a bad range in it always fails.
* `rangesWithin_of_comesTo`: a formula that comes to a value has ranges within the limit.
* `evaluateFormula_rangeLimit`: so have all formulas that it refers to, and a larger range ends the
  run without another lookup.
-/

namespace Spreadsheet

/-- An expression stands somewhere in another one. -/
inductive Expr.OccursIn (part : Expr) : Expr → Prop
  | refl : OccursIn part part
  | group {inner : Expr} (h : OccursIn part inner) : OccursIn part (.group inner)
  | operand {operation : Operation} {args : List Expr} {e : Expr} (he : e ∈ args)
    (h : OccursIn part e) : OccursIn part (.apply operation args)

/-- The operands of a range name two cells of the grid with at most so many cells between them,
these two included. -/
def Expr.SpansWithin (limit : Nat) (args : List Expr) : Prop :=
  ∃ start stop a b, corners args = .ok (start, stop) ∧ Address.parse start = .ok a ∧
    Address.parse stop = .ok b ∧ a.inGrid = true ∧ b.inGrid = true ∧
      (Range.ofCorners a.toPosition b.toPosition).count ≤ limit

/-- A text is a formula, and each range that stands in it is within the limits. -/
def RangesWithin (options : Options) (text : String) : Prop :=
  ∃ e, Expr.ofFormula text options.maxNesting = .ok e ∧ ∀ args,
    (Expr.operator .range args).OccursIn e → Expr.SpansWithin options.maxRangeCells args

/-! ## Formulas with a value -/

/-- What an inquiry comes to is one of its possible results. -/
theorem Inquiry.ComesTo.of_yields {α : Type} {value : String → Value → Prop} {P : α → Prop}
    {i : Inquiry α} {a : α} (h : i.ComesTo value a) (hi : i.Yields P) : P a := by
  induction i with
  | done r =>
    rw [ComesTo] at h
    rw [h] at hi
    exact hi
  | ask name next ih =>
    obtain ⟨v, _, hnext⟩ := h
    exact ih v hnext (hi v)

namespace Expr

variable {options : Options} {args : List Expr}

theorem spansWithin_of_rangeBetween {start stop : String} {r : Range}
    (hcorners : corners args = .ok (start, stop))
    (hrange : options.rangeBetween start stop = .ok r) :
    SpansWithin options.maxRangeCells args := by
  obtain ⟨hnames, hcount⟩ := Options.rangeBetween_eq_ok_iff.1 hrange
  obtain ⟨a, b, ha, hb, rfl⟩ := Range.exists_of_ofNames hnames
  exact ⟨start, stop, a, b, hcorners, ha, hb, inGrid_of_parse ha, inGrid_of_parse hb, hcount⟩

/-- A range that cannot be walked through has no value. -/
theorem yields_inquiry_range (h : ¬ SpansWithin options.maxRangeCells args) :
    ((operator .range args).inquiry options).Yields fun _ => False := by
  rw [inquiry, if_pos rfl]
  cases hcorners : corners args with
  | error err => trivial
  | ok p =>
    rw [Inquiry.done_ok_bind]
    dsimp only
    rw [rangeInquiry]
    cases hrange : options.rangeBetween p.1 p.2 with
    | error err => trivial
    | ok r => exact absurd (spansWithin_of_rangeBetween hcorners hrange) h

/-- A corner has no range in it. -/
theorem exists_corner_eq_error {e : Expr} (h : (operator .range args).OccursIn e) :
    ∃ err, e.corner = .error err := by
  induction h with
  | refl => exact ⟨_, rfl⟩
  | group _ ih => exact ih
  | operand _ _ _ => exact ⟨_, rfl⟩

theorem exists_corners_eq_error {es : List Expr} {e : Expr} (he : e ∈ es)
    (h : (operator .range args).OccursIn e) : ∃ err, corners es = .error err := by
  obtain ⟨err, herr⟩ := exists_corner_eq_error h
  match es with
  | [start, stop] =>
    rw [corners]
    rcases List.mem_pair.1 he with rfl | rfl
    · rw [herr]
      exact ⟨err, rfl⟩
    · cases start.corner with
      | error err' => exact ⟨err', rfl⟩
      | ok name =>
        rw [herr]
        exact ⟨err, rfl⟩
  | [] | [_] | _ :: _ :: _ :: _ => exact ⟨_, rfl⟩

theorem yields_inquiryOfAll_of_mem {e : Expr} {es : List Expr} (he : e ∈ es)
    (h : (e.inquiry options).Yields fun _ => False) :
    (inquiryOfAll options es).Yields fun _ => False := by
  induction es with
  | nil => cases he
  | cons first rest ih =>
    rw [inquiryOfAll]
    rcases List.mem_cons.1 he with rfl | hrest
    · exact Inquiry.yields_bind h fun _ hnever => hnever.elim
    · exact Inquiry.yields_bind (Inquiry.yields_true _) fun v _ =>
        Inquiry.yields_bind (ih hrest) fun _ hnever => hnever.elim

/-- Whatever the values of cells are, an expression has none if a range that stands in it cannot be
walked through. -/
theorem yields_inquiry_of_occursIn {e : Expr} (h : (operator .range args).OccursIn e)
    (hlimit : ¬ SpansWithin options.maxRangeCells args) :
    (e.inquiry options).Yields fun _ => False := by
  induction h with
  | refl => exact yields_inquiry_range hlimit
  | group _ ih =>
    rw [inquiry]
    exact ih
  | @operand operation es e he h ih =>
    rw [inquiry]
    split
    · obtain ⟨err, herr⟩ := exists_corners_eq_error he h
      rw [herr]
      trivial
    · exact Inquiry.yields_bind (yields_inquiryOfAll_of_mem he ih) fun _ hnever => hnever.elim

end Expr

/-- A formula that comes to a value has ranges within the limit. -/
theorem rangesWithin_of_comesTo {options : Options} {text : String} {v : Value}
    {value : String → Value → Prop} (h : (formulaInquiry options text).ComesTo value v) :
    RangesWithin options text := by
  rw [formulaInquiry] at h
  cases hparse : Expr.ofFormula text options.maxNesting with
  | error e =>
    rw [hparse] at h
    cases h
  | ok e =>
    rw [hparse] at h
    -- A range that is too large makes every result of the inquiry an error.
    refine ⟨e, hparse, fun args hoccurs => Classical.byContradiction fun hlimit => ?_⟩
    have hnever : (e.checkedInquiry options).Yields fun _ => False :=
      Inquiry.yields_bind (Inquiry.yields_true _) fun _ _ =>
        Expr.yields_inquiry_of_occursIn hoccurs hlimit
    exact h.of_yields hnever

namespace Evaluation

variable {env : Environment} {options : Options} {text name : String} {v : Value}

theorem rangesWithin_of_evaluateFormula (h : evaluateFormula env options text = .ok v) :
    RangesWithin options text := by
  obtain ⟨later, hrun⟩ := run_of_evaluateFormula_eq_ok h
  exact rangesWithin_of_comesTo
    ((hasValue_of_retrieve options.maxReferences []).run _ valued_empty hrun).1

/-- The formula of a cell with a value has ranges within the limit. -/
theorem rangesWithin_of_hasValue {inner : String} (h : env.HasValue options name v)
    (henv : env name = some (.formula inner)) : RangesWithin options inner := by
  obtain ⟨n, hn⟩ := h
  obtain ⟨k, _, hformula⟩ := hn.comesTo henv
  exact rangesWithin_of_comesTo hformula

/-- What a cell with a value refers to has a value. -/
theorem exists_hasValue_of_refers {other : String} (h : env.HasValue options name v)
    (hrefers : env.Refers options name other) : ∃ w, env.HasValue options other w := by
  obtain ⟨text, henv, hmentioned⟩ := hrefers
  obtain ⟨n, hn⟩ := h
  obtain ⟨k, _, hformula⟩ := hn.comesTo henv
  obtain ⟨w, hw⟩ := hformula.exists_of_mustAsk (mustAsk_of_mentioned hmentioned)
  exact ⟨w, k, hw⟩

/-- The cells that a formula with a value refers to, directly or through others, have values. -/
theorem exists_hasValue_of_reached (h : evaluateFormula env options text = .ok v)
    (hreached : Reached env options text name) : ∃ w, env.HasValue options name w := by
  obtain ⟨e, hparse, first, hmentions, hchain⟩ := hreached
  induction hchain with
  | refl => exact hasValue_of_evaluateFormula h ⟨e, hparse, hmentions⟩
  | tail _ hrefers ih =>
    obtain ⟨w, hw⟩ := ih
    exact exists_hasValue_of_refers hw hrefers

/-! ## Runs that reach a larger range -/

/-- The limit is looked at before a range is entered. -/
theorem State.next_of_count_gt {s : State} {start stop : String} {todo : List Step}
    {cell : Option String} {rest : List Frame} {r : Range}
    (h : s.frames = .steps (.range start stop :: todo) cell :: rest)
    (hrange : Range.ofNames start stop = .ok r) (hlarge : options.maxRangeCells < r.count) :
    s.next env options = .finished
      (.error (.evaluation (.rangeTooLarge start stop r.count options.maxRangeCells))) := by
  rw [next, h]
  dsimp only
  rw [proceed, perform, enterRange, hrange]
  dsimp only
  rw [if_pos hlarge]

/-- A formula whose run comes through a state that ends it has the outcome of that state. -/
theorem evaluateFormula_of_visits {s : State} {outcome : Outcome}
    (h : Visits env options text s) (hfinished : s.next env options = .finished outcome) :
    evaluateFormula env options text = outcome := by
  obtain ⟨e, steps, hparse, hsteps, hreaches⟩ := h
  rw [evaluateFormula, hparse]
  change e.evaluate env options = outcome
  rw [Expr.evaluate, hsteps]
  change (State.start steps).run env options = outcome
  rw [State.run_of_reaches hreaches, State.run_eq, hfinished]

end Evaluation

open Evaluation

/-- The limit on ranges is kept. If a formula has a value, each range that stands in it, or in a
formula cell that it refers to, directly or through other cells, lies between two cells of the grid
and is within the limit. A run that comes to a larger range ends there, with the error that names
it, and looks no cell up from there on. -/
theorem evaluateFormula_rangeLimit (env : Environment) (options : Options) (text : String) :
    (∀ v, evaluateFormula env options text = .ok v →
        RangesWithin options text ∧ ∀ name inner, Reached env options text name →
          env name = some (.formula inner) → RangesWithin options inner) ∧
      ∀ s start stop todo cell rest r, Visits env options text s →
        s.frames = .steps (.range start stop :: todo) cell :: rest →
        Range.ofNames start stop = .ok r → options.maxRangeCells < r.count →
        evaluateFormula env options text =
            .error (.evaluation (.rangeTooLarge start stop r.count options.maxRangeCells)) ∧
          s.lookups env options = [] := by
  refine ⟨fun v h => ⟨rangesWithin_of_evaluateFormula h, fun name inner hreached henv => ?_⟩,
    fun s start stop todo cell rest r hvisits hframes hrange hlarge => ?_⟩
  · obtain ⟨w, hw⟩ := exists_hasValue_of_reached h hreached
    exact rangesWithin_of_hasValue hw henv
  · have hnext : s.next env options = .finished
        (.error (.evaluation (.rangeTooLarge start stop r.count options.maxRangeCells))) :=
      State.next_of_count_gt hframes hrange hlarge
    refine ⟨evaluateFormula_of_visits hvisits hnext, ?_⟩
    rw [State.lookups_of_finished hnext, State.lookup?, hframes]
    rfl

/-- A formula cell with a range of three cells. -/
def columnCells : Environment
  | "A1" => some (.formula "SUM(B1:B3)")
  | _ => none

/-- A branch that a condition does not choose is within the limit too. Where the limit is lower, the
run ends behind the lookup of the first operand. -/
theorem evaluateFormula_rangeLimit_columnCells :
    evaluateFormula columnCells { maxRangeCells := 3 } "IF(TRUE, 1, A1)" = .ok (.number 1.0) ∧
      RangesWithin { maxRangeCells := 3 } "SUM(B1:B3)" ∧
      evaluateFormula columnCells { maxRangeCells := 2 } "A2 & B1:B3" =
        .error (.evaluation (.rangeTooLarge "B1" "B3" 3 2)) ∧
      ∃ s, Visits columnCells { maxRangeCells := 2 } "A2 & B1:B3" s ∧ s.values = [.empty] ∧
        s.lookups columnCells { maxRangeCells := 2 } = [] := by
  obtain ⟨hwithin, _⟩ :=
    evaluateFormula_rangeLimit columnCells { maxRangeCells := 3 } "IF(TRUE, 1, A1)"
  obtain ⟨_, hlarge⟩ := evaluateFormula_rangeLimit columnCells { maxRangeCells := 2 } "A2 & B1:B3"
  have hvalue : evaluateFormula columnCells { maxRangeCells := 3 } "IF(TRUE, 1, A1)" =
      .ok (.number 1.0) := by
    rw [evaluateFormula_eq_retrieve]
    decide +kernel
  have hchoose : Expr.ofFormula "IF(TRUE, 1, A1)" defaultNesting = .ok (.apply (.builtin .choose)
      [.constant (.boolean true), .constant (.number 1.0), .reference "A1"]) := by
    decide +kernel
  have hreached :
      Reached columnCells { maxRangeCells := 3 } "IF(TRUE, 1, A1)" (canonicalName "A1") :=
    ⟨_, hchoose, _, .operand (by decide) (by simp) (.reference "A1"), .refl⟩
  have hconcat : Expr.ofFormula "A2 & B1:B3" defaultNesting = .ok (.operator .concat
      [.reference "A2", .operator .range [.reference "B1", .reference "B3"]]) := by
    decide +kernel
  let behind : State :=
    { frames := [.steps [.range "B1" "B3", .apply (.operator .concat) 2] none], values := [.empty] }
  have hfollows : State.Follows columnCells { maxRangeCells := 2 } behind
      (.start [.load "A2", .range "B1" "B3", .apply (.operator .concat) 2]) := by
    rfl
  have hvisits : Visits columnCells { maxRangeCells := 2 } "A2 & B1:B3" behind :=
    ⟨_, _, hconcat, by decide +kernel, .single hfollows⟩
  have hrange : Range.ofNames "B1" "B3" = .ok ⟨⟨0, 1⟩, ⟨2, 1⟩, by decide, by decide⟩ := by
    decide +kernel
  obtain ⟨herror, hlookups⟩ :=
    hlarge _ "B1" "B3" _ none [] _ hvisits rfl hrange (by decide)
  exact ⟨hvalue, (hwithin _ hvalue).2 _ _ hreached (by decide +kernel), herror, _, hvisits, rfl,
    hlookups⟩

end Spreadsheet
