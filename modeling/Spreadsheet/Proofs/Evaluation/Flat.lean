import Spreadsheet.Proofs.Apply.Leaves
import Spreadsheet.Proofs.Apply.Results
import Spreadsheet.Proofs.Evaluation.Held
import Spreadsheet.Proofs.Evaluation.Replacing
import Spreadsheet.Proofs.Evaluation.Stacked

/-!
# Lists and their members

Only ranges make lists, and the members of such a list are the values of its cells. A cell that
holds a value is a scalar, and so is the value of a formula cell, unless its formula yields a list
itself: nothing keeps a formula from that, and a range over such a cell is a list with a list in it.
The aggregates look at the members of a list and not further. They see everything that a list holds
as long as it is flat.

## Main results

* `holds_flatUpTo_of_visits`: a list inside a list is the value of a formula cell.
* `evaluateFormula_flat`: if no formula cell has a list for its value, then no list is inside
  another one.
-/

namespace Spreadsheet

/-! ## Lists in the machine -/

namespace Evaluation

variable {env : Environment} {options : Options}

/-- A value that a formula cell has. -/
def OfFormula (env : Environment) (options : Options) (v : Value) : Prop :=
  ∃ name text, env name = some (.formula text) ∧ env.HasValue options name v

/-- A list that is the value of a cell is the value of a formula cell. -/
theorem ofFormula_of_hasValue {name : String} {v : Value}
    (hplain : ∀ name v, env name = some (.value v) → v.isList = false)
    (h : env.HasValue options name v) (hlist : v.isList = true) : OfFormula env options v := by
  match henv : env name with
  | some (.formula text) => exact ⟨name, text, henv, h⟩
  | none =>
    obtain ⟨n, hn⟩ := h
    have hempty : env.plain? name = some .empty := by rw [Environment.plain?, henv]
    rw [hn.eq_of_plain hempty] at hlist
    cases hlist
  | some (.value w) =>
    obtain ⟨n, hn⟩ := h
    have hvalue : env.plain? name = some w := by rw [Environment.plain?, henv]
    rw [hn.eq_of_plain hvalue, hplain name w henv] at hlist
    cases hlist

/-- No constant of a formula is a list. -/
theorem flatUpTo_of_mem_constants {exempt : Value → Prop} {text : String} {e : Expr} {v : Value}
    (he : Expr.ofFormula text options.maxNesting = .ok e) (hv : v ∈ e.constants) :
    v.FlatUpTo exempt := by
  cases (Expr.formed_of_ofFormula he).literal_of_mem_constants hv <;> trivial

theorem supplies_flatUpTo (hplain : ∀ name v, env name = some (.value v) → v.isList = false) :
    Supplies env options (Value.FlatUpTo (OfFormula env options)) where
  empty := trivial
  plain h := Value.flatUpTo_of_scalar (hplain _ _ h)
  constant _ he hv := flatUpTo_of_mem_constants he hv

/-- An operation yields a scalar or one of its operands, and a range collects values of cells. -/
theorem State.flatUpTo_of_makes {s : State} {v : Value}
    (hplain : ∀ name v, env name = some (.value v) → v.isList = false)
    (hdisciplined : s.Disciplined env options)
    (hs : s.Holds (Value.FlatUpTo (OfFormula env options))) (h : s.Makes v) :
    v.FlatUpTo (OfFormula env options) := by
  cases h with
  | apply h htake hv =>
    cases Operation.result_of_apply hv with
    | operand hmem => exact hs.taken htake v hmem
    | text s => trivial
    | boolean b => trivial
    | checked _ => trivial
    | unchecked _ => trivial
  | collect h hdone htake =>
    intro item hitem hlist
    have hstacked := hdisciplined.stacked
    rw [h] at hstacked
    obtain ⟨name, hvalue⟩ := (stacked_collect hstacked hdone htake).1 item hitem
    exact ofFormula_of_hasValue hplain hvalue hlist

/-- However far a run has got, a list inside a list is the value of a formula cell. -/
theorem holds_flatUpTo_of_visits {text : String} {s : State}
    (hplain : ∀ name v, env name = some (.value v) → v.isList = false)
    (h : Visits env options text s) : s.Holds (Value.FlatUpTo (OfFormula env options)) := by
  refine h.holds (supplies_flatUpTo hplain)
    (fun e he v hv => flatUpTo_of_mem_constants he hv) fun s v hvisits hs hmakes => ?_
  obtain ⟨e, steps, _, hsteps, hreaches⟩ := hvisits
  exact State.flatUpTo_of_makes hplain (State.disciplined_of_reaches hsteps hreaches) hs hmakes

end Evaluation

open Evaluation

/-- Where cells hold only scalars, a member of a list is a scalar or the value of a formula cell,
at every moment of an evaluation and in its result. So if no formula cell has a list for its value,
all lists are flat, and the aggregates see everything that a list holds. -/
theorem evaluateFormula_flat (env : Environment) (options : Options) (text : String)
    (hplain : ∀ name v, env name = some (.value v) → v.isList = false) :
    (∀ s, Visits env options text s → s.Holds (Value.FlatUpTo (OfFormula env options))) ∧
      (∀ v, evaluateFormula env options text = .ok v → v.FlatUpTo (OfFormula env options)) ∧
      ((∀ v, OfFormula env options v → v.isList = false) →
        ∀ v : Value, v.FlatUpTo (OfFormula env options) → v.Flat) ∧
      ∀ items, (Value.list items).Flat → Value.Seen items := by
  have hheld : ∀ s, Visits env options text s →
      s.Holds (Value.FlatUpTo (OfFormula env options)) :=
    fun _ hs => holds_flatUpTo_of_visits hplain hs
  exact ⟨hheld, fun v hv => prop_of_evaluateFormula hheld hv, fun hcells v hv => hv.flat hcells,
    fun items hitems => hitems.seen⟩

/-- A cell with a text, and one with a formula that yields a scalar. -/
def scalarCells : Environment
  | "A1" => some (.value (.text "x"))
  | "B1" => some (.formula "A1 & \"y\"")
  | _ => none

/-- A range over scalars is a flat list, whether they are contents or results. -/
theorem evaluateFormula_flat_scalarCells :
    evaluateFormula scalarCells {} "A1:B1" = .ok (.list [.text "x", .text "xy"]) ∧
      Value.Flat (.list [.text "x", .text "xy"]) := by
  have hplain : ∀ name v, scalarCells name = some (.value v) → v.isList = false := by
    intro name v h
    unfold scalarCells at h
    split at h <;> cases h
    rfl
  have hcells : ∀ v, OfFormula scalarCells {} v → v.isList = false := by
    rintro v ⟨name, text, henv, hvalue⟩
    have hname : name = "B1" := by
      unfold scalarCells at henv
      split at henv <;> simp_all
    have hfound : evaluateCell scalarCells {} "B1" = .ok (.text "xy") := by
      rw [evaluateCell_eq_retrieve]
      decide +kernel
    have hcanonical : canonicalName "B1" = "B1" := by decide +kernel
    have hresult := hasValue_of_evaluateCell hfound
    rw [hcanonical] at hresult
    rw [hname] at hvalue
    rw [hvalue.unique hresult]
    rfl
  have hvalue : evaluateFormula scalarCells {} "A1:B1" = .ok (.list [.text "x", .text "xy"]) := by
    rw [evaluateFormula_eq_retrieve]
    decide +kernel
  obtain ⟨_, hresult, hflat, _⟩ := evaluateFormula_flat scalarCells {} "A1:B1" hplain
  exact ⟨hvalue, hflat hcells _ (hresult _ hvalue)⟩

/-- A cell with a formula that is a range, over two cells with numbers. -/
def rangeCells : Environment
  | "A1" => some (.formula "B1:B2")
  | "B1" => some (.value (.number 1.0))
  | "B2" => some (.value (.number 2.0))
  | _ => none

/-- A range over a cell whose formula is a range is a list in a list, and its sum leaves out what
the inner list holds. -/
theorem exists_nested_of_rangeCells :
    (∀ name v, rangeCells name = some (.value v) → v.isList = false) ∧
      evaluateFormula rangeCells {} "A1:A1" = .ok (.list [.list [.number 1.0, .number 2.0]]) ∧
      ¬ Value.Flat (.list [.list [.number 1.0, .number 2.0]]) ∧
      evaluateFormula rangeCells {} "SUM(A1:A1)" = .ok (.number 0.0) := by
  refine ⟨fun name v h => ?_, ?_, fun h => ?_, ?_⟩
  · unfold rangeCells at h
    split at h <;> cases h <;> rfl
  · rw [evaluateFormula_eq_retrieve]
    decide +kernel
  · cases h _ List.mem_cons_self
  · rw [evaluateFormula_eq_retrieve]
    decide +kernel

end Spreadsheet
