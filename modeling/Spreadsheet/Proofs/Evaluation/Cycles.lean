import Spreadsheet.Proofs.Evaluation.Agreement
import Spreadsheet.Proofs.Evaluation.OwnErrors
import Spreadsheet.Proofs.Evaluation.References

/-!
# Cycles

A formula cell that is reported as circular reaches itself in the graph of references. Conversely
no cell on a cycle is ever resolved: what a memory holds is grounded, that is, every chain of
references from it comes to an end.

## Main results

* `reaches_of_retrieve`: the recursion reports a cell only where it has followed a cycle.
* `grounds_retrieve`: the recursion gives values to grounded cells only.
* `evaluateFormula_cycle`: what evaluating a formula says about cycles.
-/

namespace Spreadsheet.Evaluation

variable {env : Environment} {options : Options} {α : Type}

/-! ## A reported cell lies on a cycle -/

theorem refers_of_mayAsk {memory : Memory} {name text other : String}
    (hopen : Unresolved env memory name text) (hask : (formulaInquiry options text).MayAsk other) :
    env.Refers options name other :=
  ⟨text, hopen.formula, mentioned_of_mayAsk hask⟩

/-- A formula cell on a cycle that another cell leads to. -/
structure LeadsToCycle (env : Environment) (options : Options) (name last : String) : Prop where
  formula : ∃ text, env last = some (.formula text)
  reached : Relation.ReflTransGen (env.Refers options) name last
  cycle : Relation.TransGen (env.Refers options) last last

/-- The error of a cell that is circular comes from the path, since no formula has it by itself. By
induction on the levels; every cell on the path leads to the one that is loaded. -/
theorem reaches_of_retrieve (levels : Nat) {path : List String} {name last : String}
    {memory : Memory}
    (hpath : ∀ other ∈ path, Relation.TransGen (env.Refers options) other name)
    (h : retrieve env options levels path name memory = .error (.circularReference last)) :
    LeadsToCycle env options name last := by
  induction levels generalizing path name memory with
  | zero =>
    cases failsToLoad_of_retrieve h with
    | cycle hopen _ hmem => exact ⟨⟨_, hopen.formula⟩, .refl, hpath _ hmem⟩
  | succ levels ih =>
    cases failsToLoad_of_retrieve h with
    | cycle hopen _ hmem => exact ⟨⟨_, hopen.formula⟩, .refl, hpath _ hmem⟩
    | @within _ text _ hopen _ hrun =>
      rcases Inquiry.own_or_of_run_error (failsOnly_formulaInquiry options text) hrun with
        hown | ⟨other, between, hask, hload⟩
      · exact absurd hown (FormulaError.not_own_circularReference last)
      · have hedge : env.Refers options name other := refers_of_mayAsk hopen hask
        have hnext : ∀ first ∈ name :: path,
            Relation.TransGen (env.Refers options) first other := by
          intro first hfirst
          rcases List.mem_cons.1 hfirst with rfl | hmem
          · exact .single hedge
          · exact (hpath first hmem).tail hedge
        obtain ⟨hformula, hreached, hcycle⟩ := ih hnext hload
        exact ⟨hformula, .head hedge hreached, hcycle⟩

/-! ## A cell with a value lies on none -/

/-- Every chain of references from the cell comes to an end. -/
def Grounded (env : Environment) (options : Options) (name : String) : Prop :=
  Acc (Function.swap (env.Refers options)) name

theorem Grounded.of_reached {name other : String} (h : Grounded env options name)
    (hreached : Relation.ReflTransGen (env.Refers options) name other) :
    Grounded env options other := by
  induction hreached with
  | refl => exact h
  | tail _ hedge ih => exact ih.inv hedge

/-- From a grounded cell no chain of references comes back. -/
theorem Grounded.not_cycle {name : String} (h : Grounded env options name) :
    ¬ Relation.TransGen (env.Refers options) name name := by
  induction h with
  | intro name _ ih =>
    intro hcycle
    obtain ⟨other, hedge, hback⟩ := Relation.TransGen.head'_iff.1 hcycle
    exact ih other hedge (.tail' hback hedge)

/-- A cell without a formula refers to nothing. -/
theorem grounded_of_plain {name : String} {v : Value} (h : env.plain? name = some v) :
    Grounded env options name := by
  refine Acc.intro name fun other hedge => ?_
  obtain ⟨text, hformula, _⟩ := hedge
  rcases Environment.plain?_eq_some.1 h with ⟨henv, _⟩ | henv
  · rw [henv] at hformula
    cases hformula
  · rw [henv] at hformula
    cases hformula

/-- Only grounded cells are remembered. -/
def GroundedMemory (env : Environment) (options : Options) (memory : Memory) : Prop :=
  ∀ (name : String) (v : Value), memory[name]? = some v → Grounded env options name

theorem groundedMemory_empty : GroundedMemory env options ∅ := fun name v h => by
  rw [Std.TreeMap.getElem?_emptyc] at h
  cases h

theorem GroundedMemory.insert {memory : Memory} {name : String}
    (h : GroundedMemory env options memory) (hname : Grounded env options name) (v : Value) :
    GroundedMemory env options (memory.insert name v) := by
  intro other w hother
  by_cases heq : name = other
  · exact heq ▸ hname
  · rw [Std.TreeMap.getElem?_insert, if_neg (by simpa using heq)] at hother
    exact h other w hother

theorem Settled.grounded {memory : Memory} {name : String} {v : Value}
    (h : Settled env memory name v) (hmemory : GroundedMemory env options memory) :
    Grounded env options name := by
  rcases h with hremembered | ⟨_, hplain⟩
  · exact hmemory name v hremembered
  · exact grounded_of_plain hplain

/-- Whatever is loaded is grounded, and so is what is remembered afterwards. -/
def Grounds (env : Environment) (options : Options) (load : Loader) : Prop :=
  ∀ (name : String) (v : Value) (memory later : Memory), GroundedMemory env options memory →
    load name memory = .ok (v, later) →
    Grounded env options name ∧ GroundedMemory env options later

/-- All cells that an inquiry cannot do without are grounded if it has a result. -/
theorem Grounds.run {load : Loader} (h : Grounds env options load) (i : Inquiry α)
    {memory later : Memory} {a : α} (hmemory : GroundedMemory env options memory)
    (hrun : i.run load memory = .ok (a, later)) :
    (∀ name, i.MustAsk name → Grounded env options name) ∧ GroundedMemory env options later := by
  induction i generalizing memory with
  | done r =>
    cases r with
    | error e => cases hrun
    | ok b =>
      cases hrun
      exact ⟨fun _ hmust => hmust.elim, hmemory⟩
  | ask first next ih =>
    obtain ⟨v, between, hload, hnext⟩ := Inquiry.run_ask_eq_ok hrun
    obtain ⟨hfirst, hbetween⟩ := h first v memory between hmemory hload
    obtain ⟨hothers, hlater⟩ := ih v hbetween hnext
    refine ⟨fun name hmust => ?_, hlater⟩
    rcases hmust with rfl | hmust
    · exact hfirst
    · exact hothers name (hmust v)

/-- The recursion gives values to grounded cells only: it cannot resolve a formula cell without
resolving all cells that it refers to. -/
theorem grounds_retrieve (levels : Nat) (path : List String) :
    Grounds env options (retrieve env options levels path) := by
  induction levels generalizing path with
  | zero =>
    intro name v memory later hmemory hload
    cases loads_of_retrieve hload with
    | settled hsettled => exact ⟨hsettled.grounded hmemory, hmemory⟩
  | succ levels ih =>
    intro name v memory later hmemory hload
    cases loads_of_retrieve hload with
    | settled hsettled => exact ⟨hsettled.grounded hmemory, hmemory⟩
    | @resolved _ text _ between hopen _ hrun =>
      obtain ⟨hmust, hbetween⟩ := (ih (name :: path)).run _ hmemory hrun
      have hname : Grounded env options name := by
        refine Acc.intro name fun other hedge => ?_
        obtain ⟨text', hformula, hmentioned⟩ := hedge
        rw [hopen.formula] at hformula
        cases hformula
        exact hmust other (mustAsk_of_mentioned hmentioned)
      exact ⟨hname, hbetween.insert hname v⟩

end Spreadsheet.Evaluation

namespace Spreadsheet

open Evaluation

/-- A formula cell that is reported as circular is one that the formula reaches. -/
theorem leadsToCycle_of_evaluateFormula {env : Environment} {options : Options}
    {text last : String} (h : evaluateFormula env options text = .error (.circularReference last)) :
    ∃ name, Mentioned options text name ∧ LeadsToCycle env options name last := by
  rcases Inquiry.own_or_of_run_error (failsOnly_formulaInquiry options text)
      (run_of_evaluateFormula_eq_error h) with hown | ⟨name, between, hask, hload⟩
  · exact absurd hown (FormulaError.not_own_circularReference last)
  · have hnone : ∀ other ∈ [], Relation.TransGen (env.Refers options) other name :=
      fun _ hmem => by cases hmem
    exact ⟨name, mentioned_of_mayAsk hask, reaches_of_retrieve options.maxReferences hnone hload⟩

/-- A formula that has a value refers to grounded cells only. -/
theorem grounded_of_evaluateFormula {env : Environment} {options : Options} {text name : String}
    {v : Value} (h : evaluateFormula env options text = .ok v)
    (hname : Reached env options text name) : Grounded env options name := by
  obtain ⟨memory, hrun⟩ := run_of_evaluateFormula_eq_ok h
  obtain ⟨e, hparse, first, hmentions, hreached⟩ := hname
  obtain ⟨hmust, _⟩ :=
    (grounds_retrieve options.maxReferences []).run _ groundedMemory_empty hrun
  have hfirst := hmust first (mustAsk_of_mentioned ⟨e, hparse, hmentions⟩)
  exact hfirst.of_reached hreached

/-- Evaluating a formula reports only a formula cell that it reaches and that reaches itself; and if
it has a value, with or without looking for cycles, it reaches no such cell. -/
theorem evaluateFormula_cycle (env : Environment) (options : Options) (text : String) :
    (∀ name, evaluateFormula env options text = .error (.circularReference name) →
      (∃ cellText, env name = some (.formula cellText)) ∧ Reached env options text name ∧
        Relation.TransGen (env.Refers options) name name) ∧
    (∀ v, evaluateFormula env options text = .ok v → ∀ name, Reached env options text name →
      ¬ Relation.TransGen (env.Refers options) name name) := by
  constructor
  · intro last h
    obtain ⟨name, ⟨e, hparse, hmentions⟩, hformula, hreached, hcycle⟩ :=
      leadsToCycle_of_evaluateFormula h
    exact ⟨hformula, ⟨e, hparse, name, hmentions, hreached⟩, hcycle⟩
  · intro v h name hname
    exact (grounded_of_evaluateFormula h hname).not_cycle

/-- Two formula cells that need each other, one of them through a range, and one that needs
neither. -/
def circleCells : Environment
  | "A1" => some (.formula "B1")
  | "B1" => some (.formula "C1 & SUM(A1:A2)")
  | "C1" => some (.formula "D1")
  | _ => none

/-- A cycle through a range is reported, and a formula beside it has a value. -/
theorem evaluateFormula_circleCells :
    evaluateFormula circleCells {} "A1" = .error (.circularReference "A1") ∧
      Relation.TransGen (circleCells.Refers {}) "A1" "A1" ∧
      evaluateFormula circleCells {} "C1" = .ok .empty ∧ Reached circleCells {} "C1" "C1" ∧
      ¬ Relation.TransGen (circleCells.Refers {}) "C1" "C1" := by
  have hcircle : evaluateFormula circleCells {} "A1" = .error (.circularReference "A1") := by
    rw [evaluateFormula_eq_retrieve]
    decide +kernel
  have hvalue : evaluateFormula circleCells {} "C1" = .ok .empty := by
    rw [evaluateFormula_eq_retrieve]
    decide +kernel
  have hparse : Expr.ofFormula "C1" defaultNesting = .ok (.reference "C1") := by
    with_unfolding_all rfl
  have hname : canonicalName "C1" = "C1" := by decide +kernel
  have hmentions : (Expr.reference "C1").Mentions (canonicalName "C1") := .reference "C1"
  rw [hname] at hmentions
  have hreached : Reached circleCells {} "C1" "C1" := ⟨_, hparse, "C1", hmentions, .refl⟩
  obtain ⟨_, _, hcycle⟩ := (evaluateFormula_cycle circleCells {} "A1").1 "A1" hcircle
  have hnone := (evaluateFormula_cycle circleCells {} "C1").2 .empty hvalue "C1" hreached
  exact ⟨hcircle, hcycle, hvalue, hreached, hnone⟩

end Spreadsheet
