import Spreadsheet.Proofs.Sheet.Changes

/-!
# What a calculation reports

A calculation reports every formula cell of a sheet once, row by row, with the outcome that
evaluating this cell alone has, and its counts are those of the outcomes that it lists. If it may
stop at a failure, it fails exactly when some cell does, with the error of the first one; otherwise
it comes to the same calculation.

The loop is taken apart once: what it lists does not depend on its counters, its counters are kept
in step with what it has listed (`Statistics.Counts`), and a loop that may stop is the other loop up
to the first failure.

## Main results

* `calculateFrom_eq`: the loop lists the outcomes of the formula cells and counts them.
* `calculateFrom_stopping`: a loop that may stop ends at the first failure.
* `calculateWith_reports`: what a calculation reports of any sheet.
-/

namespace Spreadsheet

open Sheet (place)

/-- Whether an outcome is a failure. -/
def Outcome.failed : Outcome → Bool
  | .ok _ => false
  | .error _ => true

/-- Whether an outcome is a failure because a cell needs its own value. -/
def Outcome.isCircular : Outcome → Bool
  | .error (.circularReference _) => true
  | _ => false

/-! ## Counts -/

namespace Statistics

/-- The counts are those of a list of outcomes. -/
structure Counts (n : Statistics) (results : List (Position × Outcome)) : Prop where
  formulas : n.formulas = results.length
  parts : n.formulas = n.calculated + n.errors
  errors : n.errors = results.countP fun r => Outcome.failed r.2
  circular : n.circular = results.countP fun r => Outcome.isCircular r.2

variable {n : Statistics} {results : List (Position × Outcome)}

theorem counts_nil : ({} : Statistics).Counts [] := ⟨rfl, rfl, rfl, rfl⟩

/-- What one more outcome adds to each count. -/
theorem add_eq (n : Statistics) (outcome : Outcome) :
    n.add outcome =
      { formulas := n.formulas + 1
        calculated := n.calculated + if Outcome.failed outcome then 0 else 1
        errors := n.errors + if Outcome.failed outcome then 1 else 0
        circular := n.circular + if Outcome.isCircular outcome then 1 else 0 } := by
  rcases outcome with (_ | _ | _ | _ | _ | _ | _ | _ | _) | v <;> rfl

/-- Another outcome is counted. -/
theorem Counts.add (h : n.Counts results) (p : Position) (outcome : Outcome) :
    (n.add outcome).Counts ((p, outcome) :: results) := by
  rw [add_eq]
  constructor
  · rw [List.length_cons, h.formulas]
  · change n.formulas + 1 = n.calculated + _ + (n.errors + _)
    have hparts := h.parts
    split <;> omega
  · rw [List.countP_cons, h.errors]
  · rw [List.countP_cons, h.circular]

/-- The order of the outcomes does not matter. -/
theorem Counts.reverse (h : n.Counts results) : n.Counts results.reverse :=
  ⟨by rw [List.length_reverse, h.formulas], h.parts, by rw [List.countP_reverse, h.errors],
    by rw [List.countP_reverse, h.circular]⟩

end Statistics

namespace Sheet

variable {s : Sheet} {options : Options} {done : List (Position × Outcome)} {counts : Statistics}

/-! ## The loop -/

/-- The outcomes of the formula cells among some cells. -/
def outcomes (s : Sheet) (options : Options) (cells : List (Position × Content)) :
    List (Position × Outcome) :=
  (cells.filter (·.2.isFormula)).map fun r =>
    (r.1, Spreadsheet.evaluateCell s.lookup options r.1.name)

/-- The loop lists the outcomes of the formula cells behind those that it has, and counts them. -/
theorem calculateFrom_eq (hcounts : counts.Counts done) (cells : List (Position × Content)) :
    ∃ counts', s.calculateFrom options false done counts cells =
        .ok ⟨done.reverse ++ s.outcomes options cells, counts'⟩ ∧
      counts'.Counts (done.reverse ++ s.outcomes options cells) := by
  induction cells generalizing done counts with
  | nil =>
    refine ⟨counts, ?_, ?_⟩
    · simp [calculateFrom, outcomes]
    · simpa [outcomes] using hcounts.reverse
  | cons r rest ih =>
    obtain ⟨p, content⟩ := r
    cases hformula : content.isFormula with
    | false => simpa [calculateFrom, outcomes, hformula] using ih hcounts
    | true =>
      have hnext := ih (hcounts.add p (Spreadsheet.evaluateCell s.lookup options p.name))
      cases houtcome : Spreadsheet.evaluateCell s.lookup options p.name with
      | ok v => simpa [calculateFrom, outcomes, hformula, houtcome] using hnext
      | error e => simpa [calculateFrom, outcomes, hformula, houtcome] using hnext

/-- The error of the first failure in a list of outcomes. -/
def firstError (results : List (Position × Outcome)) : Option FormulaError :=
  results.findSome? fun r =>
    match r.2 with
    | .ok _ => none
    | .error e => some e

/-- A loop that may stop ends at the first failure. Without one it is the loop that may not. -/
theorem calculateFrom_stopping (cells : List (Position × Content)) :
    s.calculateFrom options true done counts cells =
      match firstError (s.outcomes options cells) with
      | some e => .error (.formula e)
      | none => s.calculateFrom options false done counts cells := by
  induction cells generalizing done counts with
  | nil => rfl
  | cons r rest ih =>
    obtain ⟨p, content⟩ := r
    cases hformula : content.isFormula with
    | false => simpa [calculateFrom, outcomes, hformula] using ih
    | true =>
      cases houtcome : Spreadsheet.evaluateCell s.lookup options p.name with
      | ok v => simpa [calculateFrom, outcomes, firstError, hformula, houtcome] using ih
      | error e => simp [calculateFrom, outcomes, firstError, hformula, houtcome]

/-- The first failure, and the outcomes before it. -/
theorem firstError_eq_some_iff {results : List (Position × Outcome)} {e : FormulaError} :
    firstError results = some e ↔ ∃ before p after, results = before ++ (p, .error e) :: after ∧
      ∀ r ∈ before, Outcome.failed r.2 = false := by
  have hnone : ∀ outcome : Outcome, Outcome.failed outcome = false ↔
      (match outcome with | .ok _ => none | .error e => some e) = (none : Option FormulaError) := by
    rintro (e | v) <;> simp [Outcome.failed]
  rw [firstError, List.findSome?_eq_some_iff]
  simp only [hnone]
  constructor
  · rintro ⟨before, ⟨p, e' | v⟩, after, rfl, herror, hbefore⟩
    · cases herror
      exact ⟨before, p, after, rfl, hbefore⟩
    · cases herror
  · rintro ⟨before, p, after, rfl, hbefore⟩
    exact ⟨before, (p, .error e), after, rfl, rfl, hbefore⟩

theorem firstError_eq_none_iff {results : List (Position × Outcome)} :
    firstError results = none ↔ ∀ r ∈ results, Outcome.failed r.2 = false := by
  rw [firstError, List.findSome?_eq_none_iff]
  refine forall₂_congr fun r _ => ?_
  cases r.2 <;> simp [Outcome.failed]

/-! ## The formula cells of a sheet -/

variable {p : Position} {cell : String} {outcome : Outcome}

theorem outcomes_ordered (s : Sheet) (options : Options) :
    (s.outcomes options s.toList).Pairwise fun a b => a.1.Before b.1 :=
  List.pairwise_map.2 (s.toList_ordered.filter _)

theorem mem_outcomes : (p, outcome) ∈ s.outcomes options s.toList ↔
    (∃ text, s.cells[p]? = some (.formula text)) ∧
      outcome = Spreadsheet.evaluateCell s.lookup options p.name := by
  rw [outcomes, List.mem_map]
  constructor
  · rintro ⟨⟨q, content⟩, hmem, heq⟩
    obtain ⟨hlisted, hformula⟩ := List.mem_filter.1 hmem
    cases heq
    cases content with
    | value v => cases hformula
    | formula text => exact ⟨⟨text, mem_toList.1 hlisted⟩, rfl⟩
  · rintro ⟨⟨text, hcell⟩, rfl⟩
    exact ⟨(p, .formula text), List.mem_filter.2 ⟨mem_toList.2 hcell, rfl⟩, rfl⟩

theorem ofOutcome_injective : Function.Injective ofOutcome := by
  rintro (e | v) (e' | v') h <;> cases h <;> rfl

theorem evaluateCell_of_place (h : place cell = .ok p) :
    ({ s with options } : Sheet).evaluateCell cell =
      ofOutcome (Spreadsheet.evaluateCell s.lookup options p.name) := by
  rw [evaluateCell, h]
  rfl

end Sheet

/-! ## The report -/

namespace Calculation

variable {c : Calculation} {p : Position} {cell : String}

theorem result?_of_place (h : place cell = .ok p) :
    c.result? cell = (c.results.find? (·.1 == p)).map (·.2) := by
  cases hparse : Address.parse cell with
  | error e =>
    rw [place, hparse] at h
    cases h
  | ok a =>
    rw [place, hparse] at h
    cases h
    rw [result?, hparse]

theorem result?_of_error {e : SheetError} (h : place cell = .error e) : c.result? cell = none := by
  cases hparse : Address.parse cell with
  | error e' => rw [result?, hparse]
  | ok a =>
    rw [place, hparse] at h
    cases h

/-- Where each place is listed once, its outcome is found. -/
theorem result?_eq_some_iff (hordered : c.results.Pairwise fun a b => a.1.Before b.1)
    (h : place cell = .ok p) {outcome : Outcome} :
    c.result? cell = some outcome ↔ (p, outcome) ∈ c.results := by
  rw [result?_of_place h, Option.map_eq_some_iff]
  constructor
  · rintro ⟨r, hfound, rfl⟩
    have hplace : r.1 = p := by simpa using List.find?_some hfound
    exact hplace ▸ List.mem_of_find?_eq_some hfound
  · intro hmem
    cases hfound : c.results.find? (·.1 == p) with
    | none => exact absurd (List.find?_eq_none.1 hfound _ hmem) (by simp)
    | some r =>
      have hplace : r.1 = p := by simpa using List.find?_some hfound
      have hsame : r = (p, outcome) := List.inj_on_of_nodup_map
        (Position.nodup_of_ordered hordered) (List.mem_of_find?_eq_some hfound) hmem hplace
      exact ⟨r, rfl, by rw [hsame]⟩

/-- A calculation lists the formula cells of a sheet once each, row by row, with the outcomes that
they have by themselves under some options; it counts these outcomes, and it finds them under every
spelling of an address. -/
structure Reports (c : Calculation) (s : Sheet) (options : Options) : Prop where
  inGrid : ∀ r ∈ c.results, r.1.inGrid = true
  cells : ∀ cell p, place cell = .ok p →
    (p ∈ c.results.map Prod.fst ↔ ∃ text, s.get cell = .ok (some (.formula text)))
  ordered : c.results.Pairwise fun a b => a.1.Before b.1
  outcomes : ∀ r ∈ c.results, ∀ cell, place cell = .ok r.1 →
    ({ s with options } : Sheet).evaluateCell cell = Sheet.ofOutcome r.2
  counts : c.statistics.Counts c.results
  result : ∀ cell p outcome, place cell = .ok p →
    (c.result? cell = some outcome ↔ (p, outcome) ∈ c.results)
  value : ∀ cell p v, place cell = .ok p → (c.value? cell = some v ↔ (p, .ok v) ∈ c.results)
  stray : ∀ cell e, place cell = .error e → c.result? cell = none ∧ c.value? cell = none

/-- What a formula cell comes to by itself is listed. -/
theorem Reports.mem_results {s : Sheet} {options : Options} {text : String} {outcome : Outcome}
    (h : c.Reports s options) (hplace : place cell = .ok p)
    (hcell : s.get cell = .ok (some (.formula text)))
    (houtcome : ({ s with options } : Sheet).evaluateCell cell = Sheet.ofOutcome outcome) :
    (p, outcome) ∈ c.results := by
  obtain ⟨r, hr, rfl⟩ := List.mem_map.1 ((h.cells cell p hplace).2 ⟨text, hcell⟩)
  have hsame : r.2 = outcome := Sheet.ofOutcome_injective <| by
    rw [← h.outcomes r hr cell hplace, houtcome]
  rwa [← hsame]

end Calculation

namespace Sheet

/-- A calculation that lists the outcomes of all cells and counts them reports the sheet. -/
theorem reports_of_outcomes {s : Sheet} {options : Options} {counts : Statistics} (hs : s.InGrid)
    (hcounts : counts.Counts (s.outcomes options s.toList)) :
    Calculation.Reports ⟨s.outcomes options s.toList, counts⟩ s options where
  inGrid r hr := by
    obtain ⟨⟨text, hcell⟩, _⟩ := mem_outcomes.1 hr
    exact hs r.1 _ hcell
  cells cell p hplace := by
    rw [get_of_place hplace, List.mem_map]
    constructor
    · rintro ⟨r, hr, rfl⟩
      obtain ⟨⟨text, hcell⟩, _⟩ := mem_outcomes.1 hr
      exact ⟨text, by rw [hcell]⟩
    · rintro ⟨text, hcell⟩
      exact ⟨(p, _), mem_outcomes.2 ⟨⟨text, Except.ok.inj hcell⟩, rfl⟩, rfl⟩
  ordered := s.outcomes_ordered options
  outcomes r hr cell hplace := by
    rw [evaluateCell_of_place hplace, (mem_outcomes.1 hr).2]
  counts := hcounts
  result _ _ _ hplace := Calculation.result?_eq_some_iff (s.outcomes_ordered options) hplace
  value cell p v hplace := by
    rw [← Calculation.result?_eq_some_iff (s.outcomes_ordered options) hplace, Calculation.value?]
    cases Calculation.result? _ cell with
    | none => simp
    | some outcome => cases outcome <;> simp [Except.toOption]
  stray cell e hplace := by
    rw [Calculation.value?, Calculation.result?_of_error hplace]
    exact ⟨rfl, rfl⟩

/-- A calculation of any sheet reports its formula cells. One that may stop fails if and only if
some formula cell does, with the error of the first of them, and is the same otherwise. -/
theorem calculateWith_reports (changes : List Change) (options : Options) :
    ∃ c, (new.afterAll changes).calculateWith options false = .ok c ∧
      c.Reports (new.afterAll changes) options ∧
      ((∃ e, (new.afterAll changes).calculateWith options true = .error e) ↔
        ∃ r ∈ c.results, Outcome.failed r.2 = true) ∧
      (∀ e, (new.afterAll changes).calculateWith options true = .error e ↔
        ∃ before p cause after, c.results = before ++ (p, .error cause) :: after ∧
          (∀ r ∈ before, Outcome.failed r.2 = false) ∧ e = .formula cause) ∧
      ((∀ r ∈ c.results, Outcome.failed r.2 = false) →
        (new.afterAll changes).calculateWith options true = .ok c) := by
  generalize hs : new.afterAll changes = s
  obtain ⟨counts, hall, hcounts⟩ : ∃ counts, s.calculateWith options false =
      .ok ⟨s.outcomes options s.toList, counts⟩ ∧ counts.Counts (s.outcomes options s.toList) :=
    calculateFrom_eq Statistics.counts_nil s.toList
  have hstop : s.calculateWith options true =
      match firstError (s.outcomes options s.toList) with
      | some e => .error (.formula e)
      | none => .ok ⟨s.outcomes options s.toList, counts⟩ := by
    rw [← hall]
    exact calculateFrom_stopping s.toList
  have hgrid : s.InGrid := hs ▸ inGrid_afterAll changes
  refine ⟨_, hall, reports_of_outcomes hgrid hcounts, ?_, fun e => ?_, fun hnone => ?_⟩
  · rw [hstop]
    cases herror : firstError (s.outcomes options s.toList) with
    | none => simpa using firstError_eq_none_iff.1 herror
    | some e =>
      obtain ⟨before, p, after, heq, _⟩ := firstError_eq_some_iff.1 herror
      exact iff_of_true ⟨_, rfl⟩ ⟨(p, .error e), by simp [heq], rfl⟩
  · rw [hstop]
    constructor
    · intro h
      cases herror : firstError (s.outcomes options s.toList) with
      | none => rw [herror] at h; cases h
      | some cause =>
        rw [herror] at h
        cases h
        obtain ⟨before, p, after, heq, hbefore⟩ := firstError_eq_some_iff.1 herror
        exact ⟨before, p, cause, after, heq, hbefore, rfl⟩
    · rintro ⟨before, p, cause, after, heq, hbefore, rfl⟩
      rw [firstError_eq_some_iff.2 ⟨before, p, after, heq, hbefore⟩]
  · rw [hstop, firstError_eq_none_iff.2 hnone]

/-- A cell with a value behind one that needs its own. -/
def loopHistory : List Change :=
  [.setFormula "a2" "\"x\" & \"y\"", .setFormula "B1" "=$b$1", .setValue "C1" (.boolean true)]

/-- One of the two formula cells has its value, the other one stops a calculation that may stop. -/
theorem calculateWith_reports_loopHistory :
    ∃ c, (new.afterAll loopHistory).calculateWith {} false = .ok c ∧
      c.value? " $A02" = some (.text "xy") ∧ c.value? "C1" = none ∧
      ∃ e, (new.afterAll loopHistory).calculateWith {} true = .error e := by
  obtain ⟨c, hall, hreports, hfails, _⟩ := calculateWith_reports loopHistory {}
  have hvalue : ({ new.afterAll loopHistory with options := {} } : Sheet).evaluateCell " $A02" =
      .ok (.text "xy") := by
    rw [evaluateCell]
    simp only [evaluateCell_eq_retrieve]
    decide +kernel
  have hloop : ({ new.afterAll loopHistory with options := {} } : Sheet).evaluateCell "B1" =
      .error (.formula (.circularReference "B1")) := by
    rw [evaluateCell]
    simp only [evaluateCell_eq_retrieve]
    decide +kernel
  have hjoins : (new.afterAll loopHistory).get " $A02" =
      .ok (some (.formula "\"x\" & \"y\"")) := by decide +kernel
  have hrefers : (new.afterAll loopHistory).get "B1" = .ok (some (.formula "$b$1")) := by
    decide +kernel
  have hfirst : (⟨1, 0⟩, .ok (.text "xy")) ∈ c.results :=
    hreports.mem_results (by decide +kernel) hjoins hvalue
  have hsecond : (⟨0, 1⟩, .error (.circularReference "B1")) ∈ c.results :=
    hreports.mem_results (by decide +kernel) hrefers hloop
  refine ⟨c, hall, ?_, ?_, hfails.2 ⟨_, hsecond, rfl⟩⟩
  · exact (hreports.value " $A02" ⟨1, 0⟩ _ (by decide +kernel)).2 hfirst
  · cases hnone : c.value? "C1" with
    | none => rfl
    | some v =>
      have hplace : place "C1" = .ok ⟨0, 2⟩ := by decide +kernel
      obtain ⟨text, htext⟩ := (hreports.cells "C1" ⟨0, 2⟩ hplace).1
        (List.mem_map_of_mem ((hreports.value "C1" ⟨0, 2⟩ v hplace).1 hnone))
      have hcontent : (new.afterAll loopHistory).get "C1" =
          .ok (some (.value (.boolean true))) := by decide +kernel
      rw [hcontent] at htext
      cases htext

end Sheet

end Spreadsheet
