import Spreadsheet.Proofs.Evaluation.Cycles
import Spreadsheet.Proofs.Evaluation.Growth

/-!
# Looking for cycles

Whether cycles are looked for makes a difference only where there is one. Up to the report of a
cycle, an evaluation without the check does the same; from there on it meets only cells that are
settled or that need each other, so it follows the cycle until the chain of references is too deep.

## Main results

* `retrieve_eq_of_reportsNone`: where no cycle is reported, the check makes no difference.
* `exists_traced`: a report of a cycle shows where the recursion without the check gets to.
* `tooDeep_of_needs`: from there it does not come back.
* `evaluateFormula_detection`: evaluating a formula with and without the check.
-/

namespace Spreadsheet

variable {options other : Options}

/-! ## The same questions -/

theorem rangeInquiry_congr (h : options.maxRangeCells = other.maxRangeCells)
    (start stop : String) : rangeInquiry options start stop = rangeInquiry other start stop := by
  rw [rangeInquiry, rangeInquiry, Options.rangeBetween, Options.rangeBetween, h]

namespace Expr

mutual

theorem inquiry_congr (h : options.maxRangeCells = other.maxRangeCells) :
    (e : Expr) → e.inquiry options = e.inquiry other
  | .constant v => by rw [inquiry, inquiry]
  | .reference name => by rw [inquiry, inquiry]
  | .group inner => by
    rw [inquiry, inquiry]
    exact inquiry_congr h inner
  | .apply operation args => by
    rw [inquiry, inquiry, inquiryOfAll_congr h args]
    exact congrArg (ite _ · _) (congrArg (_ >>= ·) (funext fun p => rangeInquiry_congr h p.1 p.2))

theorem inquiryOfAll_congr (h : options.maxRangeCells = other.maxRangeCells) :
    (es : List Expr) → inquiryOfAll options es = inquiryOfAll other es
  | [] => by rw [inquiryOfAll, inquiryOfAll]
  | e :: rest => by
    rw [inquiryOfAll, inquiryOfAll, inquiry_congr h e, inquiryOfAll_congr h rest]

end

end Expr

/-- What a formula asks depends only on how deeply it may nest and how large its ranges may be. -/
theorem formulaInquiry_congr (hnesting : options.maxNesting = other.maxNesting)
    (hcells : options.maxRangeCells = other.maxRangeCells) (text : String) :
    formulaInquiry options text = formulaInquiry other text := by
  rw [formulaInquiry, formulaInquiry, hnesting]
  refine congrArg (_ >>= ·) (funext fun e => ?_)
  rw [Expr.checkedInquiry, Expr.checkedInquiry, Expr.inquiry_congr hcells]

namespace Evaluation

variable {env : Environment} {on off : Options} {α : Type} {memory later : Memory}
  {path : List String} {name last : String}

/-- Options that differ only in whether cycles are looked for. -/
structure Twins (on off : Options) : Prop where
  nesting : on.maxNesting = off.maxNesting
  references : on.maxReferences = off.maxReferences
  cells : on.maxRangeCells = off.maxRangeCells
  detects : on.detectCycles = true
  ignores : off.detectCycles = false

theorem Twins.formulaInquiry_eq (h : Twins on off) (text : String) :
    formulaInquiry on text = formulaInquiry off text :=
  formulaInquiry_congr h.nesting h.cells text

/-- Without the check, the path does not matter. -/
theorem unchecked (hignores : off.detectCycles = false) (name : String) (path : List String) :
    off.detectCycles = true → name ∉ path := by
  rw [hignores]
  intro hdetects
  cases hdetects

/-! ## Where no cycle is reported -/

/-- No cycle is reported. -/
def ReportsNone (r : Except FormulaError α) : Prop :=
  ∀ name, r ≠ .error (.circularReference name)

theorem reportsNone_ok (a : α) : ReportsNone (.ok a : Except FormulaError α) :=
  fun _ h => by cases h

/-- Two ways of loading cells that differ only where one of them reports a cycle. -/
def SameUnlessReported (load load' : Loader) : Prop :=
  ∀ name memory, ReportsNone (load name memory) → load' name memory = load name memory

theorem reportsNone_iff {r : Except FormulaError α} :
    ReportsNone r ↔ FailsOnly (fun e => ∀ name, e ≠ .circularReference name) r :=
  ⟨fun h _ he name heq => h name (heq ▸ he), fun h name heq => h _ heq name rfl⟩

theorem SameUnlessReported.run {load load' : Loader} (h : SameUnlessReported load load')
    (i : Inquiry α) (hnone : ReportsNone (i.run load memory)) :
    i.run load' memory = i.run load memory := by
  have hsame : SameWhere (fun e => ∀ name, e ≠ .circularReference name) load load' :=
    fun name memory hfails => h name memory (reportsNone_iff.2 hfails)
  exact hsame.run i (reportsNone_iff.1 hnone)

/-- Where no cycle is reported, the check makes no difference. -/
theorem retrieve_eq_of_reportsNone (h : Twins on off) (levels : Nat) (path : List String) :
    SameUnlessReported (retrieve env on levels path) (retrieve env off levels path) := by
  induction levels generalizing path with
  | zero =>
    intro name memory hnone
    rcases settled_or_unresolved env memory name with ⟨v, hsettled⟩ | ⟨text, hopen⟩
    · rw [retrieve_of_settled hsettled, retrieve_of_settled hsettled]
    · have hpath : name ∉ path := fun hmem =>
        hnone name (retrieve_of_mem_path h.detects hopen hmem)
      rw [retrieve_zero_of_unresolved hopen (unchecked h.ignores name path),
        retrieve_zero_of_unresolved hopen fun _ => hpath, h.references]
  | succ levels ih =>
    intro name memory hnone
    rcases settled_or_unresolved env memory name with ⟨v, hsettled⟩ | ⟨text, hopen⟩
    · rw [retrieve_of_settled hsettled, retrieve_of_settled hsettled]
    · have hpath : name ∉ path := fun hmem =>
        hnone name (retrieve_of_mem_path h.detects hopen hmem)
      rw [retrieve_succ_of_unresolved hopen fun _ => hpath] at hnone
      rw [retrieve_succ_of_unresolved hopen (unchecked h.ignores name path),
        retrieve_succ_of_unresolved hopen fun _ => hpath, ← h.formulaInquiry_eq]
      rw [(ih (name :: path)).run]
      intro cell heq
      rw [heq] at hnone
      exact hnone cell rfl

/-! ## What a cell needs first -/

/-- The cell that an inquiry asks for once all earlier questions are answered by settled cells. -/
inductive Asks (env : Environment) (memory : Memory) : Inquiry α → String → Prop
  | here {name : String} (next : Value → Inquiry α) : Asks env memory (.ask name next) name
  | later {name other : String} {next : Value → Inquiry α} {v : Value}
    (h : Settled env memory name v) (hnext : Asks env memory (next v) other) :
    Asks env memory (.ask name next) other

theorem Asks.of_grows {i : Inquiry α} (h : Asks env memory i name)
    (hgrows : Grows env memory later) : Asks env later i name := by
  induction h with
  | here next => exact .here next
  | later hsettled _ ih => exact .later (hsettled.of_grows hgrows) ih

/-- Where the cell that is asked for cannot be loaded, the inquiry fails. -/
theorem Asks.run_eq_error {i : Inquiry α} {load : Loader} {e : FormulaError}
    (h : Asks env memory i name)
    (hsettled : ∀ other v, Settled env memory other v → load other memory = .ok (v, memory))
    (herror : load name memory = .error e) : i.run load memory = .error e := by
  induction h with
  | here next =>
    rw [Inquiry.run_ask, herror]
    rfl
  | later hother _ ih =>
    rw [Inquiry.run_ask, hsettled _ _ hother]
    exact ih herror

/-- An unresolved cell whose formula asks for another cell. -/
def Needs (env : Environment) (options : Options) (memory : Memory) (name other : String) : Prop :=
  ∃ text, Unresolved env memory name text ∧ Asks env memory (formulaInquiry options text) other

/-! ## Where a cycle is reported -/

/-- A report of a cycle comes from a question. Before it, all is the same without the check; so if
that question fails without the check, the whole fails. -/
theorem asks_of_run_circular {load load' : Loader} (hsettles : Settles env path load)
    (hsame : SameUnlessReported load load') (i : Inquiry α) (hi : i.FailsOnly FormulaError.Own)
    (hfresh : Fresh env memory path)
    (hrun : i.run load memory = .error (.circularReference last)) :
    ∃ name between, Grows env memory between ∧ Fresh env between path ∧
      Asks env between i name ∧ load name between = .error (.circularReference last) ∧
      ∀ e, load' name between = .error e → i.run load' memory = .error e := by
  induction i generalizing memory with
  | done r =>
    have hdone : r = .error (.circularReference last) := by
      cases r with
      | ok a => cases hrun
      | error e => cases hrun; rfl
    exact absurd (hi _ hdone) (FormulaError.not_own_circularReference last)
  | ask name next ih =>
    rcases Inquiry.run_ask_eq_error hrun with hload | ⟨v, between, hload, hnext⟩
    · refine ⟨name, memory, Grows.refl memory, hfresh, .here next, hload, fun e he => ?_⟩
      rw [Inquiry.run_ask, he]
      rfl
    · obtain ⟨hgrows, hbetween, hsettled⟩ := hsettles name v memory between hfresh hload
      obtain ⟨other, later, hgrows', hlater, hasks, hreport, hfail⟩ := ih v (hi v) hbetween hnext
      refine ⟨other, later, hgrows.trans hgrows', hlater, .later (hsettled.of_grows hgrows') hasks,
        hreport, fun e he => ?_⟩
      have hload' : load' name memory = .ok (v, between) := by
        rw [hsame name memory (hload ▸ reportsNone_ok _), hload]
      rw [Inquiry.run_ask, hload']
      exact hfail e he

/-- The chain of references is too deep. -/
def TooDeep (options : Options) (r : Except FormulaError α) : Prop :=
  ∃ name, r = .error (.evaluation (.chainTooDeep name options.maxReferences))

/-- What a report of the cell `last` says about the recursion without the check. With the memory
`trap`, the cell that is loaded needs `last`, which lies on the path or needs itself; and as far as
loading `last` with that memory goes too deep, so does the whole. -/
structure Traced (env : Environment) (off : Options) (levels : Nat) (path : List String)
    (name last : String) (memory trap : Memory) : Prop where
  fresh : Fresh env trap path
  needed : Relation.ReflTransGen (Needs env off trap) name last
  back : last ∈ path ∨ Relation.TransGen (Needs env off trap) last last
  grows : Grows env memory trap
  follows : (∀ levels path, TooDeep off (retrieve env off levels path last trap)) →
    TooDeep off (retrieve env off levels path name memory)

/-- A cell whose formula leads to a report is traced from where its formula is. -/
theorem traced_of_asks (h : Twins on off) {levels : Nat} {text other : String}
    {between trap : Memory} (hopen : Unresolved env memory name text)
    (hgrows : Grows env memory between) (hasks : Asks env between (formulaInquiry off text) other)
    (hfail : ∀ e, retrieve env off levels (name :: path) other between = .error e →
      (formulaInquiry off text).run (retrieve env off levels (name :: path)) memory = .error e)
    (htraced : Traced env off levels (name :: path) other last between trap) :
    Traced env off (levels + 1) path name last memory trap := by
  have hneeds : Needs env off trap name other :=
    ⟨text, htraced.fresh.head hopen, hasks.of_grows htraced.grows⟩
  refine ⟨htraced.fresh.tail, .head hneeds htraced.needed, ?_, hgrows.trans htraced.grows,
    fun hlast => ?_⟩
  · rcases htraced.back with hmem | hcycle
    · rcases List.mem_cons.1 hmem with rfl | hpath
      · exact .inr (.head' hneeds htraced.needed)
      · exact .inl hpath
    · exact .inr hcycle
  · obtain ⟨cell, hcell⟩ := htraced.follows hlast
    refine ⟨cell, ?_⟩
    rw [retrieve_succ_of_unresolved hopen (unchecked h.ignores name path), hfail _ hcell]
    rfl

/-- Every report of a cycle can be traced; by induction on the levels. -/
theorem exists_traced (h : Twins on off) (levels : Nat) (hfresh : Fresh env memory path)
    (hrun : retrieve env on levels path name memory = .error (.circularReference last)) :
    ∃ trap, Traced env off levels path name last memory trap := by
  induction levels generalizing path name memory with
  | zero =>
    cases failsToLoad_of_retrieve hrun with
    | cycle _ _ hmem =>
      exact ⟨memory, hfresh, .refl, .inl hmem, Grows.refl memory, fun hlast => hlast _ _⟩
  | succ levels ih =>
    cases failsToLoad_of_retrieve hrun with
    | cycle _ _ hmem =>
      exact ⟨memory, hfresh, .refl, .inl hmem, Grows.refl memory, fun hlast => hlast _ _⟩
    | @within _ text _ hopen _ hwithin =>
      obtain ⟨other, between, hgrows, hbetween, hasks, hreport, hfail⟩ :=
        asks_of_run_circular (settles_retrieve h.detects levels (name :: path))
          (retrieve_eq_of_reportsNone h levels (name :: path)) _ (failsOnly_formulaInquiry on text)
          (hfresh.cons hopen) hwithin
      rw [h.formulaInquiry_eq] at hasks hfail
      obtain ⟨trap, htraced⟩ := ih hbetween hreport
      exact ⟨trap, traced_of_asks h hopen hgrows hasks hfail htraced⟩

/-- A cell that needs itself needs some cell first that needs it in turn. -/
theorem exists_needs {trap : Memory} (hcycle : Relation.TransGen (Needs env off trap) last last)
    (hneeded : Relation.ReflTransGen (Needs env off trap) name last) :
    ∃ other, Needs env off trap name other ∧
      Relation.ReflTransGen (Needs env off trap) other last := by
  rcases Relation.ReflTransGen.cases_head hneeded with rfl | hhead
  · exact Relation.TransGen.head'_iff.1 hcycle
  · exact hhead

/-- Without the check, a cell that needs itself, and whatever needs it, is too deep on every level;
by induction on the levels. -/
theorem tooDeep_of_needs (hignores : off.detectCycles = false) {trap : Memory}
    (hcycle : Relation.TransGen (Needs env off trap) last last) (levels : Nat)
    (path : List String) (hneeded : Relation.ReflTransGen (Needs env off trap) name last) :
    TooDeep off (retrieve env off levels path name trap) := by
  induction levels generalizing path name with
  | zero =>
    obtain ⟨_, ⟨text, hopen, _⟩, _⟩ := exists_needs hcycle hneeded
    exact ⟨name, retrieve_zero_of_unresolved hopen (unchecked hignores name path)⟩
  | succ levels ih =>
    obtain ⟨other, ⟨text, hopen, hasks⟩, hother⟩ := exists_needs hcycle hneeded
    obtain ⟨cell, hcell⟩ := ih (name :: path) hother
    refine ⟨cell, ?_⟩
    rw [retrieve_succ_of_unresolved hopen (unchecked hignores name path),
      hasks.run_eq_error (fun _ _ => retrieve_of_settled) hcell]
    rfl

/-- Without the check, an inquiry in which a cycle would be reported goes too deep. -/
theorem tooDeep_of_run_circular (h : Twins on off) (i : Inquiry α)
    (hi : i.FailsOnly FormulaError.Own) (levels : Nat)
    (hrun : i.run (retrieve env on levels []) memory = .error (.circularReference last)) :
    TooDeep off (i.run (retrieve env off levels []) memory) := by
  obtain ⟨name, between, _, hfresh, _, hreport, hfail⟩ :=
    asks_of_run_circular (settles_retrieve h.detects levels [])
      (retrieve_eq_of_reportsNone h levels []) i hi (fresh_nil memory) hrun
  obtain ⟨trap, htraced⟩ := exists_traced h levels hfresh hreport
  rcases htraced.back with hmem | hcycle
  · cases hmem
  · obtain ⟨cell, hcell⟩ := htraced.follows fun levels path =>
      tooDeep_of_needs h.ignores hcycle levels path .refl
    exact ⟨cell, hfail _ hcell⟩

end Evaluation

open Evaluation

theorem Options.twins (options : Options) :
    Twins { options with detectCycles := true } { options with detectCycles := false } :=
  ⟨rfl, rfl, rfl, rfl, rfl⟩

/-- A formula for which no cycle is reported has the same outcome without the check. -/
theorem evaluateFormula_eq_of_reportsNone {env : Environment} {on off : Options} {text : String}
    (h : Twins on off) (hnone : ReportsNone (evaluateFormula env on text)) :
    evaluateFormula env off text = evaluateFormula env on text := by
  rw [evaluateFormula_eq_retrieve] at hnone
  rw [evaluateFormula_eq_retrieve, evaluateFormula_eq_retrieve, ← h.formulaInquiry_eq,
    ← h.references, (retrieve_eq_of_reportsNone h on.maxReferences []).run]
  intro name heq
  rw [heq] at hnone
  exact hnone name rfl

/-- A formula for which a cycle is reported goes too deep without the check. -/
theorem tooDeep_of_evaluateFormula {env : Environment} {on off : Options} {text name : String}
    (h : Twins on off) (hrun : evaluateFormula env on text = .error (.circularReference name)) :
    TooDeep off (evaluateFormula env off text) := by
  obtain ⟨cell, hcell⟩ := tooDeep_of_run_circular h (formulaInquiry on text)
    (failsOnly_formulaInquiry on text) on.maxReferences (run_of_evaluateFormula_eq_error hrun)
  refine ⟨cell, ?_⟩
  rw [evaluateFormula_eq_retrieve, ← h.formulaInquiry_eq, ← h.references, hcell, h.references]
  rfl

/-- Looking for cycles changes only how a cycle is reported: without the check, the chain of
references is then too deep. -/
theorem evaluateFormula_detection (env : Environment) (options : Options) (text : String) :
    ((∀ name, evaluateFormula env { options with detectCycles := true } text ≠
        .error (.circularReference name)) →
      evaluateFormula env { options with detectCycles := false } text =
        evaluateFormula env { options with detectCycles := true } text) ∧
    (∀ name, evaluateFormula env { options with detectCycles := true } text =
        .error (.circularReference name) →
      ∃ cell, evaluateFormula env { options with detectCycles := false } text =
        .error (.evaluation (.chainTooDeep cell options.maxReferences))) := by
  constructor
  · intro hnone
    exact evaluateFormula_eq_of_reportsNone options.twins hnone
  · intro name h
    exact tooDeep_of_evaluateFormula options.twins h

/-- A formula beside a cycle has its value without the check too; one that needs the cycle goes too
deep. -/
theorem detection_circleCells :
    evaluateFormula circleCells { maxReferences := 4 } "C1" = .ok .empty ∧
      evaluateFormula circleCells { maxReferences := 4, detectCycles := false } "C1" =
        evaluateFormula circleCells { maxReferences := 4 } "C1" ∧
      evaluateFormula circleCells { maxReferences := 4 } "A1" = .error (.circularReference "A1") ∧
      ∃ cell, evaluateFormula circleCells { maxReferences := 4, detectCycles := false } "A1" =
        .error (.evaluation (.chainTooDeep cell 4)) := by
  have hvalue : evaluateFormula circleCells { maxReferences := 4 } "C1" = .ok .empty := by
    rw [evaluateFormula_eq_retrieve]
    decide +kernel
  have hcircle : evaluateFormula circleCells { maxReferences := 4 } "A1" =
      .error (.circularReference "A1") := by
    rw [evaluateFormula_eq_retrieve]
    decide +kernel
  have hnone : ∀ name, evaluateFormula circleCells { maxReferences := 4 } "C1" ≠
      .error (.circularReference name) := by
    intro name h
    rw [hvalue] at h
    cases h
  have hsame := (evaluateFormula_detection circleCells { maxReferences := 4 } "C1").1 hnone
  have hdeep := (evaluateFormula_detection circleCells { maxReferences := 4 } "A1").2 "A1" hcircle
  exact ⟨hvalue, hsame, hcircle, hdeep⟩

end Spreadsheet
