import Spreadsheet.Proofs.Evaluation.Agreement
import Spreadsheet.Proofs.Evaluation.References

/-!
# An evaluation depends on the cells that it reads

Which cells a formula reads is known only as it is evaluated: their names stand in the formula, in
the formulas that are found under those names, and so on, and a cell that is remembered is not read
again. Two evaluations whose sheets agree on all of these cells stay in step. They keep in step also
if the paths that led to them differ, as long as they differ in cells that are not read any more.

## Main results

* `retrieve_congr`: the recursion looks up no cells but those that a cell depends on.
* `evaluateFormula_congr`: other cells do not matter for the value or the error of a formula.
-/

namespace Spreadsheet

namespace Evaluation

variable {env other : Environment} {options : Options} {memory : Memory} {path path' : List String}
  {name text : String}

/-- Two sheets, and two paths through them, that are alike as far as a cell depends on them. -/
structure AlikeFrom (env other : Environment) (options : Options) (path path' : List String)
    (name : String) : Prop where
  lookup : ∀ cell, Relation.ReflTransGen (env.Reads options) name cell → other cell = env cell
  onPath : ∀ cell, Relation.ReflTransGen (env.Reads options) name cell →
    (cell ∈ path' ↔ cell ∈ path)

/-- From a cell to one that its formula asks for, with the cell itself on both paths. -/
theorem AlikeFrom.next {cell : String} (h : AlikeFrom env other options path path' name)
    (henv : env name = some (.formula text)) (hcell : (formulaInquiry options text).MayAsk cell) :
    AlikeFrom env other options (name :: path) (name :: path') cell := by
  have hreads : env.Reads options name cell := ⟨text, henv, readsDirectly_of_mayAsk hcell⟩
  refine ⟨fun last hlast => h.lookup last (.head hreads hlast), fun last hlast => ?_⟩
  rw [List.mem_cons, List.mem_cons, h.onPath last (.head hreads hlast)]

theorem plain?_congr (h : other name = env name) : other.plain? name = env.plain? name := by
  rw [Environment.plain?, Environment.plain?, h]

theorem Settled.congr {v : Value} (h : Settled env memory name v)
    (hlookup : other name = env name) : Settled other memory name v := by
  rwa [Settled, plain?_congr hlookup]

theorem Unresolved.congr (h : Unresolved env memory name text) (hlookup : other name = env name) :
    Unresolved other memory name text :=
  ⟨h.fresh, hlookup.trans h.formula⟩

/-- Two recursions that find the same content under a name load it alike, unless it holds a formula
that both begin to evaluate. -/
theorem retrieve_eq_of_open {options' : Options} {levels levels' : Nat}
    (hdetect : options'.detectCycles = options.detectCycles) (hlookup : other name = env name)
    (hpath : name ∈ path' ↔ name ∈ path)
    (hopen : ∀ text, Unresolved env memory name text →
      (options.detectCycles = true → name ∉ path) →
      retrieve other options' levels' path' name memory =
        retrieve env options levels path name memory) :
    retrieve other options' levels' path' name memory =
      retrieve env options levels path name memory := by
  rcases settled_or_unresolved env memory name with ⟨v, hsettled⟩ | ⟨text, hunresolved⟩
  · rw [retrieve_of_settled hsettled, retrieve_of_settled (hsettled.congr hlookup)]
  · by_cases hcycle : options.detectCycles = true ∧ name ∈ path
    · rw [retrieve_of_mem_path hcycle.1 hunresolved hcycle.2,
        retrieve_of_mem_path (hdetect.trans hcycle.1) (hunresolved.congr hlookup)
          (hpath.2 hcycle.2)]
    · exact hopen text hunresolved fun detect hmem => hcycle ⟨detect, hmem⟩

/-- The recursion looks up no cells but those that a cell depends on, and it asks of no others
whether they are on the path. By induction on the levels: the questions of a formula lead to cells
that the formula depends on. -/
theorem retrieve_congr (levels : Nat) (h : AlikeFrom env other options path path' name)
    (memory : Memory) :
    retrieve other options levels path' name memory =
      retrieve env options levels path name memory := by
  induction levels generalizing path path' name memory with
  | zero =>
    refine retrieve_eq_of_open rfl (h.lookup name .refl) (h.onPath name .refl) ?_
    intro text hopen hpath
    have hpath' : options.detectCycles = true → name ∉ path' := fun detect hmem =>
      hpath detect ((h.onPath name .refl).1 hmem)
    rw [retrieve_zero_of_unresolved hopen hpath,
      retrieve_zero_of_unresolved (hopen.congr (h.lookup name .refl)) hpath']
  | succ levels ih =>
    refine retrieve_eq_of_open rfl (h.lookup name .refl) (h.onPath name .refl) ?_
    intro text hopen hpath
    have hpath' : options.detectCycles = true → name ∉ path' := fun detect hmem =>
      hpath detect ((h.onPath name .refl).1 hmem)
    rw [retrieve_succ_of_unresolved hopen hpath,
      retrieve_succ_of_unresolved (hopen.congr (h.lookup name .refl)) hpath']
    refine congrArg (· >>= _) (Inquiry.run_congr (fun cell hcell between => ?_) memory)
    exact ih (h.next hopen.formula hcell) between

/-- So the questions of a formula text are answered alike on two sheets that agree on the cells that
it depends on. -/
theorem run_formulaInquiry_congr (levels : Nat)
    (hlookup : ∀ cell, DependsOn env options text cell → other cell = env cell)
    (hpath : ∀ cell, DependsOn env options text cell → (cell ∈ path' ↔ cell ∈ path))
    (memory : Memory) :
    (formulaInquiry options text).run (retrieve other options levels path') memory =
      (formulaInquiry options text).run (retrieve env options levels path) memory := by
  refine Inquiry.run_congr (fun name hname between => ?_) memory
  have hfirst : ReadsDirectly options text name := readsDirectly_of_mayAsk hname
  exact retrieve_congr levels
    ⟨fun cell hcell => hlookup cell ⟨name, hfirst, hcell⟩,
      fun cell hcell => hpath cell ⟨name, hfirst, hcell⟩⟩ between

/-- A formula has the same outcome on two sheets that agree on the cells that it depends on. -/
theorem evaluateFormula_eq_of_alike
    (h : ∀ cell, DependsOn env options text cell → other cell = env cell) :
    evaluateFormula other options text = evaluateFormula env options text := by
  rw [evaluateFormula_eq_retrieve, evaluateFormula_eq_retrieve,
    run_formulaInquiry_congr options.maxReferences h fun _ _ => Iff.rfl]

end Evaluation

open Evaluation

/-- Two sheets that agree on every cell that a formula reads on the first, directly or through the
formulas that are found there, give it the same value or the same error. So writing to any other
cell changes nothing. -/
theorem evaluateFormula_congr (env : Environment) (options : Options) (text : String) :
    (∀ other : Environment, (∀ name, DependsOn env options text name → other name = env name) →
      evaluateFormula other options text = evaluateFormula env options text) ∧
    (∀ name content, ¬ DependsOn env options text name →
      evaluateFormula (Function.update env name content) options text =
        evaluateFormula env options text) := by
  constructor
  · intro other h
    exact evaluateFormula_eq_of_alike h
  · intro name content hname
    refine evaluateFormula_eq_of_alike fun cell hcell => ?_
    exact Function.update_of_ne (fun heq : cell = name => hname (heq ▸ hcell)) _ _

/-- A formula cell that reads another cell twice. -/
def twiceCells : Environment
  | "A1" => some (.formula "B1 & B1")
  | "B1" => some (.value (.text "x"))
  | _ => none

/-- The sheet with something else in every cell but two. -/
def crowdedCells : Environment
  | "A1" => some (.formula "B1 & B1")
  | "B1" => some (.value (.text "x"))
  | _ => some (.formula "A1")

theorem eq_of_readsDirectly_reference {options : Options} {text cell name : String}
    (hparse : Expr.ofFormula text options.maxNesting = .ok (.reference cell))
    (h : ReadsDirectly options text name) : name = canonicalName cell := by
  obtain ⟨e, he, hreads⟩ := h
  rw [hparse] at he
  cases he
  cases hreads
  rfl

theorem eq_of_dependsOn_twiceCells {name : String} (h : DependsOn twiceCells {} "A1" name) :
    name = "A1" ∨ name = "B1" := by
  obtain ⟨first, hfirst, hreached⟩ := h
  have hparse : Expr.ofFormula "A1" defaultNesting = .ok (.reference "A1") := by
    with_unfolding_all rfl
  have htwice : Expr.ofFormula "B1 & B1" defaultNesting =
      .ok (.operator .concat [.reference "B1", .reference "B1"]) := by
    with_unfolding_all rfl
  induction hreached with
  | refl =>
    rw [eq_of_readsDirectly_reference hparse hfirst]
    exact .inl (by decide +kernel)
  | tail _ hreads ih =>
    obtain ⟨text, hformula, e, he, hname⟩ := hreads
    rcases ih with rfl | rfl
    · cases hformula
      rw [htwice] at he
      cases he
      cases hname with
      | operand _ hmem hreference =>
        simp only [List.mem_cons, List.not_mem_nil, or_false, or_self] at hmem
        subst hmem
        cases hreference
        exact .inr (by decide +kernel)
    · cases hformula

/-- A formula does not see what stands in the other cells, though they lead to it. -/
theorem evaluateFormula_crowdedCells :
    evaluateFormula crowdedCells {} "A1" = evaluateFormula twiceCells {} "A1" ∧
      evaluateFormula (Function.update twiceCells "C1" (some (.formula "C1"))) {} "A1" =
        evaluateFormula twiceCells {} "A1" ∧
      evaluateFormula twiceCells {} "A1" = .ok (.text "xx") := by
  have hlookup : ∀ name, DependsOn twiceCells {} "A1" name →
      crowdedCells name = twiceCells name := by
    intro name hname
    rcases eq_of_dependsOn_twiceCells hname with rfl | rfl <;> rfl
  have hunread : ¬ DependsOn twiceCells {} "A1" "C1" := by
    intro h
    have hname := eq_of_dependsOn_twiceCells h
    simp at hname
  have hvalue : evaluateFormula twiceCells {} "A1" = .ok (.text "xx") := by
    rw [evaluateFormula_eq_retrieve]
    decide +kernel
  exact ⟨(evaluateFormula_congr twiceCells {} "A1").1 crowdedCells hlookup,
    (evaluateFormula_congr twiceCells {} "A1").2 "C1" _ hunread, hvalue⟩

end Spreadsheet
