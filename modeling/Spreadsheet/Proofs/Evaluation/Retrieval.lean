import Spreadsheet.Proofs.Evaluation.Compiled

/-!
# Evaluation by recursion with a memory

A formula cell is resolved by evaluating its formula, whose references are resolved in the same way,
one level deeper and with one more cell on the path that led there. What has been resolved once is
remembered and not evaluated again.

## Main results

* `settled_or_unresolved`: a cell has a value at once, or it holds a formula to be evaluated.
* `loads_of_retrieve`, `failsToLoad_of_retrieve`: all that the recursion can do.
-/

namespace Spreadsheet

/-- The value that a cell has without any formula. -/
def Environment.plain? (env : Environment) (name : String) : Option Value :=
  match env name with
  | none => some .empty
  | some (.value v) => some v
  | some (.formula _) => none

theorem Environment.plain?_eq_some {env : Environment} {name : String} {v : Value} :
    env.plain? name = some v ↔ env name = none ∧ v = .empty ∨ env name = some (.value v) := by
  unfold plain?
  split <;> simp_all [eq_comm]

/-- The value of a formula text as an inquiry. -/
def formulaInquiry (options : Options) (text : String) : Inquiry Value := do
  let e ← .done (Expr.ofFormula text options.maxNesting)
  e.checkedInquiry options

namespace Evaluation

/-- The value of a cell that needs no evaluation, else what `resolve` makes of its formula. -/
def load (env : Environment) (resolve : String → Loader) : Loader := fun name memory =>
  match memory[name]? with
  | some v => .ok (v, memory)
  | none =>
    match env name with
    | none => .ok (.empty, memory)
    | some (.value v) => .ok (v, memory)
    | some (.formula text) => resolve text name memory

/-- The value of a cell, where `levels` more formula cells may be resolved at once and those on the
`path` are being resolved. -/
def retrieve (env : Environment) (options : Options) : Nat → List String → Loader
  | 0, path => load env fun _ name _ =>
    if options.detectCycles && path.contains name then .error (.circularReference name)
    else .error (.evaluation (.chainTooDeep name options.maxReferences))
  | levels + 1, path => load env fun text name memory =>
    if options.detectCycles && path.contains name then .error (.circularReference name)
    else do
      let (v, memory) ←
        (formulaInquiry options text).run (retrieve env options levels (name :: path)) memory
      return (v, memory.insert name v)

/-! ## Settled and unresolved cells -/

variable {env : Environment} {options : Options} {memory : Memory} {name text : String} {v : Value}

/-- A cell whose value is known without evaluating a formula. -/
def Settled (env : Environment) (memory : Memory) (name : String) (v : Value) : Prop :=
  memory[name]? = some v ∨ memory[name]? = none ∧ env.plain? name = some v

/-- A cell whose formula has not been evaluated. -/
structure Unresolved (env : Environment) (memory : Memory) (name text : String) : Prop where
  fresh : memory[name]? = none
  formula : env name = some (.formula text)

theorem settled_or_unresolved (env : Environment) (memory : Memory) (name : String) :
    (∃ v, Settled env memory name v) ∨ ∃ text, Unresolved env memory name text := by
  cases hmemory : memory[name]? with
  | some v => exact .inl ⟨v, .inl hmemory⟩
  | none =>
    match henv : env name with
    | none => exact .inl ⟨.empty, .inr ⟨hmemory, by simp [Environment.plain?, henv]⟩⟩
    | some (.value v) => exact .inl ⟨v, .inr ⟨hmemory, by simp [Environment.plain?, henv]⟩⟩
    | some (.formula text) => exact .inr ⟨text, hmemory, henv⟩

theorem load_of_settled {resolve : String → Loader} (h : Settled env memory name v) :
    load env resolve name memory = .ok (v, memory) := by
  unfold load
  rcases h with hmemory | ⟨hmemory, hplain⟩
  · rw [hmemory]
  · rw [hmemory]
    rcases Environment.plain?_eq_some.1 hplain with ⟨henv, rfl⟩ | henv
    · rw [henv]
    · rw [henv]

theorem load_of_unresolved {resolve : String → Loader} (h : Unresolved env memory name text) :
    load env resolve name memory = resolve text name memory := by
  simp [load, h.fresh, h.formula]

theorem retrieve_of_settled {levels : Nat} {path : List String} (h : Settled env memory name v) :
    retrieve env options levels path name memory = .ok (v, memory) := by
  cases levels <;> exact load_of_settled h

/-- A formula cell on the path is reported, if cycles are to be found. -/
theorem retrieve_of_mem_path {levels : Nat} {path : List String}
    (detect : options.detectCycles = true) (h : Unresolved env memory name text)
    (hpath : name ∈ path) :
    retrieve env options levels path name memory = .error (.circularReference name) := by
  cases levels <;>
    exact (load_of_unresolved h).trans (if_pos (by simp [detect, hpath]))

/-- Beyond the last level there is no room for a further formula cell. -/
theorem retrieve_zero_of_unresolved {path : List String} (h : Unresolved env memory name text)
    (hpath : options.detectCycles = true → name ∉ path) :
    retrieve env options 0 path name memory =
      .error (.evaluation (.chainTooDeep name options.maxReferences)) :=
  (load_of_unresolved h).trans (if_neg (by simpa using hpath))

/-- A formula cell that is not on the path is resolved one level deeper. -/
theorem retrieve_succ_of_unresolved {levels : Nat} {path : List String}
    (h : Unresolved env memory name text) (hpath : options.detectCycles = true → name ∉ path) :
    retrieve env options (levels + 1) path name memory =
      (formulaInquiry options text).run (retrieve env options levels (name :: path)) memory >>=
        fun p => .ok (p.1, p.2.insert name p.1) :=
  (load_of_unresolved h).trans (if_neg (by simpa using hpath))

/-! ## What is remembered -/

/-- Everything that one memory holds, another holds too. -/
def Within (memory later : Memory) : Prop :=
  ∀ (name : String) (v : Value), memory[name]? = some v → later[name]? = some v

theorem Within.refl (memory : Memory) : Within memory memory := fun _ _ h => h

theorem Within.trans {first second third : Memory} (h : Within first second)
    (h' : Within second third) : Within first third :=
  fun name v hfirst => h' name v (h name v hfirst)

/-- What a later memory does not hold, an earlier one did not hold. -/
theorem Within.fresh {later : Memory} (h : Within memory later) (hname : later[name]? = none) :
    memory[name]? = none := by
  cases hmemory : memory[name]? with
  | none => rfl
  | some v => rw [h name v hmemory] at hname; cases hname

theorem within_insert (hname : memory[name]? = none) (v : Value) :
    Within memory (memory.insert name v) := by
  intro other w hother
  rw [Std.TreeMap.getElem?_insert, if_neg]
  · exact hother
  · intro hcompare
    rw [Std.LawfulEqCmp.compare_eq_iff_eq.1 hcompare, hother] at hname
    cases hname

/-! ## The ways in which a cell is loaded -/

/-- How loading a cell succeeds: at once, or by resolving its formula one level deeper. -/
inductive Loads (env : Environment) (options : Options) (path : List String) (name : String)
    (memory : Memory) : Nat → Value × Memory → Prop
  | settled {levels : Nat} {v : Value} (h : Settled env memory name v) :
    Loads env options path name memory levels (v, memory)
  | resolved {levels : Nat} {text : String} {v : Value} {between : Memory}
    (h : Unresolved env memory name text) (hpath : options.detectCycles = true → name ∉ path)
    (hrun : (formulaInquiry options text).run (retrieve env options levels (name :: path)) memory =
      .ok (v, between)) :
    Loads env options path name memory (levels + 1) (v, between.insert name v)

/-- How loading a cell fails: it is on the path, it is too deep, or its formula fails. -/
inductive FailsToLoad (env : Environment) (options : Options) (path : List String) (name : String)
    (memory : Memory) : Nat → FormulaError → Prop
  | cycle {levels : Nat} {text : String} (h : Unresolved env memory name text)
    (detect : options.detectCycles = true) (hpath : name ∈ path) :
    FailsToLoad env options path name memory levels (.circularReference name)
  | tooDeep {text : String} (h : Unresolved env memory name text)
    (hpath : options.detectCycles = true → name ∉ path) :
    FailsToLoad env options path name memory 0
      (.evaluation (.chainTooDeep name options.maxReferences))
  | within {levels : Nat} {text : String} {e : FormulaError} (h : Unresolved env memory name text)
    (hpath : options.detectCycles = true → name ∉ path)
    (hrun : (formulaInquiry options text).run (retrieve env options levels (name :: path)) memory =
      .error e) :
    FailsToLoad env options path name memory (levels + 1) e

theorem loads_of_retrieve {levels : Nat} {path : List String} {p : Value × Memory}
    (h : retrieve env options levels path name memory = .ok p) :
    Loads env options path name memory levels p := by
  rcases settled_or_unresolved env memory name with ⟨v, hsettled⟩ | ⟨text, hopen⟩
  · rw [retrieve_of_settled hsettled] at h
    cases h
    exact .settled hsettled
  by_cases hcycle : options.detectCycles = true ∧ name ∈ path
  · rw [retrieve_of_mem_path hcycle.1 hopen hcycle.2] at h
    cases h
  have hpath : options.detectCycles = true → name ∉ path :=
    fun detect hmem => hcycle ⟨detect, hmem⟩
  cases levels with
  | zero =>
    rw [retrieve_zero_of_unresolved hopen hpath] at h
    cases h
  | succ levels =>
    rw [retrieve_succ_of_unresolved hopen hpath] at h
    cases hrun : (formulaInquiry options text).run (retrieve env options levels (name :: path))
        memory with
    | error e => rw [hrun] at h; cases h
    | ok q =>
      rw [hrun] at h
      cases h
      exact .resolved hopen hpath hrun

theorem failsToLoad_of_retrieve {levels : Nat} {path : List String} {e : FormulaError}
    (h : retrieve env options levels path name memory = .error e) :
    FailsToLoad env options path name memory levels e := by
  rcases settled_or_unresolved env memory name with ⟨v, hsettled⟩ | ⟨text, hopen⟩
  · rw [retrieve_of_settled hsettled] at h
    cases h
  by_cases hcycle : options.detectCycles = true ∧ name ∈ path
  · rw [retrieve_of_mem_path hcycle.1 hopen hcycle.2] at h
    cases h
    exact .cycle hopen hcycle.1 hcycle.2
  have hpath : options.detectCycles = true → name ∉ path :=
    fun detect hmem => hcycle ⟨detect, hmem⟩
  cases levels with
  | zero =>
    rw [retrieve_zero_of_unresolved hopen hpath] at h
    cases h
    exact .tooDeep hopen hpath
  | succ levels =>
    rw [retrieve_succ_of_unresolved hopen hpath] at h
    cases hrun : (formulaInquiry options text).run (retrieve env options levels (name :: path))
        memory with
    | error e => rw [hrun] at h; cases h; exact .within hopen hpath hrun
    | ok q => rw [hrun] at h; cases h

end Evaluation

end Spreadsheet
