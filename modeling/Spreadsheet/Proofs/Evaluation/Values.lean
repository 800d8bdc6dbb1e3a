import Spreadsheet.Proofs.Evaluation.Detection

/-!
# The values of cells

A cell without a formula has a value at once. A cell with one has the value that the formula comes
to from the values of the cells that it asks for. Here nothing is remembered, nothing is limited and
no path is followed: a cell on a cycle, or whose formula fails, simply has no value.

An evaluation finds nothing but these values, and it finds them unless it runs out of levels. What
it remembers can spare it levels, so a formula may have a value though one of its cells, evaluated
by itself, is too deep. That is the only way in which a formula can do without an error of its
cells.

## Main results

* `hasValue_of_retrieve`: what the recursion finds is the value of the cell.
* `retrieve_of_hasWithin`: a value is found, with as many levels as it needs.
* `evaluateFormula_error_of_cell`: how the error of a cell appears in a formula.
-/

namespace Spreadsheet

variable {α : Type}

/-- What an inquiry comes to if each of its questions is answered by a value of the cell. -/
def Inquiry.ComesTo (value : String → Value → Prop) : Inquiry α → α → Prop
  | .done r, a => r = .ok a
  | .ask name next, a => ∃ v, value name v ∧ (next v).ComesTo value a

/-- A cell has a value for which at most so many formulas have to be resolved at once. -/
def Environment.HasWithin (env : Environment) (options : Options) : Nat → String → Value → Prop
  | 0, name, v => env.plain? name = some v
  | n + 1, name, v => env.HasWithin options n name v ∨
    ∃ text, env name = some (.formula text) ∧
      (formulaInquiry options text).ComesTo (env.HasWithin options n) v

/-- A cell has a value. -/
def Environment.HasValue (env : Environment) (options : Options) (name : String) (v : Value) :
    Prop :=
  ∃ n, env.HasWithin options n name v

/-! ## A cell has at most one value -/

namespace Inquiry

variable {P Q : String → Value → Prop} {i : Inquiry α} {a b : α}

theorem ComesTo.mono (h : i.ComesTo P a) (hPQ : ∀ name v, P name v → Q name v) :
    i.ComesTo Q a := by
  induction i with
  | done r => exact h
  | ask name next ih =>
    obtain ⟨v, hv, hnext⟩ := h
    exact ⟨v, hPQ name v hv, ih v hnext⟩

theorem ComesTo.unique (hP : ∀ name v w, P name v → P name w → v = w) (h : i.ComesTo P a)
    (h' : i.ComesTo P b) : a = b := by
  induction i with
  | done r =>
    rw [ComesTo] at h h'
    rw [h] at h'
    cases h'
    rfl
  | ask name next ih =>
    obtain ⟨v, hv, hnext⟩ := h
    obtain ⟨w, hw, hnext'⟩ := h'
    rw [← hP name v w hv hw] at hnext'
    exact ih v hnext hnext'

/-- A cell without whose value an inquiry has no result has one if the inquiry comes to a result. -/
theorem ComesTo.exists_of_mustAsk {name : String} (h : i.ComesTo P a) (hname : i.MustAsk name) :
    ∃ v, P name v := by
  induction i with
  | done r =>
    rw [ComesTo] at h
    rw [h] at hname
    exact hname.elim
  | ask other next ih =>
    obtain ⟨v, hv, hnext⟩ := h
    rcases hname with rfl | hlater
    · exact ⟨v, hv⟩
    · exact ih v hnext (hlater v)

end Inquiry

namespace Environment

variable {env : Environment} {options : Options} {n m : Nat} {name text : String} {v w : Value}

theorem HasWithin.mono (h : env.HasWithin options n name v) (hle : n ≤ m) :
    env.HasWithin options m name v := by
  induction hle with
  | refl => exact h
  | step _ ih => exact .inl ih

theorem hasWithin_of_plain (h : env.plain? name = some v) : env.HasWithin options n name v :=
  HasWithin.mono (n := 0) h (Nat.zero_le n)

theorem plain?_eq_none_of_formula (h : env name = some (.formula text)) :
    env.plain? name = none := by
  rw [plain?, h]

/-- A formula cell has the value of its formula, which needs a level less. -/
theorem HasWithin.comesTo (h : env.HasWithin options n name v)
    (henv : env name = some (.formula text)) :
    ∃ k, n = k + 1 ∧ (formulaInquiry options text).ComesTo (env.HasWithin options k) v := by
  induction n with
  | zero =>
    rw [HasWithin, plain?_eq_none_of_formula henv] at h
    cases h
  | succ n ih =>
    refine ⟨n, rfl, ?_⟩
    rcases h with hless | ⟨text', henv', hformula⟩
    · obtain ⟨k, rfl, hformula⟩ := ih hless
      exact hformula.mono fun _ _ hcell => .inl hcell
    · rw [henv] at henv'
      cases henv'
      exact hformula

/-- A cell has no value but its own, if it holds no formula. -/
theorem HasWithin.eq_of_plain (h : env.HasWithin options n name v)
    (hplain : env.plain? name = some w) : v = w := by
  induction n with
  | zero =>
    rw [HasWithin, hplain] at h
    cases h
    rfl
  | succ n ih =>
    rcases h with hless | ⟨text, henv, _⟩
    · exact ih hless
    · rw [plain?_eq_none_of_formula henv] at hplain
      cases hplain

/-- By induction on the levels, since equal answers lead to equal questions. -/
theorem HasWithin.unique (h : env.HasWithin options n name v)
    (h' : env.HasWithin options n name w) : v = w := by
  induction n generalizing name v w with
  | zero => exact h.eq_of_plain h'
  | succ n ih =>
    match henv : env name with
    | none =>
      have hplain : env.plain? name = some .empty := by rw [plain?, henv]
      rw [h.eq_of_plain hplain, h'.eq_of_plain hplain]
    | some (.value u) =>
      have hplain : env.plain? name = some u := by rw [plain?, henv]
      rw [h.eq_of_plain hplain, h'.eq_of_plain hplain]
    | some (.formula text) =>
      obtain ⟨k, hk, hformula⟩ := h.comesTo henv
      obtain ⟨k', hk', hformula'⟩ := h'.comesTo henv
      cases hk
      cases hk'
      have hunique : ∀ cell v w, env.HasWithin options n cell v → env.HasWithin options n cell w →
          v = w := fun _ _ _ hv hw => ih hv hw
      exact hformula.unique hunique hformula'

theorem HasValue.unique (h : env.HasValue options name v) (h' : env.HasValue options name w) :
    v = w := by
  obtain ⟨n, hn⟩ := h
  obtain ⟨m, hm⟩ := h'
  exact (hn.mono (Nat.le_max_left n m)).unique (hm.mono (Nat.le_max_right n m))

/-- A formula that comes to a value from cells that have values needs finitely many levels. -/
theorem exists_comesTo {i : Inquiry α} {a : α} (h : i.ComesTo (env.HasValue options) a) :
    ∃ n, i.ComesTo (env.HasWithin options n) a := by
  induction i with
  | done r => exact ⟨0, h⟩
  | ask name next ih =>
    obtain ⟨v, ⟨n, hv⟩, hnext⟩ := h
    obtain ⟨m, hm⟩ := ih v hnext
    exact ⟨max n m, v, hv.mono (Nat.le_max_left n m),
      hm.mono fun _ _ hcell => hcell.mono (Nat.le_max_right n m)⟩

/-- The limit on chains of references has no part in which values cells have. -/
theorem hasWithin_maxReferences (env : Environment) (options : Options) (limit n : Nat) :
    env.HasWithin { options with maxReferences := limit } n = env.HasWithin options n := by
  have hformula : ∀ text, formulaInquiry { options with maxReferences := limit } text =
      formulaInquiry options text := fun text => formulaInquiry_congr (by rfl) (by rfl) text
  induction n with
  | zero => rfl
  | succ n ih =>
    funext name v
    rw [HasWithin, HasWithin, ih]
    simp only [hformula]

end Environment

namespace Evaluation

variable {env : Environment} {options : Options} {memory later : Memory} {n levels : Nat}
  {path : List String} {name : String} {v : Value}

/-! ## An evaluation finds only values of cells -/

/-- Only values of cells are remembered. -/
def Valued (env : Environment) (options : Options) (memory : Memory) : Prop :=
  ∀ (name : String) (v : Value), memory[name]? = some v → env.HasValue options name v

theorem valued_empty : Valued env options ∅ := fun name v h => by
  rw [Std.TreeMap.getElem?_emptyc] at h
  cases h

theorem Valued.insert (h : Valued env options memory) (hv : env.HasValue options name v) :
    Valued env options (memory.insert name v) := by
  intro other w hother
  by_cases heq : name = other
  · subst heq
    rw [Std.TreeMap.getElem?_insert_self] at hother
    cases hother
    exact hv
  · rw [Std.TreeMap.getElem?_insert, if_neg (by simpa using heq)] at hother
    exact h other w hother

theorem Settled.hasValue (h : Settled env memory name v) (hmemory : Valued env options memory) :
    env.HasValue options name v := by
  rcases h with hremembered | ⟨_, hplain⟩
  · exact hmemory name v hremembered
  · exact ⟨0, hplain⟩

/-- Whatever is loaded is the value of the cell, and so is what is remembered afterwards. -/
def LoadsValues (env : Environment) (options : Options) (load : Loader) : Prop :=
  ∀ (name : String) (v : Value) (memory later : Memory), Valued env options memory →
    load name memory = .ok (v, later) → env.HasValue options name v ∧ Valued env options later

theorem LoadsValues.run {load : Loader} (h : LoadsValues env options load) (i : Inquiry α) {a : α}
    (hmemory : Valued env options memory) (hrun : i.run load memory = .ok (a, later)) :
    i.ComesTo (env.HasValue options) a ∧ Valued env options later := by
  induction i generalizing memory with
  | done r =>
    cases r with
    | error e => cases hrun
    | ok b =>
      cases hrun
      exact ⟨rfl, hmemory⟩
  | ask first next ih =>
    obtain ⟨v, between, hload, hnext⟩ := Inquiry.run_ask_eq_ok hrun
    obtain ⟨hv, hbetween⟩ := h first v memory between hmemory hload
    obtain ⟨hothers, hlater⟩ := ih v hbetween hnext
    exact ⟨⟨v, hv, hothers⟩, hlater⟩

/-- What the recursion finds is the value of the cell; by induction on the levels. -/
theorem hasValue_of_retrieve (levels : Nat) (path : List String) :
    LoadsValues env options (retrieve env options levels path) := by
  induction levels generalizing path with
  | zero =>
    intro name v memory later hmemory hload
    cases loads_of_retrieve hload with
    | settled hsettled => exact ⟨hsettled.hasValue hmemory, hmemory⟩
  | succ levels ih =>
    intro name v memory later hmemory hload
    cases loads_of_retrieve hload with
    | settled hsettled => exact ⟨hsettled.hasValue hmemory, hmemory⟩
    | @resolved _ text _ between hopen _ hrun =>
      obtain ⟨hformula, hbetween⟩ := (ih (name :: path)).run _ hmemory hrun
      obtain ⟨n, hn⟩ := Environment.exists_comesTo hformula
      have hname : env.HasValue options name v := ⟨n + 1, .inr ⟨text, hopen.formula, hn⟩⟩
      exact ⟨hname, hbetween.insert hname⟩

/-! ## A value is found if there are levels enough -/

/-- A result is found, unless there are fewer levels than it needs and the chain of references is
too deep. -/
def FoundWithin (options : Options) (n levels : Nat) (a : α)
    (r : Except FormulaError (α × Memory)) : Prop :=
  (∃ later, r = .ok (a, later)) ∨ levels < n ∧ TooDeep options r

theorem foundWithin_run {load : Loader} (hvalues : LoadsValues env options load)
    (hload : ∀ (name : String) (v : Value) (memory : Memory), env.HasWithin options n name v →
      Valued env options memory → FoundWithin options n levels v (load name memory))
    (i : Inquiry α) {a : α} (hi : i.ComesTo (env.HasWithin options n) a)
    (hmemory : Valued env options memory) :
    FoundWithin options n levels a (i.run load memory) := by
  induction i generalizing memory with
  | done r =>
    rw [Inquiry.ComesTo] at hi
    rw [hi]
    exact .inl ⟨memory, rfl⟩
  | ask name next ih =>
    obtain ⟨v, hv, hnext⟩ := hi
    rw [Inquiry.run_ask]
    rcases hload name v memory hv hmemory with ⟨between, hfound⟩ | ⟨hless, cell, hdeep⟩
    · obtain ⟨_, hbetween⟩ := hvalues name v memory between hmemory hfound
      rw [hfound]
      exact ih v hnext hbetween
    · rw [hdeep]
      exact .inr ⟨hless, cell, rfl⟩

/-- A value is found by the recursion, with as many levels as it needs. The cells on the path must
not have values within these levels; so none of them is met again. By induction on the levels that
the value needs: a cell that does not need all of them is resolved as one that needs one less, and
any other goes onto the path. -/
theorem retrieve_of_hasWithin (hv : env.HasWithin options n name v)
    (hmemory : Valued env options memory)
    (hpath : ∀ cell ∈ path, ∀ w, ¬ env.HasWithin options n cell w) :
    FoundWithin options n levels v (retrieve env options levels path name memory) := by
  induction n generalizing levels path name v memory with
  | zero =>
    exact .inl ⟨memory, retrieve_of_settled (by
      cases hremembered : memory[name]? with
      | none => exact .inr ⟨hremembered, hv⟩
      | some w =>
        rw [(hmemory name w hremembered).unique ⟨0, hv⟩] at hremembered
        exact .inl hremembered)⟩
  | succ n ih =>
    rcases settled_or_unresolved env memory name with ⟨w, hsettled⟩ | ⟨text, hopen⟩
    · rw [retrieve_of_settled hsettled, (hsettled.hasValue hmemory).unique ⟨n + 1, hv⟩]
      exact .inl ⟨memory, rfl⟩
    by_cases hless : env.HasWithin options n name v
    · have hfewer : ∀ cell ∈ path, ∀ w, ¬ env.HasWithin options n cell w :=
        fun cell hcell w hw => hpath cell hcell w (hw.mono (Nat.le_succ n))
      exact (ih hless hmemory hfewer).imp id fun hdeep => ⟨by omega, hdeep.2⟩
    have hname : options.detectCycles = true → name ∉ path := fun _ hmem => hpath name hmem v hv
    obtain ⟨k, hk, hformula⟩ := hv.comesTo hopen.formula
    cases hk
    cases levels with
    | zero => exact .inr ⟨by omega, name, retrieve_zero_of_unresolved hopen hname⟩
    | succ levels =>
      have hnext : ∀ cell ∈ name :: path, ∀ w, ¬ env.HasWithin options n cell w := by
        intro cell hcell w hw
        rcases List.mem_cons.1 hcell with rfl | hmem
        · rw [(hw.mono (Nat.le_succ n)).unique hv] at hw
          exact hless hw
        · exact hpath cell hmem w (hw.mono (Nat.le_succ n))
      rw [retrieve_succ_of_unresolved hopen hname]
      rcases foundWithin_run (hasValue_of_retrieve levels (name :: path))
          (fun _ _ _ hcell hbefore => ih hcell hbefore hnext) _ hformula hmemory with
        ⟨between, hfound⟩ | ⟨hdeeper, cell, hdeep⟩
      · rw [hfound]
        exact .inl ⟨between.insert name v, rfl⟩
      · rw [hdeep]
        exact .inr ⟨by omega, cell, rfl⟩

/-- A cell that has a value is evaluated to it, unless that needs more levels than there are. -/
theorem evaluateCell_of_hasWithin {cell : String}
    (hv : env.HasWithin options n (canonicalName cell) v) :
    evaluateCell env options cell = .ok v ∨
      options.maxReferences < n ∧ TooDeep options (evaluateCell env options cell) := by
  have hnone : ∀ other ∈ ([] : List String), ∀ w, ¬ env.HasWithin options n other w :=
    fun _ hmem => by cases hmem
  rw [evaluateCell_eq_retrieve]
  rcases retrieve_of_hasWithin hv valued_empty hnone with ⟨later, hfound⟩ | ⟨hless, other, hdeep⟩
  · rw [hfound]
    exact .inl rfl
  · rw [hdeep]
    exact .inr ⟨hless, other, rfl⟩

/-- The cells that a formula mentions have values if it has one. -/
theorem hasValue_of_evaluateFormula {text : String} {w : Value}
    (h : evaluateFormula env options text = .ok w) (hname : Mentioned options text name) :
    ∃ v, env.HasValue options name v := by
  obtain ⟨later, hrun⟩ := run_of_evaluateFormula_eq_ok h
  obtain ⟨hformula, _⟩ :=
    (hasValue_of_retrieve options.maxReferences []).run _ valued_empty hrun
  exact hformula.exists_of_mustAsk (mustAsk_of_mentioned hname)

end Evaluation

open Evaluation

/-- If a cell that a formula mentions fails, the formula fails too, with one exception: the cell has
a value, and fails only because more formula cells have to be resolved at once than the limit
allows. -/
theorem evaluateFormula_error_of_cell (env : Environment) (options : Options) (text cell : String)
    (e : FormulaError) (hcell : Mentioned options text (canonicalName cell))
    (hfail : evaluateCell env options cell = .error e) :
    (∃ e', evaluateFormula env options text = .error e') ∨
      (∃ name, e = .evaluation (.chainTooDeep name options.maxReferences)) ∧
        ∃ v limit, ∀ n, limit ≤ n →
          evaluateCell env { options with maxReferences := n } cell = .ok v := by
  cases hformula : evaluateFormula env options text with
  | error e' => exact .inl ⟨e', rfl⟩
  | ok w =>
    obtain ⟨v, limit, hv⟩ := hasValue_of_evaluateFormula hformula hcell
    refine .inr ⟨?_, v, limit, fun n hn => ?_⟩
    · rcases evaluateCell_of_hasWithin hv with hfound | ⟨_, name, hdeep⟩
      · rw [hfound] at hfail
        cases hfail
      · rw [hdeep] at hfail
        cases hfail
        exact ⟨name, rfl⟩
    · rw [← Environment.hasWithin_maxReferences env options n limit] at hv
      rcases evaluateCell_of_hasWithin hv with hfound | ⟨hless, _⟩
      · exact hfound
      · exact absurd hless (by dsimp only; omega)

/-- A formula cell that refers to one whose formula fails. -/
def faultyCells : Environment
  | "A1" => some (.formula "B1")
  | "B1" => some (.formula "ABS(\"x\")")
  | _ => none

/-- A condition does not keep the error of the branch that is not chosen from the formula. -/
theorem evaluateFormula_faultyCells :
    Mentioned {} "IF(TRUE, \"y\", A1)" (canonicalName "A1") ∧
      evaluateCell faultyCells {} "A1" = .error (.typeMismatch "ABS" "text \"x\"") ∧
      ∃ e, evaluateFormula faultyCells {} "IF(TRUE, \"y\", A1)" = .error e := by
  have hparse : Expr.ofFormula "IF(TRUE, \"y\", A1)" defaultNesting =
      .ok (.apply (.builtin .choose)
        [.constant (.boolean true), .constant (.text "y"), .reference "A1"]) := by
    decide +kernel
  have hmentioned : Mentioned {} "IF(TRUE, \"y\", A1)" (canonicalName "A1") :=
    ⟨_, hparse, .operand (by decide) (by simp) (.reference "A1")⟩
  have hfail : evaluateCell faultyCells {} "A1" = .error (.typeMismatch "ABS" "text \"x\"") := by
    rw [evaluateCell_eq_retrieve]
    decide +kernel
  refine ⟨hmentioned, hfail, ?_⟩
  rcases evaluateFormula_error_of_cell faultyCells {} _ "A1" _ hmentioned hfail with
    herror | ⟨⟨name, hdeep⟩, _⟩
  · exact herror
  · cases hdeep

/-- A chain of three formula cells. -/
def chainCells : Environment
  | "A1" => some (.formula "B1")
  | "B1" => some (.formula "C1")
  | "C1" => some (.formula "\"x\"")
  | _ => none

/-- A formula that names the cells of a chain from its end on has a value, though the cell at the
front of the chain, evaluated by itself, is too deep for the same limit. -/
theorem exists_value_of_failing_chainCells :
    Mentioned { maxReferences := 2 } "C1 & B1 & A1" (canonicalName "A1") ∧
      evaluateCell chainCells { maxReferences := 2 } "A1" =
        .error (.evaluation (.chainTooDeep "C1" 2)) ∧
      evaluateFormula chainCells { maxReferences := 2 } "C1 & B1 & A1" = .ok (.text "xxx") := by
  have hparse : Expr.ofFormula "C1 & B1 & A1" defaultNesting =
      .ok (.operator .concat
        [.operator .concat [.reference "C1", .reference "B1"], .reference "A1"]) := by
    with_unfolding_all rfl
  refine ⟨⟨_, hparse, .operand (by decide) (by simp) (.reference "A1")⟩, ?_, ?_⟩
  · rw [evaluateCell_eq_retrieve]
    decide +kernel
  · rw [evaluateFormula_eq_retrieve]
    decide +kernel

end Spreadsheet
