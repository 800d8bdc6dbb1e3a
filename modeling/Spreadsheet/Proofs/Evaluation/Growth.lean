import Spreadsheet.Proofs.Evaluation.Retrieval

/-!
# How the memory grows

Loading a cell leaves the cell settled. On the way formula cells are remembered, but if cycles are
looked for, none of those that are still being resolved: these stay fresh until their own formula
has a value.

## Main results

* `Settled.of_grows`: a settled cell stays settled.
* `settles_retrieve`: loading a cell settles it and keeps the path fresh.
-/

namespace Spreadsheet.Evaluation

variable {env : Environment} {options : Options} {α : Type} {memory later : Memory}
  {path : List String} {name text : String} {v : Value}

/-! ## Fresh paths -/

/-- The cells on a path hold formulas whose values are not remembered. -/
def Fresh (env : Environment) (memory : Memory) (path : List String) : Prop :=
  ∀ name ∈ path, ∃ text, Unresolved env memory name text

theorem fresh_nil (memory : Memory) : Fresh env memory [] := fun _ h => by cases h

theorem Fresh.cons (h : Fresh env memory path) (hname : Unresolved env memory name text) :
    Fresh env memory (name :: path) := by
  intro other hother
  rcases List.mem_cons.1 hother with rfl | hmem
  · exact ⟨text, hname⟩
  · exact h other hmem

theorem Fresh.tail (h : Fresh env memory (name :: path)) : Fresh env memory path :=
  fun other hother => h other (List.mem_cons_of_mem name hother)

/-- A cell that was on the path stays unresolved. -/
theorem Fresh.head (h : Fresh env later (name :: path)) (hopen : Unresolved env memory name text) :
    Unresolved env later name text := by
  obtain ⟨other, hother⟩ := h name (List.mem_cons_self ..)
  exact ⟨hother.fresh, hopen.formula⟩

theorem Fresh.of_within (h : Fresh env later path) (hwithin : Within memory later) :
    Fresh env memory path := fun name hname => by
  obtain ⟨text, hopen⟩ := h name hname
  exact ⟨text, hwithin.fresh hopen.fresh, hopen.formula⟩

/-- Remembering a cell that is not on the path keeps the path fresh. -/
theorem Fresh.insert (h : Fresh env memory path) (hname : name ∉ path) (v : Value) :
    Fresh env (memory.insert name v) path := by
  intro other hother
  have hne : name ≠ other := fun heq => hname (heq ▸ hother)
  obtain ⟨text, hopen⟩ := h other hother
  refine ⟨text, ?_, hopen.formula⟩
  rw [Std.TreeMap.getElem?_insert, if_neg (by simpa using hne)]
  exact hopen.fresh

/-- A cell cannot be settled and unresolved. -/
theorem Settled.not_unresolved (h : Settled env memory name v) :
    ¬ Unresolved env memory name text := by
  intro hopen
  rcases h with hmemory | ⟨_, hplain⟩
  · rw [hopen.fresh] at hmemory
    cases hmemory
  · rcases Environment.plain?_eq_some.1 hplain with ⟨henv, _⟩ | henv
    · rw [hopen.formula] at henv
      cases henv
    · rw [hopen.formula] at henv
      cases henv

/-- A settled cell is not on a fresh path. -/
theorem Fresh.not_mem (h : Fresh env memory path) (hname : Settled env memory name v) :
    name ∉ path := by
  intro hmem
  obtain ⟨text, hopen⟩ := h name hmem
  exact hname.not_unresolved hopen

/-! ## Growing memories -/

/-- A memory that holds everything another one held, and some more formula cells. -/
structure Grows (env : Environment) (memory later : Memory) : Prop where
  within : Within memory later
  formula : ∀ (name : String) (v : Value), memory[name]? = none → later[name]? = some v →
    ∃ text, env name = some (.formula text)

theorem Grows.refl (memory : Memory) : Grows env memory memory where
  within := Within.refl memory
  formula name v hnone hsome := by
    rw [hnone] at hsome
    cases hsome

theorem Grows.trans {first second third : Memory} (h : Grows env first second)
    (h' : Grows env second third) : Grows env first third where
  within := h.within.trans h'.within
  formula name v hfirst hthird := by
    cases hsecond : second[name]? with
    | none => exact h'.formula name v hsecond hthird
    | some w => exact h.formula name w hfirst hsecond

theorem grows_insert (hopen : Unresolved env memory name text) (v : Value) :
    Grows env memory (memory.insert name v) where
  within := within_insert hopen.fresh v
  formula other w hnone hsome := by
    by_cases heq : name = other
    · exact ⟨text, heq ▸ hopen.formula⟩
    · rw [Std.TreeMap.getElem?_insert, if_neg (by simpa using heq), hnone] at hsome
      cases hsome

/-- A settled cell stays settled: only formula cells are remembered. -/
theorem Settled.of_grows (h : Settled env memory name v) (hgrows : Grows env memory later) :
    Settled env later name v := by
  rcases h with hmemory | ⟨hmemory, hplain⟩
  · exact .inl (hgrows.within name v hmemory)
  · cases hlater : later[name]? with
    | none => exact .inr ⟨hlater, hplain⟩
    | some w =>
      obtain ⟨text, hformula⟩ := hgrows.formula name w hmemory hlater
      have hopen : Unresolved env memory name text := ⟨hmemory, hformula⟩
      exact absurd hopen (Settled.not_unresolved (.inr ⟨hmemory, hplain⟩))

/-! ## Loading -/

/-- On a path, loading a cell settles it; the memory grows and the path stays fresh. -/
def Settles (env : Environment) (path : List String) (load : Loader) : Prop :=
  ∀ (name : String) (v : Value) (memory later : Memory), Fresh env memory path →
    load name memory = .ok (v, later) →
    Grows env memory later ∧ Fresh env later path ∧ Settled env later name v

theorem Settles.run {load : Loader} (h : Settles env path load) (i : Inquiry α) {a : α}
    (hfresh : Fresh env memory path) (hrun : i.run load memory = .ok (a, later)) :
    Grows env memory later ∧ Fresh env later path := by
  induction i generalizing memory with
  | done r =>
    cases r with
    | error e => cases hrun
    | ok b =>
      cases hrun
      exact ⟨Grows.refl _, hfresh⟩
  | ask name next ih =>
    obtain ⟨v, between, hload, hnext⟩ := Inquiry.run_ask_eq_ok hrun
    obtain ⟨hgrows, hbetween, _⟩ := h name v memory between hfresh hload
    obtain ⟨hgrows', hlater⟩ := ih v hbetween hnext
    exact ⟨hgrows.trans hgrows', hlater⟩

/-- Loading a cell settles it and keeps the path fresh; by induction on the levels, since a formula
is evaluated with its cell on the path, and only then remembered. -/
theorem settles_retrieve (detect : options.detectCycles = true) (levels : Nat)
    (path : List String) : Settles env path (retrieve env options levels path) := by
  induction levels generalizing path with
  | zero =>
    intro name v memory later hfresh hload
    cases loads_of_retrieve hload with
    | settled hsettled => exact ⟨Grows.refl _, hfresh, hsettled⟩
  | succ levels ih =>
    intro name v memory later hfresh hload
    cases loads_of_retrieve hload with
    | settled hsettled => exact ⟨Grows.refl _, hfresh, hsettled⟩
    | resolved hopen hpath hrun =>
      obtain ⟨hgrows, hbetween⟩ := (ih (name :: path)).run _ (hfresh.cons hopen) hrun
      have hinsert := grows_insert (hbetween.head hopen) v
      exact ⟨hgrows.trans hinsert, hbetween.tail.insert (hpath detect) v,
        .inl Std.TreeMap.getElem?_insert_self⟩

end Spreadsheet.Evaluation
