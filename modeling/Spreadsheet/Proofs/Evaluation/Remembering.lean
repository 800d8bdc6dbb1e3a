import Spreadsheet.Proofs.Evaluation.Forgetful
import Spreadsheet.Proofs.Evaluation.Growth
import Mathlib.Data.Finset.Card

/-!
# Remembering changes no value and no error

The machine evaluates each formula cell at most once and reads its value from a memory after that.
A forgetful evaluation meets the same cell on other paths. Both agree, because a cell that has been
resolved leads only to cells that have been resolved, and none of those lies on a path that is still
being followed.

## Main results

* `faithful_retrieve`: a value that the recursion with a memory finds is found without it, from
  every path of cells that are not remembered.
* `cellValue_of_retrieve_error`: so is an error, as long as there is room for all formula cells.
* `evaluate_eq_forgetful`: the machine gives the value or the error of the forgetful evaluation.
-/

namespace Spreadsheet.Forgetful

open Recursion (ended)
open Environment (formulaValue cellValue)
open Evaluation

variable {env : Environment} {options : Options} {α : Type}

/-! ## Values -/

/-- What is remembered is what a forgetful evaluation gives, from any path of cells that are not
remembered. -/
def Sound (env : Environment) (options : Options) (memory : Memory) : Prop :=
  ∀ (name : String) (v : Value), memory[name]? = some v →
    ∀ path, Fresh env memory path → cellValue env options path name = ended (.ok v)

theorem sound_empty : Sound env options ∅ := fun name v h => by
  rw [Std.TreeMap.getElem?_emptyc] at h
  cases h

/-- What holds after a success with a memory: the memory is still sound, and a forgetful evaluation
succeeds alike from every path that avoids the memory. -/
structure Agrees (env : Environment) (options : Options) (later : Memory)
    (forgetful : List String → Recursion α) (a : α) : Prop where
  sound : Sound env options later
  same : ∀ other, Fresh env later other → forgetful other = ended (.ok a)

/-- On a path, whatever is loaded agrees with the forgetful evaluation. -/
def Faithful (env : Environment) (options : Options) (path : List String) (load : Loader) : Prop :=
  ∀ (name : String) (v : Value) (memory later : Memory), Sound env options memory →
    Fresh env memory path → load name memory = .ok (v, later) →
    Agrees env options later (fun other => cellValue env options other name) v

theorem agrees_of_settled {memory : Memory} {name : String} {v : Value}
    (hsound : Sound env options memory) (h : Settled env memory name v) :
    Agrees env options memory (fun other => cellValue env options other name) v where
  sound := hsound
  same other hother := by
    rcases h with hmemory | ⟨hmemory, hplain⟩
    · exact hsound name v hmemory other hother
    · exact cellValue_of_plain (hother.not_mem (.inr ⟨hmemory, hplain⟩)) hplain

/-- Answers that agree one by one agree as a whole. -/
theorem agrees_run {path : List String} {load : Loader} (hsettles : Settles env path load)
    (h : Faithful env options path load) (i : Inquiry α) {memory later : Memory} {a : α}
    (hsound : Sound env options memory) (hfresh : Fresh env memory path)
    (hrun : i.run load memory = .ok (a, later)) :
    Agrees env options later (fun other => answer (cellValue env options other) i) a := by
  induction i generalizing memory with
  | done r =>
    cases r with
    | error e => cases hrun
    | ok b =>
      cases hrun
      exact ⟨hsound, fun _ _ => rfl⟩
  | ask name next ih =>
    obtain ⟨v, between, hload, hnext⟩ := Inquiry.run_ask_eq_ok hrun
    obtain ⟨_, hbetween, _⟩ := hsettles name v memory between hfresh hload
    obtain ⟨hgrows, _⟩ := hsettles.run (next v) hbetween hnext
    have hfirst := h name v memory between hsound hfresh hload
    have hrest := ih v hfirst.sound hbetween hnext
    refine ⟨hrest.sound, fun other hother => ?_⟩
    have hname := hfirst.same other (hother.of_within hgrows.within)
    rw [answer, hname, Recursion.ended_ok_bind]
    exact hrest.same other hother

/-- A cell whose formula agrees, with the cell on the path, agrees once it is remembered. -/
theorem agrees_insert {between : Memory} {name text : String} {v : Value}
    (hopen : Unresolved env between name text)
    (h : Agrees env options between
      (fun other => answer (cellValue env options other) (formulaInquiry options text)) v) :
    Agrees env options (between.insert name v)
      (fun other => cellValue env options other name) v := by
  have hgrown : Within between (between.insert name v) := within_insert hopen.fresh v
  have hsettled : Settled env (between.insert name v) name v :=
    .inl Std.TreeMap.getElem?_insert_self
  have hsame : ∀ other, Fresh env (between.insert name v) other →
      cellValue env options other name = ended (.ok v) := by
    intro other hother
    rw [cellValue_of_formula (hother.not_mem hsettled) hopen.formula]
    exact h.same _ ((hother.of_within hgrown).cons hopen)
  refine ⟨fun other w hother => ?_, hsame⟩
  by_cases hname : name = other
  · subst hname
    rw [Std.TreeMap.getElem?_insert_self] at hother
    cases hother
    exact hsame
  · rw [Std.TreeMap.getElem?_insert, if_neg (by simpa using hname)] at hother
    exact fun other' hother' => h.sound other w hother other' (hother'.of_within hgrown)

/-- Whatever the recursion with a memory finds agrees with the forgetful evaluation; by induction on
the levels, since a formula is evaluated one level deeper. -/
theorem faithful_retrieve (detect : options.detectCycles = true) (levels : Nat)
    (path : List String) : Faithful env options path (retrieve env options levels path) := by
  induction levels generalizing path with
  | zero =>
    intro name v memory later hsound _ hload
    cases loads_of_retrieve hload with
    | settled hsettled => exact agrees_of_settled hsound hsettled
  | succ levels ih =>
    intro name v memory later hsound hfresh hload
    cases loads_of_retrieve hload with
    | settled hsettled => exact agrees_of_settled hsound hsettled
    | resolved hopen hpath hrun =>
      have hsettles : Settles env (name :: path) (retrieve env options levels (name :: path)) :=
        settles_retrieve detect levels (name :: path)
      obtain ⟨_, hbetween⟩ := hsettles.run _ (hfresh.cons hopen) hrun
      exact agrees_insert (hbetween.head hopen)
        (agrees_run hsettles (ih (name :: path)) _ hsound (hfresh.cons hopen) hrun)

/-! ## Errors -/

/-- All formula cells that a cell leads to are among `cells`. -/
def Covers (env : Environment) (options : Options) (cells : Finset String) (name : String) : Prop :=
  ∀ other text, Relation.ReflTransGen (env.Refers options) name other →
    env other = some (.formula text) → other ∈ cells

/-- A path within `cells` that leaves as many levels as there are cells not on it. -/
structure Room (cells : Finset String) (levels : Nat) (path : List String) : Prop where
  nodup : path.Nodup
  subset : ∀ name ∈ path, name ∈ cells
  enough : cells.card ≤ path.length + levels

theorem Room.cons {cells : Finset String} {levels : Nat} {path : List String} {name : String}
    (h : Room cells (levels + 1) path) (hpath : name ∉ path) (hname : name ∈ cells) :
    Room cells levels (name :: path) where
  nodup := List.nodup_cons.2 ⟨hpath, h.nodup⟩
  subset := List.forall_mem_cons.2 ⟨hname, h.subset⟩
  enough := by
    have := h.enough
    rw [List.length_cons]
    omega

/-- Where no level is left, every cell is on the path. -/
theorem Room.not_zero {cells : Finset String} {path : List String} {name : String}
    (h : Room cells 0 path) (hpath : name ∉ path) : name ∉ cells := by
  intro hname
  have hnodup : (name :: path).Nodup := List.nodup_cons.2 ⟨hpath, h.nodup⟩
  have hsubset : (name :: path).toFinset ⊆ cells := by
    intro other hother
    rcases List.mem_cons.1 (List.mem_toFinset.1 hother) with rfl | hmem
    · exact hname
    · exact h.subset other hmem
  have hcard := Finset.card_le_card hsubset
  rw [List.toFinset_card_of_nodup hnodup, List.length_cons] at hcard
  have := h.enough
  omega

/-- On a path, whatever fails to load fails alike in a forgetful evaluation. -/
def FaithfulErrors (env : Environment) (options : Options) (cells : Finset String)
    (path : List String) (load : Loader) : Prop :=
  ∀ (name : String) (e : FormulaError) (memory : Memory), Covers env options cells name →
    Sound env options memory → Fresh env memory path → load name memory = .error e →
    cellValue env options path name = ended (.error e)

/-- The first error among the answers is the error of the whole. -/
theorem answer_of_run_error {cells : Finset String} {path : List String} {load : Loader}
    (hsettles : Settles env path load) (h : Faithful env options path load)
    (herrors : FaithfulErrors env options cells path load)
    {i : Inquiry α} (hcovers : ∀ name, i.MayAsk name → Covers env options cells name)
    {memory : Memory} {e : FormulaError} (hsound : Sound env options memory)
    (hfresh : Fresh env memory path) (hrun : i.run load memory = .error e) :
    answer (cellValue env options path) i = ended (.error e) := by
  induction i generalizing memory with
  | done r =>
    cases r with
    | error e => cases hrun; rfl
    | ok b => cases hrun
  | ask name next ih =>
    rw [answer]
    rcases Inquiry.run_ask_eq_error hrun with hload | ⟨v, between, hload, hnext⟩
    · rw [herrors name e memory (hcovers name (.here next)) hsound hfresh hload]
      rfl
    · have hfirst := h name v memory between hsound hfresh hload
      obtain ⟨_, hbetween, _⟩ := hsettles name v memory between hfresh hload
      rw [hfirst.same path hbetween, Recursion.ended_ok_bind]
      exact ih v (fun other hother => hcovers other (.later hother)) hfirst.sound hbetween hnext

/-- Whatever fails with a memory fails alike without, as long as there is room for all formula
cells; by induction on the levels that are left. -/
theorem cellValue_of_retrieve_error (detect : options.detectCycles = true) {cells : Finset String}
    {levels : Nat} {path : List String} (hroom : Room cells levels path) :
    FaithfulErrors env options cells path (retrieve env options levels path) := by
  induction levels generalizing path with
  | zero =>
    intro name e memory hcovers hsound hfresh hload
    cases failsToLoad_of_retrieve hload with
    | cycle hopen _ hpath => rw [cellValue, if_pos hpath]
    | tooDeep hopen hpath =>
      exact absurd (hcovers name _ .refl hopen.formula) (hroom.not_zero (hpath detect))
  | succ levels ih =>
    intro name e memory hcovers hsound hfresh hload
    cases failsToLoad_of_retrieve hload with
    | cycle hopen _ hpath => rw [cellValue, if_pos hpath]
    | @within _ text _ hopen hpath hrun =>
      have hname := hcovers name text .refl hopen.formula
      rw [cellValue_of_formula (hpath detect) hopen.formula]
      refine answer_of_run_error (settles_retrieve detect levels (name :: path))
        (faithful_retrieve detect levels (name :: path))
        (ih (hroom.cons (hpath detect) hname)) (fun other hother => ?_) hsound
        (hfresh.cons hopen) hrun
      intro last lastText hlast
      exact hcovers last lastText (.head ⟨text, hopen.formula, mentioned_of_mayAsk hother⟩ hlast)

/-! ## The machine -/

/-- The machine gives exactly the value or the error of the forgetful evaluation. It is enough that
as many formula cells may be resolved at once as the expression reaches; in a sheet with finitely
many formula cells those can be taken for `cells`. -/
theorem evaluate_eq_forgetful (env : Environment) (options : Options) (e : Expr)
    (cells : Finset String) (detect : options.detectCycles = true)
    (covers : ∀ name text, e.Reaches env options name → env name = some (.formula text) →
      name ∈ cells)
    (room : cells.card ≤ options.maxReferences) :
    formulaValue env options [] e = ended (e.evaluate env options) := by
  have hsettles : Settles env [] (retrieve env options options.maxReferences []) :=
    settles_retrieve detect options.maxReferences []
  have hfaithful : Faithful env options [] (retrieve env options options.maxReferences []) :=
    faithful_retrieve detect options.maxReferences []
  rw [formulaValue_eq, Expr.evaluate_eq_retrieve]
  cases hrun : (e.checkedInquiry options).run (retrieve env options options.maxReferences []) ∅ with
  | ok p =>
    exact (agrees_run hsettles hfaithful _ sound_empty (fresh_nil ∅) hrun).same [] (fresh_nil _)
  | error err =>
    have hroom : Room cells options.maxReferences [] :=
      ⟨List.nodup_nil, fun _ h => (List.not_mem_nil h).elim, by simpa using room⟩
    refine answer_of_run_error hsettles hfaithful (cellValue_of_retrieve_error detect hroom)
      (fun name hname => ?_) sound_empty (fresh_nil ∅) hrun
    exact fun other text hother => covers other text
      ⟨name, Expr.mentions_of_mayAsk_checked hname, hother⟩

/-- Two formula cells, one of which refers to the other twice. -/
def doublingCells : Environment
  | "A1" => some (.formula "B1 + B1")
  | "B1" => some (.formula "C1 * 2")
  | "C1" => some (.value (.number 3.0))
  | _ => none

theorem mem_of_doublingCells {name text : String}
    (h : doublingCells name = some (.formula text)) : name ∈ ({"A1", "B1"} : Finset String) := by
  unfold doublingCells at h
  split at h
  · decide
  · decide
  · cases h
  · cases h

/-- Two levels are enough for two formula cells, also where one of them is met on two paths. -/
theorem evaluate_doublingCells :
    formulaValue doublingCells { maxReferences := 2 } [] (.reference "A1") =
      ended ((Expr.reference "A1").evaluate doublingCells { maxReferences := 2 }) :=
  evaluate_eq_forgetful doublingCells { maxReferences := 2 } (.reference "A1") {"A1", "B1"} rfl
    (fun _ _ _ h => mem_of_doublingCells h) (by decide)

end Spreadsheet.Forgetful
