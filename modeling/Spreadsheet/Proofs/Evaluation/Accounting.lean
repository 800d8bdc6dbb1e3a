import Spreadsheet.Proofs.Evaluation.InternalErrors
import Spreadsheet.Proofs.Evaluation.Limits
import Spreadsheet.Proofs.Evaluation.Lookups

/-!
# Account of the cells that are being resolved

The frames of the machine say which formula cells are being resolved. The machine also counts these
cells and keeps the set of their names, so that it need not search its frames when it loads a cell.
If cycles are looked for, frames, count and set agree in every state: each cell stands in one frame
only, and its value is not remembered before the frame is left. So a formula cell, once begun, is
never begun again, and no chain of references has more cells than there are.

## Main results

* `Accounted.moves`: every move keeps count, set and memory in agreement with the frames.
* `Accounted.count_lookups_le`: a run looks a formula cell up once at most.
* `Accounted.not_deep`: with room for every formula cell, no chain is too deep.
* `resolves_exactly`: both, together with the account that they follow from.
-/

namespace Spreadsheet

/-- The steps of an expression fail with an error of its own. -/
theorem Expr.failsOnly_steps (e : Expr) : FailsOnly e.Faults e.steps := by
  intro err herr
  have hcorners : e.checkCorners = .error err := by
    rw [← e.steps_map_unit, herr]
    rfl
  exact e.failsOnly_checkCorners err hcorners

namespace Evaluation

theorem Frame.Asks.asked {name : String} {before after : List Frame}
    (h : Frame.Asks name before after) : before.head?.bind Frame.asked? = some name := by
  cases h with
  | step todo cell rest => rfl
  | member loaded rest hmore hname =>
    rw [List.head?_cons, Option.bind_some, Frame.asked?, if_neg hmore, hname]

namespace State

variable {env : Environment} {options : Options} {s t : State} {name text : String}

/-- The chain of the formula cells that are being resolved, innermost first. -/
def chain (s : State) : List String := s.frames.filterMap Frame.cell?

/-- Count, set and memory of a state agree with its frames. -/
structure Accounted (env : Environment) (options : Options) (s : State) : Prop where
  /-- The depth is the number of frames that resolve a cell. -/
  counted : s.depth = s.chain.length
  within : s.depth ≤ options.maxReferences
  /-- The set of the cells that are being resolved holds the names of those frames, no others. -/
  tracked : ∀ name, name ∈ s.resolving ↔ name ∈ s.chain
  distinct : s.chain.Nodup
  /-- The cells of those frames hold formulas, and their values are not remembered. -/
  apart : Fresh env s.resolved s.chain

/-! ## Keeping account -/

theorem accounted_start (env : Environment) (options : Options) (steps : List Step) :
    (start steps).Accounted env options where
  counted := rfl
  within := Nat.zero_le _
  tracked name := by simp [start, chain, Frame.cell?]
  distinct := List.nodup_nil
  apart := fresh_nil _

namespace Accounted

/-- Other frames that resolve the same cells, and other values on the stack, keep the account. -/
theorem reframe (hs : s.Accounted env options) {frames : List Frame} (values : List Value)
    (h : frames.filterMap Frame.cell? = s.chain) :
    { s with frames, values }.Accounted env options where
  counted := hs.counted.trans (congrArg List.length h.symm)
  within := hs.within
  tracked name := (hs.tracked name).trans (iff_of_eq (congrArg (name ∈ ·) h.symm))
  distinct := (congrArg List.Nodup h).mpr hs.distinct
  apart := fun name hname => hs.apart name (h ▸ hname)

/-- When a cell has been resolved, its value is remembered and it leaves the chain. -/
theorem leave (hs : s.Accounted env options) {cell : Option String} {rest : List Frame}
    (h : s.frames = .steps [] cell :: rest) : (s.leave cell rest).Accounted env options := by
  have hchain : s.chain = cell.toList ++ rest.filterMap Frame.cell? := by
    rw [chain, h]
    cases cell <;> rfl
  cases cell with
  | none => exact hs.reframe s.values hchain.symm
  | some name =>
    have hcounted := hs.counted
    have hdistinct := hs.distinct
    rw [hchain] at hcounted hdistinct
    obtain ⟨hname, hrest⟩ := List.nodup_cons.1 hdistinct
    refine ⟨?counted, (Nat.sub_le _ _).trans hs.within, fun other => ?tracked, hrest, ?apart⟩
    case counted => exact congrArg (· - 1) hcounted
    case tracked =>
      have htracked := hs.tracked other
      rw [hchain] at htracked
      rw [State.leave, Std.TreeSet.mem_erase, Ne, Std.LawfulEqCmp.compare_eq_iff_eq, htracked]
      constructor
      · rintro ⟨hne, hmem⟩
        exact (List.mem_cons.1 hmem).resolve_left (Ne.symm hne)
      · intro hmem
        exact ⟨fun heq => hname (heq ▸ hmem), List.mem_cons_of_mem name hmem⟩
    case apart =>
      have hapart := hs.apart
      rw [hchain] at hapart
      exact hapart.tail.insert hname _

/-- When the steps of a cell are begun, the cell joins the chain. -/
theorem enter (hs : s.Accounted env options) (detect : options.detectCycles = true)
    (hopen : Unresolved env s.resolved name text) (hcycle : name ∉ s.resolving)
    (hdepth : s.depth < options.maxReferences) (steps : List Step) :
    (s.enter options name steps).Accounted env options where
  counted := congrArg (· + 1) hs.counted
  within := hdepth
  tracked other := by
    rw [State.enter, if_pos detect, Std.TreeSet.mem_insert, Std.LawfulEqCmp.compare_eq_iff_eq,
      hs.tracked other, eq_comm]
    exact List.mem_cons.symm
  distinct := List.nodup_cons.2 ⟨fun hname => hcycle ((hs.tracked name).2 hname), hs.distinct⟩
  apart := hs.apart.cons hopen

/-- Every move keeps account. -/
theorem moves (hs : s.Accounted env options) (detect : options.detectCycles = true)
    (h : Moves env options s t) : t.Accounted env options := by
  cases h with
  | leave h => exact hs.leave h
  | push h | apply h _ _ | range h _ | collect h _ _ =>
    refine hs.reframe _ ?_
    rw [chain, h]
    rfl
  | load hasks _ => exact hs.reframe _ hasks.cells_eq
  | enter hasks hopen hcycle hdepth _ _ =>
    exact (hs.reframe s.values hasks.cells_eq).enter detect hopen (hcycle detect) hdepth _

end Accounted

/-- The account is exact in every state of a run. -/
theorem accounted_of_reaches (detect : options.detectCycles = true) {steps : List Step}
    (h : Reaches env options (start steps) s) : s.Accounted env options :=
  h.invariant (accounted_start env options steps) fun _ _ _ hs => hs.moves detect

/-! ## No formula cell is looked up twice -/

/-- The steps of a formula cell have been begun, and perhaps all been made. -/
def Begun (s : State) (name : String) : Prop :=
  name ∈ s.chain ∨ s.resolved[name]? ≠ none

/-- What has been begun stays so: a cell that leaves the chain is remembered. -/
theorem Begun.leave (hbegun : s.Begun name) {cell : Option String} {rest : List Frame}
    (h : s.frames = .steps [] cell :: rest) : (s.leave cell rest).Begun name := by
  rw [Begun, chain, h] at hbegun
  cases cell with
  | none => exact hbegun
  | some last =>
    have hmemory : (s.leave (some last) rest).resolved[name]? =
        if compare last name = .eq then some (s.values.head?.getD .empty)
        else s.resolved[name]? := by
      rw [State.leave, Std.TreeMap.getElem?_insert]
    by_cases hlast : last = name
    · refine .inr ?_
      rw [hmemory, if_pos (Std.LawfulEqCmp.compare_eq_iff_eq.2 hlast)]
      exact Option.some_ne_none _
    · rw [if_neg fun heq => hlast (Std.LawfulEqCmp.compare_eq_iff_eq.1 heq)] at hmemory
      refine hbegun.imp (fun hname => ?_) fun hremembered => hmemory ▸ hremembered
      exact (List.mem_cons.1 hname).resolve_left (Ne.symm hlast)

theorem Begun.moves (hbegun : s.Begun name) (h : Moves env options s t) : t.Begun name := by
  cases h with
  | leave h => exact hbegun.leave h
  | push h | apply h _ _ | range h _ | collect h _ _ =>
    rw [Begun, chain, h] at hbegun
    exact hbegun
  | load hasks _ =>
    rw [Begun, chain, ← hasks.cells_eq] at hbegun
    exact hbegun
  | enter hasks _ _ _ _ _ =>
    rw [Begun, chain, ← hasks.cells_eq] at hbegun
    exact hbegun.imp_left (List.mem_cons_of_mem _)

theorem looksUp_iff : s.looksUp options name = true ↔
    s.resolved[name]? = none ∧ (options.detectCycles = true → name ∉ s.resolving) := by
  rw [looksUp, Bool.and_eq_true, Option.isNone_iff_eq_none, Bool.not_eq_true', ← Bool.not_eq_true,
    Bool.and_eq_true, not_and, Std.TreeSet.contains_iff_mem]

/-- A cell is looked up if it is asked for, is not remembered and not being resolved. -/
theorem lookup?_eq_some_iff : s.lookup? options = some name ↔
    s.frames.head?.bind Frame.asked? = some name ∧ s.resolved[name]? = none ∧
      (options.detectCycles = true → name ∉ s.resolving) := by
  rw [lookup?, Option.filter_eq_some_iff, looksUp_iff]

/-- What has been begun is not looked up. -/
theorem Accounted.not_begun (hs : s.Accounted env options) (detect : options.detectCycles = true)
    (h : s.lookup? options = some name) : ¬ s.Begun name := by
  obtain ⟨_, hmemory, hcycle⟩ := lookup?_eq_some_iff.1 h
  rintro (hchain | hremembered)
  · exact hcycle detect ((hs.tracked name).2 hchain)
  · exact hremembered hmemory

/-- Unless it ends the run, a step that looks a formula cell up begins its steps. -/
theorem begun_of_lookup? (h : s.lookup? options = some name)
    (henv : env name = some (.formula text)) (hfollows : Follows env options t s) :
    t.Begun name := by
  obtain ⟨hasked, hmemory, _⟩ := lookup?_eq_some_iff.1 h
  cases moves_of_follows hfollows with
  | leave h | push h | apply h _ _ | range h _ =>
    rw [h] at hasked
    cases hasked
  | collect h hdone _ =>
    rw [h, List.head?_cons, Option.bind_some, Frame.asked?, if_pos hdone] at hasked
    cases hasked
  | load hasks hsettled =>
    rw [hasks.asked, Option.some.injEq] at hasked
    subst hasked
    exact absurd ⟨hmemory, henv⟩ hsettled.not_unresolved
  | enter hasks _ _ _ _ _ =>
    rw [hasks.asked, Option.some.injEq] at hasked
    subst hasked
    exact .inl List.mem_cons_self

/-- The step that begins the steps of a formula cell looks the cell up. -/
theorem lookup?_of_chain_cons (h : Moves env options s t) (hchain : t.chain = name :: s.chain) :
    s.lookup? options = some name := by
  have hlength : t.chain.length = s.chain.length + 1 := congrArg List.length hchain
  cases h with
  | @leave cell rest h =>
    have hleft : (s.leave cell rest).chain.length ≤ s.chain.length := by
      rw [chain, chain, h]
      cases cell with
      | none => exact Nat.le_refl _
      | some last => exact Nat.le_succ _
    omega
  | push h | apply h _ _ | range h _ | collect h _ _ =>
    rw [chain, chain, h] at hlength
    exact absurd hlength (Nat.ne_of_lt (Nat.lt_succ_self _))
  | load hasks _ =>
    rw [chain, chain, hasks.cells_eq] at hlength
    exact absurd hlength (Nat.ne_of_lt (Nat.lt_succ_self _))
  | enter hasks hopen hcycle _ _ _ =>
    cases (List.cons.inj hchain).1
    exact lookup?_eq_some_iff.2 ⟨hasks.asked, hopen.fresh, hcycle⟩

/-- A run looks a formula cell up once at most, and no more once its steps have been begun. By
induction on the run, backwards from its end. -/
theorem Accounted.count_lookups_le (hs : s.Accounted env options)
    (detect : options.detectCycles = true) (henv : env name = some (.formula text)) :
    (s.lookups env options).count name ≤ 1 ∧ (s.Begun name → name ∉ s.lookups env options) := by
  induction s using (wellFounded env options).induction with
  | h s ih =>
    have hlookup : name ∈ (s.lookup? options).toList → ¬ s.Begun name :=
      fun hmem => hs.not_begun detect (Option.mem_toList.1 hmem)
    cases hnext : s.next env options with
    | finished outcome =>
      rw [lookups_of_finished hnext]
      exact ⟨List.count_le_length.trans Option.length_toList_le,
        fun hbegun hmem => hlookup hmem hbegun⟩
    | running t =>
      have hmoves := moves_of_follows hnext
      obtain ⟨hcount, hlater⟩ := ih t hnext (hs.moves detect hmoves)
      rw [lookups_of_follows hnext, List.count_append, List.mem_append, not_or]
      refine ⟨?_, fun hbegun => ⟨fun hmem => hlookup hmem hbegun, hlater (hbegun.moves hmoves)⟩⟩
      by_cases hname : s.lookup? options = some name
      · have hzero := List.count_eq_zero.2 (hlater (begun_of_lookup? hname henv hnext))
        rw [hname, hzero]
        simp
      · have hzero := List.count_eq_zero.2 fun hmem => hname (Option.mem_toList.1 hmem)
        rw [hzero, Nat.zero_add]
        exact hcount

/-! ## Chains that are too deep -/

/-- A cell is refused as too deep only if it is to be looked up, holds a formula, and the depth has
come to its limit. -/
theorem of_load_deep {e : FormulaError} (hdeep : e.Deep)
    (h : s.load env options name = .error e) :
    s.resolved[name]? = none ∧ (options.detectCycles = true → name ∉ s.resolving) ∧
      (∃ text, env name = some (.formula text)) ∧ options.maxReferences ≤ s.depth := by
  unfold State.load at h
  split at h
  · cases h
  · next hmemory =>
    split at h
    · cases h
      exact absurd hdeep (FormulaError.not_deep_circularReference name)
    · next hcycle =>
      rw [Bool.and_eq_true, not_and, Std.TreeSet.contains_iff_mem] at hcycle
      split at h
      · cases h
      · cases h
      · next text henv =>
        split at h
        · have hown : FailsOnly FormulaError.Own (do
              let e ← Expr.ofFormula text options.maxNesting
              return s.enter options name (← e.steps)) := by
            refine failsOnly_bind ?_ fun e => failsOnly_bind ?_ fun steps => failsOnly_ok _
            · exact (Expr.failsOnly_ofFormula text options.maxNesting).mono fun _ => .reading
            · exact e.failsOnly_steps.mono fun _ => Expr.Faults.own
          exact absurd hdeep (hown e h).not_deep
        · next hdepth => exact ⟨hmemory, hcycle, ⟨text, henv⟩, Nat.le_of_not_lt hdepth⟩

theorem not_deep_replaceTop {count : Nat} {f : List Value → Outcome}
    (hf : ∀ args, FailsOnly (¬ ·.Deep) (f args)) : FailsOnly (¬ ·.Deep) (s.replaceTop count f) := by
  rw [replaceTop]
  split
  · rw [failsOnly_error]
    rintro ⟨_, _, h⟩
    cases h
  · next args below _ =>
    cases hargs : f args with
    | error e => exact failsOnly_error.2 (hf args e hargs)
    | ok v => exact failsOnly_ok _

theorem not_deep_enterRange (start stop : String) :
    FailsOnly (¬ ·.Deep) (s.enterRange options start stop) := by
  rw [enterRange_eq_map]
  have hrange := (options.failsOnly_rangeBetween start stop (.reference start)).mono
    fun _ h => h.own.not_deep
  exact failsOnly_map hrange _

/-- A frame finds a chain to be too deep only where it loads a cell. -/
theorem exists_load_of_proceed_deep {e : FormulaError} (hdeep : e.Deep) {frame : Frame}
    {rest : List Frame} (h : s.proceed env options rest frame = .error e) :
    ∃ name frames, frame.asked? = some name ∧
      { s with frames }.load env options name = .error e := by
  cases frame with
  | steps todo cell =>
    cases todo with
    | nil => cases h
    | cons step todo =>
      cases step with
      | push v => cases h
      | load name => exact ⟨name, _, rfl, h⟩
      | range start stop => exact absurd hdeep (not_deep_enterRange start stop e h)
      | apply operation count =>
        have happly : ∀ args, FailsOnly (¬ ·.Deep) (operation.apply args) := fun args =>
          (operation.failsOnly_apply args).mono fun _ h => (FormulaError.Own.operation _ h).not_deep
        exact absurd hdeep (not_deep_replaceTop happly e h)
  | range cursor loaded =>
    simp only [proceed] at h
    split at h
    · exact absurd hdeep (not_deep_replaceTop (fun items => failsOnly_ok _) e h)
    · next hmore => exact ⟨_, _, if_neg hmore, h⟩

/-- Only where a formula cell is looked up, and the depth has come to its limit, is a chain found to
be too deep. -/
theorem lookup?_of_next_deep {e : FormulaError} (hdeep : e.Deep)
    (h : s.next env options = .finished (.error e)) :
    ∃ name text, s.lookup? options = some name ∧ env name = some (.formula text) ∧
      options.maxReferences ≤ s.depth := by
  unfold next at h
  split at h
  · rw [Progress.finished.injEq, outcome] at h
    split at h
    · cases h
    · cases h
      obtain ⟨_, _, h⟩ := hdeep
      cases h
  · next frame rest hframes =>
    split at h
    · next err hproceed =>
      cases h
      obtain ⟨name, frames, hasked, hload⟩ := exists_load_of_proceed_deep hdeep hproceed
      obtain ⟨hmemory, hcycle, ⟨text, henv⟩, hlimit⟩ := of_load_deep hdeep hload
      refine ⟨name, text, lookup?_eq_some_iff.2 ⟨?_, hmemory, hcycle⟩, henv, hlimit⟩
      rw [hframes, List.head?_cons, Option.bind_some, hasked]
    · cases h

/-- With room for every formula cell, no chain is too deep: the cells of the chain are different
formula cells, and one more would be one more than there are. -/
theorem Accounted.not_deep (hs : s.Accounted env options) (detect : options.detectCycles = true)
    {cells : Finset String} (hcells : ∀ name text, env name = some (.formula text) → name ∈ cells)
    (hroom : cells.card ≤ options.maxReferences) {e : FormulaError}
    (h : s.next env options = .finished (.error e)) : ¬ e.Deep := by
  intro hdeep
  obtain ⟨name, text, hlookup, henv, hlimit⟩ := lookup?_of_next_deep hdeep h
  have hfull : Forgetful.Room cells 0 s.chain := by
    refine ⟨hs.distinct, fun other hother => ?_, ?_⟩
    · obtain ⟨inner, hopen⟩ := hs.apart other hother
      exact hcells other inner hopen.formula
    · have hcounted := hs.counted
      omega
  have hname : name ∉ s.chain := fun hchain => hs.not_begun detect hlookup (.inl hchain)
  exact hfull.not_zero hname (hcells name text henv)

/-! ## Whole runs -/

/-- What a run does with the formula of a cell, it does once at most. -/
structure ResolvesOnce (env : Environment) (options : Options) (s : State) : Prop where
  looked_up : ∀ name text, env name = some (.formula text) →
    (s.lookups env options).count name ≤ 1
  /-- The only formula that a step reads is that of the cell that it looks up: whatever the other
  cells hold, the step is the same. -/
  read : ∀ t, Reaches env options s t → ∀ env' : Environment,
    (∀ name, t.lookup? options = some name → env' name = env name) →
      t.next env' options = t.next env options
  /-- The steps of a formula cell are begun by a step that looks the cell up. -/
  begun : ∀ t u name, Reaches env options s t → Follows env options u t →
    u.chain = name :: t.chain → t.lookup? options = some name

theorem resolvesOnce_start (detect : options.detectCycles = true) (steps : List Step) :
    (start steps).ResolvesOnce env options where
  looked_up _ _ henv :=
    ((accounted_start env options steps).count_lookups_le detect henv).1
  read _ _ _ h := next_congr h
  begun _ _ _ _ hfollows hchain := lookup?_of_chain_cons (moves_of_follows hfollows) hchain

/-- If cycles are looked for, the account of the cells that are being resolved is exact in every
state of a run, each formula cell is resolved once at most, and with room for every formula cell no
chain of references is too deep. -/
theorem resolves_exactly (detect : options.detectCycles = true) (steps : List Step) :
    (∀ s, Reaches env options (start steps) s → s.Accounted env options) ∧
      (start steps).ResolvesOnce env options ∧
      ∀ cells : Finset String, (∀ name text, env name = some (.formula text) → name ∈ cells) →
        cells.card ≤ options.maxReferences → ∀ name limit,
          (start steps).run env options ≠ .error (.evaluation (.chainTooDeep name limit)) := by
  refine ⟨fun s => accounted_of_reaches detect, resolvesOnce_start detect steps,
    fun cells hcells hroom name limit hrun => ?_⟩
  obtain ⟨last, hreaches, hlast⟩ := exists_last env options (start steps)
  rw [hrun] at hlast
  exact (accounted_of_reaches detect hreaches).not_deep detect hcells hroom hlast
    ⟨name, limit, rfl⟩

open Forgetful (doublingCells mem_of_doublingCells)

/-- A formula cell is being resolved that refers to another one twice. -/
def doublingOuter : State where
  frames := [.steps [.load "B1", .load "B1", .apply (.operator .add) 2] (some "A1"),
    .steps [] none]
  resolving := (∅ : Std.TreeSet String).insert "A1"
  depth := 1

/-- The other formula cell is being resolved for its sake. -/
def doublingState : State where
  frames := [.steps [.load "C1", .push (.number 2.0), .apply (.operator .multiply) 2] (some "B1"),
    .steps [.load "B1", .apply (.operator .add) 2] (some "A1"), .steps [] none]
  resolving := (∅ : Std.TreeSet String).insert "A1" |>.insert "B1"
  depth := 2

/-- Two levels are enough for two formula cells, of which one is met again when it has been
resolved. -/
theorem resolves_exactly_doublingCells :
    Reaches doublingCells { maxReferences := 2 } (start [.load "A1"]) doublingState ∧
      doublingState.Accounted doublingCells { maxReferences := 2 } ∧
      ((start [.load "A1"]).lookups doublingCells { maxReferences := 2 }).count "B1" ≤ 1 ∧
      (∀ name text, doublingCells name = some (.formula text) →
        name ∈ ({"A1", "B1"} : Finset String)) ∧
      ({"A1", "B1"} : Finset String).card ≤ 2 ∧
      ∀ name limit, (start [.load "A1"]).run doublingCells { maxReferences := 2 } ≠
        .error (.evaluation (.chainTooDeep name limit)) := by
  obtain ⟨haccounted, honce, hroom⟩ := @resolves_exactly doublingCells { maxReferences := 2 } rfl
    [.load "A1"]
  have houter : Follows doublingCells { maxReferences := 2 } doublingOuter
      (start [.load "A1"]) := by
    with_unfolding_all rfl
  have hinner : Follows doublingCells { maxReferences := 2 } doublingState doublingOuter := by
    with_unfolding_all rfl
  have hreaches : Reaches doublingCells { maxReferences := 2 } (start [.load "A1"]) doublingState :=
    .head houter (.single hinner)
  have hcells : ∀ name text, doublingCells name = some (.formula text) →
      name ∈ ({"A1", "B1"} : Finset String) := fun name text => mem_of_doublingCells
  exact ⟨hreaches, haccounted _ hreaches, honce.looked_up "B1" "C1 * 2" rfl, hcells, by decide,
    hroom _ hcells (by decide)⟩

end State

end Evaluation

end Spreadsheet
